import MumbleRuntime.Closure
import MumbleRuntime.Commands

/-!
# What a question tells the client that asks it

A client may name any identifier in a question. Whether the question reaches the
flavor, and what the shard answers by itself, is decided on the asker's slice of
the shard alone: two shards that agree on the slice conduct themselves alike,
whatever the rest of their views, connections, journals and allocators hold.
-/

namespace MumbleRuntime
open Library Option Table

/-- How many messages the queue would still take: none once its writer has
ended. -/
def OutboundQueue.room (queue : OutboundQueue) : ℕ := if queue.closed then 0 else queue.free

theorem OutboundQueue.admits_eq (queue : OutboundQueue) (needed : ℕ) :
    queue.admits needed = decide (needed ≤ queue.room) := by
  unfold admits room
  cases queue.closed <;> by_cases hzero : needed = 0 <;> simp [hzero]

structure Slice where
  session : SessionId
  see : ScopeSet
  seen : ShardView
  held : Option ShardView
  overlaySent : Overlay
  actionsSent : Actions
  room : ℕ
  deriving DecidableEq

def AttachedConnection.slice (attached : AttachedConnection) (view : ShardView) : Slice where
  session := attached.session
  see := attached.see
  seen := view.restrict attached.see
  held := attached.held
  overlaySent := attached.overlaySent
  actionsSent := attached.actionsSent
  room := attached.queue.room

/-- What a shard does on a question: the messages it enqueues to the asker by
itself, and the event it reports. -/
structure Conduct where
  messages : List ControlMessage
  event : Option VoiceEvent
  deriving DecidableEq

variable {first second : Conduct}

namespace Shard

def slice (shard : Shard) (connection : ConnectionId) : Option Slice :=
  (shard.connections.get? connection).map fun attached => attached.slice shard.view

def acceptedBy (shard : Shard) (connection : ConnectionId) : List ControlMessage :=
  ((shard.connections.get? connection).map fun attached => attached.queue.accepted).getD []

/-- Whatever the flavor and the allocator, handling the command enqueues the
messages of `conduct` to the connection and reports its event. -/
def Conducts (shard : Shard) (connection : ConnectionId) (command : ShardCommand)
    (conduct : Conduct) : Prop :=
  ∃ middle : Shard,
    middle.acceptedBy connection = shard.acceptedBy connection ++ conduct.messages ∧
    ∀ ids logic, shard.handle ids logic command =
      match conduct.event with
      | some event => middle.report ids logic event none
      | none => some { shard := middle, ids }

section SameSlice

variable {shard shard' : Shard} {attached attached' : AttachedConnection}

section

variable (h : attached'.slice shard'.view = attached.slice shard.view)

include h

theorem visibleChannel_of_slice (channel : ChannelId) :
    shard'.visibleChannel attached' channel = shard.visibleChannel attached channel := by
  have hseen := congrArg (fun slice : Slice => slice.seen.channels.get? channel) h
  have hheld := congrArg Slice.held h
  have hov := congrArg Slice.overlaySent h
  simp only [AttachedConnection.slice, ShardView.restrict, get?_filter] at hseen hheld hov
  simp only [visibleChannel, hseen, hheld, hov]

theorem seenUser_of_slice (session : SessionId) :
    shard'.seenUser attached' session = shard.seenUser attached session := by
  have hseen := congrArg (fun slice : Slice => slice.seen.users.get? session) h
  have hheld := congrArg Slice.held h
  have hov := congrArg Slice.overlaySent h
  simp only [AttachedConnection.slice, ShardView.restrict, get?_filter] at hseen hheld hov
  simp only [seenUser, hseen, hheld, hov]

theorem actionTarget_of_slice (on : On) (session : Option SessionId) (channel : Option ChannelId) :
    shard'.actionTarget attached' on session channel =
      shard.actionTarget attached on session channel := by
  simp only [actionTarget, visibleChannel_of_slice h, seenUser_of_slice h]

theorem textAudience_of_slice (target : TextTarget) :
    shard'.textAudience attached' target = shard.textAudience attached target := by
  cases target <;> simp only [textAudience, visibleChannel_of_slice h, seenUser_of_slice h]

end

end SameSlice

variable {shard shard' : Shard} {connection : ConnectionId} {command : ShardCommand}

variable (h : shard'.slice connection = shard.slice connection)

include h in
theorem slice_cases :
    (shard'.connections.get? connection = none ∧ shard.connections.get? connection = none) ∨
    ∃ attached' attached, shard'.connections.get? connection = some attached' ∧
      shard.connections.get? connection = some attached ∧
      attached'.slice shard'.view = attached.slice shard.view := by
  unfold slice at h
  cases hget' : shard'.connections.get? connection with
  | none =>
    rw [hget'] at h
    exact .inl ⟨rfl, map_eq_none_iff.mp h.symm⟩
  | some attached' =>
    rw [hget'] at h
    obtain ⟨attached, hget, hslice⟩ := map_eq_some_iff.mp h.symm
    exact .inr ⟨attached', attached, rfl, hget, hslice.symm⟩

theorem reported_of_absent (hget : shard.connections.get? connection = none)
    (hasker : command.asker = some connection) : shard.reported command = none := by
  cases command <;> simp_all [ShardCommand.asker, reported]

theorem answered_of_absent (hget : shard.connections.get? connection = none)
    (hasker : command.asker = some connection) : shard.answered command = none := by
  cases command <;> simp_all [ShardCommand.asker, answered]

include h in
theorem reported_of_slice (hasker : command.asker = some connection) :
    shard'.reported command = shard.reported command := by
  obtain ⟨hget', hget⟩ | ⟨attached', attached, hget', hget, hslice⟩ := slice_cases h
  · rw [reported_of_absent hget' hasker, reported_of_absent hget hasker]
  · have hactions : attached'.actionsSent = attached.actionsSent := congrArg Slice.actionsSent hslice
    cases command with
    | requested asker channel =>
      obtain rfl := some.inj hasker
      simp only [reported, hget', hget, bind_some, visibleChannel_of_slice hslice]
    | requestedSelfState asker selfMute selfDeaf =>
      obtain rfl := some.inj hasker
      simp only [reported, hget', hget, map_some]
    | invokedAction asker action session channel =>
      obtain rfl := some.inj hasker
      simp only [reported, hget', hget, bind_some, hactions, actionTarget_of_slice hslice]
    | said asker target text =>
      obtain rfl := some.inj hasker
      simp only [reported, hget', hget, bind_some, textAudience_of_slice hslice,
        visibleChannel_of_slice hslice]
    | _ => rfl

def enqueued (shard : Shard) (command : ShardCommand) : List ControlMessage :=
  match shard.answered command with
  | some (attached, message) => if attached.queue.admits 1 then [message] else []
  | none => []

include h in
theorem enqueued_of_slice (hasker : command.asker = some connection) :
    shard'.enqueued command = shard.enqueued command := by
  obtain ⟨hget', hget⟩ | ⟨attached', attached, hget', hget, hslice⟩ := slice_cases h
  · rw [enqueued, enqueued, answered_of_absent hget' hasker, answered_of_absent hget hasker]
  · have hses : attached'.session = attached.session := congrArg Slice.session hslice
    have hroom : attached'.queue.room = attached.queue.room := congrArg Slice.room hslice
    have hadm : attached'.queue.admits 1 = attached.queue.admits 1 := by
      rw [OutboundQueue.admits_eq, OutboundQueue.admits_eq, hroom]
    cases command with
    | queriedPermissions asker channel =>
      obtain rfl := some.inj hasker
      simp only [enqueued, answered, hget', hget, bind_some, visibleChannel_of_slice hslice]
      cases shard.visibleChannel attached channel with
      | none => rfl
      | some rendered => simp only [map_some, hadm]
    | queriedUserStats asker target =>
      obtain rfl := some.inj hasker
      simp only [enqueued, answered, hget', hget, bind_some, seenUser_of_slice hslice]
      by_cases hseen : (shard.seenUser attached target).isSome = true
      · simp only [if_pos hseen, hadm]
      · simp only [if_neg hseen]
    | said asker target text =>
      obtain rfl := some.inj hasker
      simp only [enqueued, answered, hget', hget, bind_some, textAudience_of_slice hslice,
        visibleChannel_of_slice hslice, hses]
      cases shard.textAudience attached target with
      | none => rfl
      | some resolved =>
        simp only [bind_some]
        by_cases htext : (shard.visibleChannel attached resolved.2).any Channel.canText = true
        · simp only [if_pos htext]
        · simp only [if_neg htext, hadm]
    | _ => rfl

theorem answered_of_reported {event : VoiceEvent} (h : shard.reported command = some event) :
    shard.answered command = none := by
  cases hans : shard.answered command with
  | none => rfl
  | some answer =>
    rw [reported_of_answered hans] at h
    cases h

theorem acceptedBy_replied (hasker : command.asker = some connection) :
    (shard.replied command).acceptedBy connection =
      shard.acceptedBy connection ++ shard.enqueued command := by
  unfold replied enqueued
  cases hans : shard.answered command with
  | none => simp
  | some answer =>
    obtain ⟨attached, message⟩ := answer
    obtain ⟨hanswerer, hget, -⟩ := answered_answers hans
    obtain rfl : attached.id = connection := some.inj (hanswerer.symm.trans hasker)
    have haft : (shard.answer attached message).connections.get? attached.id =
        some (attached.send [message]) :=
      get?_insert_self _ _
    simp only [acceptedBy, haft, hget, map_some, getD_some]
    rcases attached.queue.trySendAll_cases [message] with ⟨-, hadm, hacc⟩ | ⟨-, hadm, hacc⟩
    · have hone : attached.queue.admits 1 = true := hadm
      rw [if_pos hone]
      exact hacc
    · have hone : ¬attached.queue.admits 1 = true := by
        rw [show attached.queue.admits 1 = false from hadm]
        decide
      rw [if_neg hone, List.append_nil]
      exact hacc

theorem conducts_question (hasker : command.asker = some connection) :
    shard.Conducts connection command ⟨shard.enqueued command, shard.reported command⟩ := by
  refine ⟨shard.replied command, acceptedBy_replied hasker, fun ids logic => ?_⟩
  rw [handle_of_question (by rw [hasker]; rfl)]
  cases hreported : shard.reported command with
  | none => rfl
  | some event =>
    have hsame : shard.replied command = shard := by
      rw [replied, answered_of_reported hreported]
    simp only [hsame]

theorem acceptedBy_sayWords_empty (shard : Shard) (connection : ConnectionId) :
    (shard.sayWords empty).acceptedBy connection = shard.acceptedBy connection := by
  have hrows := (shard.sayWords_requeued empty).rows connection
  unfold acceptedBy
  rw [hrows, map_map]
  congr 1

def marking (event : VoiceEvent) (effects : List Effect) : ShardLogic where
  observe told := if told = event then { effects } else {}

theorem report_marking (middle : Shard) (ids : IdAllocator) (event told : VoiceEvent)
    (effects : List Effect) :
    middle.report ids (marking event effects) told none =
      some { shard := middle.sayWords empty, ids,
             effects := if told = event then effects else [] } := by
  unfold report tell marking
  dsimp only
  split_ifs <;> rfl

theorem Conducts.marked {conduct : Conduct} (h : shard.Conducts connection command conduct)
    (ids : IdAllocator) (event : VoiceEvent) (effects : List Effect) :
    ∃ handled, shard.handle ids (marking event effects) command = some handled ∧
      handled.shard.acceptedBy connection = shard.acceptedBy connection ++ conduct.messages ∧
      handled.effects = if conduct.event = some event then effects else [] := by
  obtain ⟨middle, hacc, hhdl⟩ := h
  have hmarked := hhdl ids (marking event effects)
  cases hev : conduct.event with
  | none =>
    rw [hev] at hmarked
    exact ⟨_, hmarked, hacc, rfl⟩
  | some told =>
    rw [hev] at hmarked
    dsimp only at hmarked
    rw [report_marking] at hmarked
    refine ⟨_, hmarked, ?_, ?_⟩
    · rw [acceptedBy_sayWords_empty, hacc]
    · simp only [some.injEq]

variable (hfst : shard.Conducts connection command first)
  (hsec : shard.Conducts connection command second)

include hfst hsec in
theorem Conducts.messages_eq : first.messages = second.messages := by
  obtain ⟨handled, hhdl, hacc, -⟩ :=
    hfst.marked default (.connected connection) []
  obtain ⟨handled', hhdl', hacc', -⟩ :=
    hsec.marked default (.connected connection) []
  obtain rfl : handled = handled' := some.inj (hhdl.symm.trans hhdl')
  exact List.append_cancel_left (hacc.symm.trans hacc')

include hfst hsec in
theorem Conducts.event_of_event {event : VoiceEvent}
    (hev : first.event = some event) : second.event = some event := by
  obtain ⟨handled, hhdl, -, heffects⟩ :=
    hfst.marked default event [.move connection 0]
  obtain ⟨handled', hhdl', -, heffects'⟩ :=
    hsec.marked default event [.move connection 0]
  obtain rfl : handled = handled' := some.inj (hhdl.symm.trans hhdl')
  rw [if_pos hev] at heffects
  by_contra hoth
  rw [if_neg hoth, heffects] at heffects'
  cases heffects'

include hfst hsec in
theorem Conducts.unique : first = second := by
  have hmessages := hfst.messages_eq hsec
  have hev : first.event = second.event :=
    ext fun _ => ⟨hfst.event_of_event hsec, hsec.event_of_event hfst⟩
  cases first
  cases second
  simp_all

theorem conducts_iff (hasker : command.asker = some connection) (conduct : Conduct) :
    shard.Conducts connection command conduct ↔
      conduct = ⟨shard.enqueued command, shard.reported command⟩ := by
  constructor
  · intro h
    exact h.unique (conducts_question hasker)
  · rintro rfl
    exact conducts_question hasker

theorem question_conducted_on_slice (shard shard' : Shard) (connection : ConnectionId)
    (command : ShardCommand) (hasker : command.asker = some connection)
    (hslice : shard'.slice connection = shard.slice connection) :
    ∃ conduct : Conduct,
      (∀ other, shard.Conducts connection command other ↔ other = conduct) ∧
      (∀ other, shard'.Conducts connection command other ↔ other = conduct) := by
  refine ⟨⟨shard.enqueued command, shard.reported command⟩, conducts_iff hasker, fun other => ?_⟩
  rw [conducts_iff hasker, enqueued_of_slice hslice hasker, reported_of_slice hslice hasker]

def sampleChannel (id segment : ℕ) : Channel where
  key := id
  id := id
  parent := 0
  scope := ⟨[segment], by simp [maxDepth]⟩
  name := "den"
  position := 0
  canEnter := true
  canText := false
  links := Table.empty

def shadedShard (channels : List Channel) : Shard :=
  { Shard.new 1 with
    view := ⟨Table.ofList channels, Table.empty⟩
    connections := Table.ofList
      [{ id := 1, session := 7, cursor := 0, see := denSee,
         overlaySent := Overlay.empty, actionsSent := Table.empty, held := none, ready := true,
         queue := OutboundQueue.new, sharedCursor := 0 }] }

theorem question_conducted_on_slice_hidden :
    (shadedShard [sampleChannel 3 1, sampleChannel 5 2]).view ≠
      (shadedShard [sampleChannel 3 1]).view ∧
    ∃ conduct : Conduct,
      (∀ other, (shadedShard [sampleChannel 3 1]).Conducts 1 (.said 1 (.channel 3) "hi") other ↔
        other = conduct) ∧
      (∀ other, (shadedShard [sampleChannel 3 1, sampleChannel 5 2]).Conducts 1
        (.said 1 (.channel 3) "hi") other ↔ other = conduct) :=
  ⟨by decide +kernel, question_conducted_on_slice _ _ 1 _ rfl (by decide +kernel)⟩

end Shard

end MumbleRuntime
