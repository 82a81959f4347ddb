import MumbleRuntime.Runtime

/-!
# What a command does to the connections of a shard

Reporting an event never touches more than the queues: each connection is
offered the flavor's words and then every text it receives, batch by batch. A
command either does nothing, reports one event, answers one connection, retries
one, or lets one go.
-/

namespace MumbleRuntime
open Library Option Table

namespace OutboundQueue

def Adds (P : ControlMessage → Prop) (queue queue' : OutboundQueue) : Prop :=
  ∃ more, queue'.accepted = queue.accepted ++ more ∧ ∀ message ∈ more, P message

variable {P : ControlMessage → Prop}

theorem Adds.refl (queue : OutboundQueue) : Adds P queue queue := ⟨[], by simp, by simp⟩

theorem Adds.of_eq {queue queue' : OutboundQueue} (h : queue'.accepted = queue.accepted) :
    Adds P queue queue' :=
  ⟨[], by simpa using h, by simp⟩

theorem Adds.trans {a b c : OutboundQueue} (hab : Adds P a b) (hbc : Adds P b c) : Adds P a c := by
  obtain ⟨more, hb, hmore⟩ := hab
  obtain ⟨rest, hc, hrest⟩ := hbc
  refine ⟨more ++ rest, by rw [hc, hb, List.append_assoc], ?_⟩
  intro message hmem
  rcases List.mem_append.mp hmem with h | h
  · exact hmore message h
  · exact hrest message h

theorem Adds.mono {Q : ControlMessage → Prop} (hPQ : ∀ message, P message → Q message)
    {a b : OutboundQueue} (h : Adds P a b) : Adds Q a b := by
  obtain ⟨more, hb, hmore⟩ := h
  exact ⟨more, hb, fun message hmem => hPQ message (hmore message hmem)⟩

theorem trySendAll_adds {messages : List ControlMessage} (h : ∀ message ∈ messages, P message)
    (queue : OutboundQueue) : Adds P queue (queue.trySendAll messages).1 := by
  rcases queue.trySendAll_cases messages with ⟨-, -, hacc⟩ | ⟨-, -, hacc⟩
  · exact ⟨messages, hacc, h⟩
  · exact .of_eq hacc

theorem pushVoice_adds (h : P .udpTunnel) (queue : OutboundQueue) :
    Adds P queue queue.pushVoice.1 := by
  unfold pushVoice
  split_ifs
  · exact .refl queue
  · exact .of_eq rfl
  · exact .refl queue
  · exact ⟨[.udpTunnel], rfl, by simpa using h⟩

end OutboundQueue

namespace AttachedConnection

def sendAll (attached : AttachedConnection) (batches : List (List ControlMessage)) :
    AttachedConnection :=
  batches.foldl send attached

theorem sendAll_eq (attached : AttachedConnection) (batches : List (List ControlMessage)) :
    attached.sendAll batches = { attached with queue := (attached.sendAll batches).queue } := by
  induction batches generalizing attached with
  | nil => rfl
  | cons batch rest ih => exact ih (attached.send batch)

theorem sendAll_append (attached : AttachedConnection) (front back : List (List ControlMessage)) :
    attached.sendAll (front ++ back) = (attached.sendAll front).sendAll back :=
  List.foldl_append

theorem sendAll_adds {P : ControlMessage → Prop} {batches : List (List ControlMessage)}
    (h : ∀ batch ∈ batches, ∀ message ∈ batch, P message) (attached : AttachedConnection) :
    OutboundQueue.Adds P attached.queue (attached.sendAll batches).queue := by
  induction batches generalizing attached with
  | nil => exact .refl _
  | cons batch rest ih =>
    have hfst : OutboundQueue.Adds P attached.queue (attached.send batch).queue :=
      OutboundQueue.trySendAll_adds (h batch List.mem_cons_self) _
    exact hfst.trans (ih (fun b hb => h b (List.mem_cons_of_mem _ hb)) (attached.send batch))

end AttachedConnection

/-- The connection a client's question came from; nothing for the commands the
runtime issues itself. -/
def ShardCommand.asker : ShardCommand → Option ConnectionId
  | .requested connection _ => some connection
  | .requestedSelfState connection _ _ => some connection
  | .queriedPermissions connection _ => some connection
  | .queriedUserStats connection _ => some connection
  | .invokedAction connection _ _ _ => some connection
  | .said connection _ _ => some connection
  | .attach .. => none
  | .detach .. => none
  | .drained _ => none

variable {command : ShardCommand}

namespace Shard

def heardBy (shard : Shard) (ids : IdAllocator) (attached : AttachedConnection) (spoken : Spoken) :
    Option (List ControlMessage) :=
  if spoken.from?.isSome && (shard.speakerOf spoken).isNone then none
  else
    (shard.resolve ids spoken.audience).bind fun target =>
      if shard.receives attached spoken (shard.speakerOf spoken) target = some true then
        some [Emit.relayed (shard.speakerOf spoken) target spoken.text]
      else none

def offers (shard : Shard) (ids : IdAllocator) (reply : Reply) (attached : AttachedConnection) :
    List (List ControlMessage) :=
  ((reply.words.find? attached.id).getD []).map (Emit.spoken attached.session) ::
    reply.spoken.filterMap (shard.heardBy ids attached)

structure SameSight (shard shard' : Shard) (attached attached' : AttachedConnection) : Prop where
  view : shard'.view = shard.view
  id : attached'.id = attached.id
  session : attached'.session = attached.session
  see : attached'.see = attached.see
  held : attached'.held = attached.held
  overlay : attached'.overlaySent = attached.overlaySent

namespace SameSight

variable {shard shard' : Shard} {attached attached' : AttachedConnection}

section

variable (h : SameSight shard shard' attached attached')

include h

theorem visibleChannel (id : ChannelId) :
    shard'.visibleChannel attached' id = shard.visibleChannel attached id := by
  simp only [Shard.visibleChannel, h.view, h.see, h.held, h.overlay]

theorem seenUser (session : SessionId) :
    shard'.seenUser attached' session = shard.seenUser attached session := by
  simp only [Shard.seenUser, h.view, h.see, h.held, h.overlay]

theorem descendsFromWithin (root : ChannelId) (fuel : ℕ) (current : ChannelId) :
    shard'.descendsFromWithin attached' root fuel current =
      shard.descendsFromWithin attached root fuel current := by
  induction fuel generalizing current with
  | zero => rfl
  | succ fuel ih => simp only [Shard.descendsFromWithin, h.visibleChannel, ih]

theorem addressed (target : TextTarget) :
    shard'.addressed attached' target = shard.addressed attached target := by
  have hfuel : shard'.descendsFuel attached' = shard.descendsFuel attached := by
    simp only [descendsFuel, h.view, h.held, h.overlay]
  cases target <;>
    simp only [Shard.addressed, h.session, h.seenUser, descendsFrom, hfuel, h.descendsFromWithin]

theorem receives (spoken : Spoken) (speaker : Option SessionId) (target : TextTarget) :
    shard'.receives attached' spoken speaker target =
      shard.receives attached spoken speaker target := by
  simp only [Shard.receives, h.id, h.addressed, h.seenUser]

end

end SameSight

def Recast (shard shard' : Shard) : Prop :=
  { shard' with connections := shard.connections } = shard

variable {shard shard' : Shard}

theorem Recast.get (h : Recast shard shard') {β : Type*} (field : Shard → β)
    (hfield : field { shard' with connections := shard.connections } = field shard') :
    field shard' = field shard := by
  rw [← hfield, h]

theorem Recast.of_connections (connections : Table AttachedConnection.id)
    (h : Recast { shard with connections } shard') : Recast shard shard' := by
  have hcast := congrArg (fun cast : Shard => { cast with connections := shard.connections }) h
  exact hcast

structure Requeued (shard shard' : Shard)
    (batches : AttachedConnection → List (List ControlMessage)) : Prop where
  same : Recast shard shard'
  rows : ∀ connection, shard'.connections.get? connection =
    (shard.connections.get? connection).map fun attached => attached.sendAll (batches attached)

variable {batches : AttachedConnection → List (List ControlMessage)}

section

variable (h : Requeued shard shard' batches)

include h

theorem Requeued.speakerOf (spoken : Spoken) :
    shard'.speakerOf spoken = shard.speakerOf spoken := by
  unfold Shard.speakerOf
  cases spoken.from? with
  | none => rfl
  | some connection =>
    rw [bind_some, bind_some, h.rows, map_map]
    congr 1
    funext attached
    rw [Function.comp_apply, AttachedConnection.sendAll_eq]

theorem Requeued.sameSight (attached : AttachedConnection) :
    SameSight shard shard' attached (attached.sendAll (batches attached)) := by
  rw [AttachedConnection.sendAll_eq]
  exact ⟨h.same.get view rfl, rfl, rfl, rfl, rfl, rfl⟩

theorem Requeued.resolve (ids : IdAllocator)
    (audience : Audience) : shard'.resolve ids audience = shard.resolve ids audience := by
  have hview : shard'.view = shard.view := h.same.get view rfl
  have hid : shard'.id = shard.id := h.same.get id rfl
  cases audience <;> simp only [Shard.resolve, channelOf, hview, hid]

theorem Requeued.heardBy (ids : IdAllocator) (attached : AttachedConnection) (spoken : Spoken) :
    shard'.heardBy ids (attached.sendAll (batches attached)) spoken =
      shard.heardBy ids attached spoken := by
  simp only [Shard.heardBy, h.speakerOf, h.resolve, (h.sameSight attached).receives]

end

variable {ids : IdAllocator}

theorem deliver_requeued {middle : Shard} {spoken : Spoken} (h : Requeued shard middle batches)
    (hdeliver : middle.deliver ids spoken = some shard') :
    Requeued shard shard' fun attached =>
      batches attached ++ (shard.heardBy ids attached spoken).toList := by
  have hkeep : ∀ shard', some middle = some shard' →
      (∀ attached, shard.heardBy ids attached spoken = none) →
      Requeued shard shard' fun attached =>
        batches attached ++ (shard.heardBy ids attached spoken).toList := by
    rintro shard' heq hnone
    obtain rfl : middle = shard' := some.inj heq
    refine ⟨h.same, fun connection => ?_⟩
    simp only [h.rows, hnone, toList_none, List.append_nil]
  simp only [deliver, h.speakerOf, h.resolve] at hdeliver
  split_ifs at hdeliver with hunknown
  · refine hkeep shard' hdeliver fun attached => ?_
    rw [heardBy, if_pos hunknown]
  · cases htgt : shard.resolve ids spoken.audience with
    | none =>
      rw [htgt] at hdeliver
      refine hkeep shard' hdeliver fun attached => ?_
      rw [heardBy, if_neg hunknown, htgt]
      rfl
    | some target =>
      simp only [htgt] at hdeliver
      split_ifs at hdeliver
      obtain rfl := some.inj hdeliver
      refine ⟨h.same, fun connection => ?_⟩
      rw [get?_mapRows, h.rows, map_map]
      congr 1
      funext attached
      simp only [Function.comp_apply, (h.sameSight attached).receives, heardBy, if_neg hunknown, htgt,
        bind_some, AttachedConnection.sendAll_append]
      split_ifs <;> rfl

theorem deliverAll_requeued {middle : Shard} {spoken : List Spoken}
    (h : Requeued shard middle batches)
    (hdeliver : spoken.foldlM (fun shard spoken => deliver shard ids spoken) middle = some shard') :
    Requeued shard shard' fun attached =>
      batches attached ++ spoken.filterMap (shard.heardBy ids attached) := by
  induction spoken generalizing middle batches with
  | nil =>
    obtain rfl : middle = shard' := some.inj hdeliver
    simpa using h
  | cons first rest ih =>
    obtain ⟨next, hnext, hrest⟩ := bind_eq_some_iff.mp hdeliver
    have hrun := ih (deliver_requeued h hnext) hrest
    refine ⟨hrun.same, fun connection => ?_⟩
    rw [hrun.rows]
    congr 1
    funext attached
    rw [List.append_assoc]
    congr 2
    cases hheard : shard.heardBy ids attached first <;> simp [hheard]

theorem sayWords_requeued (shard : Shard) (words : OrderedMap ConnectionId (List Word)) :
    Requeued shard (shard.sayWords words) fun attached =>
      [((words.find? attached.id).getD []).map (Emit.spoken attached.session)] :=
  ⟨rfl, fun _ => get?_mapRows _ _ (fun _ => rfl) _⟩

variable {logic : ShardLogic}

theorem tell_requeued {event : VoiceEvent} {effects : List Effect}
    (h : shard.tell ids logic event = some (shard', effects)) :
    Requeued shard shard' (shard.offers ids (logic.observe event)) := by
  obtain ⟨told, htold, heq⟩ := map_eq_some_iff.mp h
  obtain ⟨rfl, -⟩ : told = shard' ∧ _ := by simpa using heq
  exact deliverAll_requeued (shard.sayWords_requeued (logic.observe event).words) htold

theorem offers_isReply (shard : Shard) (ids : IdAllocator) (reply : Reply)
    (attached : AttachedConnection) :
    ∀ batch ∈ shard.offers ids reply attached, ∀ message ∈ batch, message.isReply = true := by
  intro batch hbatch message hmsg
  rcases List.mem_cons.mp hbatch with rfl | htext
  · obtain ⟨word, -, rfl⟩ := List.mem_map.mp hmsg
    cases word <;> rfl
  · obtain ⟨spoken, -, hheard⟩ := List.mem_filterMap.mp htext
    rw [heardBy] at hheard
    split_ifs at hheard
    obtain ⟨target, -, hsent⟩ := bind_eq_some_iff.mp hheard
    split_ifs at hsent
    obtain rfl := some.inj hsent
    obtain rfl : message = _ := List.mem_singleton.mp hmsg
    cases target <;> rfl

def reported (shard : Shard) : ShardCommand → Option VoiceEvent
  | .requested connection channel =>
    (shard.connections.get? connection).bind fun attached =>
      (shard.visibleChannel attached channel).map fun rendered =>
        .requestedChannel connection rendered.key
  | .requestedSelfState connection selfMute selfDeaf =>
    (shard.connections.get? connection).map fun _ =>
      .requestedSelfState connection selfMute selfDeaf
  | .invokedAction connection action session channel =>
    (shard.connections.get? connection).bind fun attached =>
      ((Emit.actionKey action).bind attached.actionsSent.get?).bind fun offered =>
        (shard.actionTarget attached offered.on session channel).map fun target =>
          .invokedAction connection offered.key target
  | .said connection target message =>
    (shard.connections.get? connection).bind fun attached =>
      (shard.textAudience attached target).bind fun (audience, writableIn) =>
        if (shard.visibleChannel attached writableIn).any Channel.canText then
          some (.said connection audience message)
        else none
  | _ => none

def answered (shard : Shard) : ShardCommand → Option (AttachedConnection × ControlMessage)
  | .queriedPermissions connection channel =>
    (shard.connections.get? connection).bind fun attached =>
      (shard.visibleChannel attached channel).map fun rendered =>
        (attached, Emit.permissionQuery rendered)
  | .queriedUserStats connection target =>
    (shard.connections.get? connection).bind fun attached =>
      if (shard.seenUser attached target).isSome then some (attached, Emit.userStats target)
      else none
  | .said connection target _ =>
    (shard.connections.get? connection).bind fun attached =>
      (shard.textAudience attached target).bind fun (_, writableIn) =>
        if (shard.visibleChannel attached writableIn).any Channel.canText then none
        else some (attached,
          Emit.deniedPermission attached.session writableIn Emit.Perm.textMessage)
  | _ => none

inductive Answers (shard : Shard) (attached : AttachedConnection) : ControlMessage → Prop
  | permissions {channel : ChannelId} {rendered : Channel} :
      shard.visibleChannel attached channel = some rendered →
      Answers shard attached (Emit.permissionQuery rendered)
  | stats {target : SessionId} : (shard.seenUser attached target).isSome = true →
      Answers shard attached (Emit.userStats target)
  | denied {target : TextTarget} {audience : Audience} {channel : ChannelId} :
      shard.textAudience attached target = some (audience, channel) →
      Answers shard attached
        (Emit.deniedPermission attached.session channel Emit.Perm.textMessage)

theorem answered_answers {attached : AttachedConnection}
    {message : ControlMessage} (h : shard.answered command = some (attached, message)) :
    command.asker = some attached.id ∧ shard.connections.get? attached.id = some attached ∧
      shard.Answers attached message := by
  have hkey : ∀ connection, shard.connections.get? connection = some attached →
      some connection = some attached.id ∧
        shard.connections.get? attached.id = some attached := by
    intro connection hget
    have hid := key_of_get? hget
    rw [hid]
    exact ⟨rfl, hget⟩
  cases command with
  | queriedPermissions connection channel =>
    obtain ⟨found, hget, hfnd⟩ := bind_eq_some_iff.mp h
    obtain ⟨rendered, hvisible, heq⟩ := map_eq_some_iff.mp hfnd
    obtain ⟨rfl, rfl⟩ := Prod.mk.inj heq
    exact ⟨(hkey connection hget).1, (hkey connection hget).2, .permissions hvisible⟩
  | queriedUserStats connection target =>
    obtain ⟨found, hget, hfnd⟩ := bind_eq_some_iff.mp h
    split_ifs at hfnd with hseen
    obtain ⟨rfl, rfl⟩ := Prod.mk.inj (some.inj hfnd)
    exact ⟨(hkey connection hget).1, (hkey connection hget).2, .stats hseen⟩
  | said connection target text =>
    obtain ⟨found, hget, hfnd⟩ := bind_eq_some_iff.mp h
    obtain ⟨⟨audience, writableIn⟩, haudience, hdenied⟩ := bind_eq_some_iff.mp hfnd
    dsimp only at hdenied
    split_ifs at hdenied
    obtain ⟨rfl, rfl⟩ := Prod.mk.inj (some.inj hdenied)
    exact ⟨(hkey connection hget).1, (hkey connection hget).2, .denied haudience⟩
  | _ => cases h

theorem Answers.isReply {attached : AttachedConnection} {message : ControlMessage}
    (h : shard.Answers attached message) : message.isReply = true := by
  cases h <;> rfl

theorem reported_of_answered
    {answer : AttachedConnection × ControlMessage} (h : shard.answered command = some answer) :
    shard.reported command = none := by
  cases command with
  | said connection target text =>
    obtain ⟨attached, hget, hfnd⟩ := bind_eq_some_iff.mp h
    obtain ⟨⟨audience, writableIn⟩, haudience, hdenied⟩ := bind_eq_some_iff.mp hfnd
    dsimp only at hdenied
    split_ifs at hdenied with htext
    simp [reported, hget, haudience, htext]
  | queriedPermissions => rfl
  | queriedUserStats => rfl
  | _ => cases h

inductive Handling (shard : Shard) (ids : IdAllocator) (logic : ShardLogic) :
    ShardCommand → Handled → Prop
  | idle {command : ShardCommand} : Handling shard ids logic command { shard, ids }
  | told {command : ShardCommand} {event : VoiceEvent} {shard' : Shard} {effects : List Effect} :
      shard.reported command = some event →
      shard.tell ids logic event = some (shard', effects) →
      Handling shard ids logic command { shard := shard', ids, effects }
  | answered {command : ShardCommand} {attached : AttachedConnection} {message : ControlMessage} :
      shard.answered command = some (attached, message) →
      Handling shard ids logic command { shard := shard.answer attached message, ids }
  | retried {connection : ConnectionId} :
      Handling shard ids logic (.drained connection)
        { shard := (shard.retry ids connection).1, ids := (shard.retry ids connection).2 }
  | left {connection : ConnectionId} {reason : String} {attached : AttachedConnection}
      {shard' : Shard} {effects : List Effect} :
      shard.connections.get? connection = some attached →
      { shard with connections := shard.connections.erase connection }.tell ids logic
        (.disconnected connection reason) = some (shard', effects) →
      Handling shard ids logic (.detach connection reason none)
        { shard := shard', ids, effects,
          departed := some ⟨connection, (shard.tearDown attached).queue,
            (shard.tearDown attached).sharedCursor, none⟩ }

def replied (shard : Shard) (command : ShardCommand) : Shard :=
  match shard.answered command with
  | some (attached, message) => shard.answer attached message
  | none => shard

theorem handle_of_question (hasker : command.asker.isSome = true)
    (shard : Shard) (ids : IdAllocator) (logic : ShardLogic) :
    shard.handle ids logic command = match shard.reported command with
      | some event => shard.report ids logic event none
      | none => some { shard := shard.replied command, ids } := by
  cases command with
  | requested connection channel =>
    simp only [handle, requested, reported, replied, answered]
    cases shard.connections.get? connection with
    | none => rfl
    | some attached =>
      dsimp only [bind_some]
      cases shard.visibleChannel attached channel <;> rfl
  | requestedSelfState connection selfMute selfDeaf =>
    cases hget : shard.connections.get? connection <;>
      simp [handle, requestedSelfState, reported, replied, answered, contains, hget]
  | queriedPermissions connection channel =>
    simp only [handle, queriedPermissions, reported, replied, answered]
    cases shard.connections.get? connection with
    | none => rfl
    | some attached =>
      dsimp only [bind_some]
      cases shard.visibleChannel attached channel <;> rfl
  | queriedUserStats connection target =>
    simp only [handle, queriedUserStats, reported, replied, answered]
    cases shard.connections.get? connection with
    | none => rfl
    | some attached =>
      dsimp only [bind_some]
      split_ifs <;> rfl
  | invokedAction connection action session channel =>
    simp only [handle, invoked, reported, replied, answered]
    cases shard.connections.get? connection with
    | none => rfl
    | some attached =>
      dsimp only [bind_some]
      cases (Emit.actionKey action).bind attached.actionsSent.get? with
      | none => rfl
      | some offered =>
        dsimp only [bind_some]
        cases shard.actionTarget attached offered.on session channel <;> rfl
  | said connection target message =>
    simp only [handle, said, reported, replied, answered]
    cases shard.connections.get? connection with
    | none => rfl
    | some attached =>
      dsimp only [bind_some]
      cases shard.textAudience attached target with
      | none => rfl
      | some resolved =>
        dsimp only [bind_some]
        split_ifs <;> rfl
  | _ => cases hasker

theorem handle_cases_question {handled : Handled}
    (hasker : command.asker.isSome = true) (h : shard.handle ids logic command = some handled) :
    shard.Handling ids logic command handled := by
  rw [handle_of_question hasker] at h
  cases hreported : shard.reported command with
  | some event =>
    rw [hreported] at h
    obtain ⟨⟨shard', effects⟩, htell, rfl⟩ := map_eq_some_iff.mp h
    exact .told hreported htell
  | none =>
    rw [hreported] at h
    obtain rfl := some.inj h
    unfold replied
    split
    · rename_i attached message hans
      exact .answered hans
    · exact .idle

theorem handle_cases {handled : Handled}
    (hrequest : command.isRequest = true) (h : shard.handle ids logic command = some handled) :
    shard.Handling ids logic command handled := by
  cases command with
  | attach => cases hrequest
  | detach connection reason handover =>
    cases handover with
    | some destination => cases hrequest
    | none =>
      simp only [handle, detach] at h
      split at h
      · obtain rfl := some.inj h
        exact .idle
      · rename_i attached hget
        obtain ⟨⟨shard', effects⟩, htell, rfl⟩ := map_eq_some_iff.mp h
        exact .left hget htell
  | drained connection =>
    obtain rfl := some.inj h
    exact .retried
  | _ => exact handle_cases_question rfl h

end Shard

end MumbleRuntime
