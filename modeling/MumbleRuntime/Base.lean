import MumbleRuntime.Fate
import MumbleRuntime.Convergence

/-!
# The planning base is what the client holds

A replan starts from the shared view of the shard as the connection observes it,
with the overlay last sent, and so does a departure. Nothing in that view says
how far the connection has come. It is what the client holds as long as no turn
changes what a connection sees while its queue refuses the turn's transition, and
no transition shows a channel anew, without links, that the client has with
links.
-/

namespace MumbleRuntime
open Library Compose Option ClientModel Lag Runtime
open AttachedConnection hiding id

variable {before after : ShardView} {see : ScopeSet}

variable (h : Compose.filter (Plan.plan before after) see = [])

namespace Cell

variable {α δ φ : Type} (cell : Cell α δ φ)

include h in
theorem any_unseen :
    (cell.inView after).any (cell.seen see) = (cell.inView before).any (cell.seen see) := by
  have hsome := congrArg isSome (cell.unseen h)
  simpa only [isSome_map, isSome_filter] using hsome

include h in
theorem composed_unseen (overlay : Overlay) :
    cell.inClient ((after.restrict see).compose overlay).shown =
      cell.inClient ((before.restrict see).compose overlay).shown := by
  rw [cell.inClient_composed, cell.inClient_composed]
  cases cell.inOverlay overlay with
  | some a => rfl
  | none => exact cell.unseen h

end Cell

include h in
theorem ShardView.shown_unseen (overlay : Overlay) :
    ((after.restrict see).compose overlay).shown = ((before.restrict see).compose overlay).shown :=
  clientModel_eq_iff.mpr ⟨fun id => (channelCell id).composed_unseen h overlay,
    fun session => (userCell session).composed_unseen h overlay⟩

namespace Overlay

theorem Apart.unseen {overlay : Overlay} {matters : ElementId → Prop}
    (h : overlay.Apart matters see before) (hunseen : filter (Plan.plan before after) see = []) :
    overlay.Apart matters see after where
  channels id he hsome := ((channelCell id).any_unseen hunseen).trans (h.channels id he hsome)
  users session he hsome :=
    ((userCell session).any_unseen hunseen).trans (h.users session he hsome)

end Overlay

variable {client : ClientModel}

namespace AttachedConnection

theorem holds_replan {before : ShardView} (h : client.Holds before.shown)
    (hroot : ∃ root, client.channels.get? rootChannel = some root ∧ root.parent = none)
    (after : ShardView) (self : SessionId) (hlinks : ¬client.Unlinks (replanOps before after)) :
    (client.applyAll (Emit.emit (replanOps before after) self)).Holds after.shown := by
  rw [← replan_converges before after]
  exact h.emit hroot self (fun id => (channelCell id).replan_simple before after) hlinks

theorem holds_push {attached : AttachedConnection} {first : ShardView}
    {views : List ShardView} (hone : views = [] ∨ ∃ view, views = [view])
    {replayed : List PlannedOp} {fresh : Overlay}
    (hslice : filter replayed attached.see = shared attached.see (versionsOf first views))
    (h : client.Holds ((first.restrict attached.see).compose attached.overlaySent).shown)
    (hroot : ∃ root, client.channels.get? rootChannel = some root ∧ root.parent = none)
    (hapart : attached.overlaySent.Apart (fun _ => True) attached.see first)
    (hapart' : fresh.Apart (fun _ => True) attached.see (views.getLastD first))
    (hlinks : ¬client.Unlinks (attached.pushOps replayed fresh)) :
    (client.applyAll (Emit.emit (attached.pushOps replayed fresh) attached.session)).Holds
      (((views.getLastD first).restrict attached.see).compose fresh).shown := by
  have hch := fun id => (channelCell id).push_one attached.see first hone
    attached.overlaySent fresh (hapart.channels id trivial) (hapart'.channels id trivial)
  have huser := fun session => (userCell session).push_one attached.see first hone
    attached.overlaySent fresh (hapart.users session trivial) (hapart'.users session trivial)
  have hops := clientModel_eq_iff.mpr ⟨fun id => (hch id).1, fun session => (huser session).1⟩
  rw [← hops]
  rw [pushOps, hslice] at hlinks ⊢
  exact h.emit hroot attached.session (fun id => (hch id).2) hlinks

theorem pushOps_creates_nothing {attached : AttachedConnection} {replayed : List PlannedOp}
    (h : filter replayed attached.see = []) (channel : Channel) :
    .createChannel channel ∉ attached.pushOps replayed attached.overlaySent := by
  intro hmem
  rw [pushOps, h] at hmem
  have hset : ((splice (shared attached.see [])
      (Plan.planElements attached.overlaySent attached.overlaySent)).filterMap
      (channelCell channel.id).write).any Write.isSet = true := by
    rw [List.any_eq_true]
    refine ⟨.set channel.shown, List.mem_filterMap.mpr
      ⟨.createChannel channel, (List.mem_filter.mp hmem).1, ?_⟩, rfl⟩
    simp [channelCell, PlanOp.channelWrite]
  rw [((channelCell channel.id).spliced attached.see [] attached.overlaySent
    attached.overlaySent).isSet] at hset
  cases hsent : (channelCell channel.id).inOverlay attached.overlaySent <;>
    simp [hsent, front, back, Diff.appears] at hset

end AttachedConnection

namespace Shard

/-- The client of an attached connection holds the view the shard takes it to
hold, and nothing it sees is owed to it. -/
structure Keeps (shard : Shard) (attached : AttachedConnection) : Prop where
  holds : attached.queue.client.Holds (attached.composed shard.view).shown
  cursor : attached.cursor ≤ shard.journal.head
  owed : attached.held = none → ∀ replayed,
    shard.journal.replay attached.cursor shard.journal.head = .ok replayed →
    Compose.filter replayed attached.see = []
  apart : attached.held = none →
    attached.overlaySent.Apart (fun _ => True) attached.see shard.view

variable {shard shard' : Shard} {attached : AttachedConnection}

theorem Keeps.requeue (h : shard.Keeps attached) (hsame : shard.Recast shard')
    {queue : OutboundQueue} (hque : queue.client = attached.queue.client) :
    shard'.Keeps { attached with queue } := by
  have hview : shard'.view = shard.view := hsame.get view rfl
  have hjournal : shard'.journal = shard.journal := hsame.get journal rfl
  refine ⟨?_, hjournal ▸ h.cursor, ?_, ?_⟩
  · rw [hque, hview]
    exact h.holds
  · rw [hjournal]
    exact h.owed
  · rw [hview]
    exact h.apart

theorem Keeps.recast (h : shard.Keeps attached) (hsame : shard.Recast shard') :
    shard'.Keeps attached :=
  h.requeue hsame rfl

/-- The turn does not lose this connection: its queue takes the transition and no
link is kept by mistake, or nothing the turn changes is seen by it. -/
def Spares (shard : Shard) (logic : ShardLogic) (rendered : Rendered)
    (attached : AttachedConnection) : Prop :=
  if shard.admitsTurn logic rendered attached then
    ∀ ops, shard.turnOps logic rendered attached = some ops → ¬attached.queue.client.Unlinks ops
  else attached.held = none →
    Compose.filter (Plan.plan shard.view rendered.view) attached.see = []

theorem Keeps.turned (h : shard.Keeps attached) (hhead : shard.InStep) {builder : ShardBuilder}
    {observations : Observations} {rendered : Rendered}
    (hok : builder.finish observations = .ok rendered) {logic : ShardLogic}
    (hspares : shard.Spares logic rendered attached) (ids : IdAllocator) :
    (shard.accept ids logic rendered).1.Keeps (shard.turned logic rendered attached) := by
  have hview : (shard.accept ids logic rendered).1.view = rendered.view :=
    shard.publish_view rendered
  have hjournal : (shard.accept ids logic rendered).1.journal =
      (shard.publish rendered).journal := rfl
  have hpub := published_eq_head hhead rendered
  unfold Spares at hspares
  rcases shard.turned_cases logic rendered attached with
    ⟨ops, hops, hadm, -, queue, hacc, htrn⟩ | ⟨hadm, -, queue, hacc, htrn⟩
  · rw [if_pos hadm] at hspares
    have hlinks := hspares ops hops
    rw [htrn]
    refine ⟨?_, ?_, ?_, ?_⟩
    · rw [show (commit { attached with queue } (shard.published rendered)
        (logic.observation attached.id) (rendered.overlayOf attached.id)
        (rendered.actionsOf attached.id)).queue = queue from rfl,
        client_batch hacc, hview]
      unfold turnOps AttachedConnection.turnOps at hops
      split_ifs at hops with hmoved
      · obtain rfl := some.inj hops
        exact holds_replan h.holds attached.queue.client_root _ _ hlinks
      · obtain ⟨hheld, hsee⟩ := not_moved hmoved
        rw [hpub] at hops
        split at hops
        · cases hops
        · rename_i replayed hrpl
          obtain rfl := some.inj hops
          obtain ⟨earlier, hearlier, rfl⟩ := replay_published h.cursor hrpl
          have hslice : filter (earlier ++ Plan.plan shard.view rendered.view)
              attached.see = shared attached.see (versionsOf shard.view [rendered.view]) := by
            rw [filter_append, h.owed hheld earlier hearlier]
            simp [filter, shared, versionsOf, Plan.kept]
          have hcomposed : attached.composed shard.view =
              (shard.view.restrict attached.see).compose attached.overlaySent := by
            simp [composed, hheld]
          have hhd := holds_push (Or.inr ⟨rendered.view, rfl⟩) hslice
            (hcomposed ▸ h.holds) attached.queue.client_root (h.apart hheld)
            (Overlay.apart_of_finish hok attached.id _ attached.see) hlinks
          rw [hsee] at hhd
          exact hhd
    · exact hpub.le
    · intro _ replayed hrpl
      have hcursor : shard.published rendered = (shard.publish rendered).journal.head := hpub
      rw [hjournal] at hrpl
      rw [show (commit { attached with queue } (shard.published rendered)
        (logic.observation attached.id) (rendered.overlayOf attached.id)
        (rendered.actionsOf attached.id)).cursor = _ from hcursor, Journal.replay_head] at hrpl
      obtain rfl := Except.ok.inj hrpl
      rfl
    · intro _
      rw [hview]
      exact Overlay.apart_of_finish hok attached.id _ _
  · rw [if_neg (by simp [hadm])] at hspares
    have hclient : queue.client = attached.queue.client :=
      OutboundQueue.Adds.client (.of_eq hacc)
    rw [htrn]
    refine ⟨?_, h.cursor.trans (shard.publish_head_le rendered), ?_, ?_⟩
    · rw [hclient, hview]
      have hhd := h.holds
      cases hheld : attached.held with
      | some held => simpa [composed, hheld] using hhd
      | none =>
        simp only [composed, hheld] at hhd ⊢
        rw [ShardView.shown_unseen (hspares hheld)]
        exact hhd
    · intro hheld replayed hrpl
      obtain ⟨earlier, hearlier, rfl⟩ := replay_published h.cursor hrpl
      rw [filter_append, h.owed hheld earlier hearlier]
      exact hspares hheld
    · intro hheld
      rw [hview]
      exact (h.apart hheld).unseen (hspares hheld)

theorem Keeps.retried (h : shard.Keeps attached) (hsame : shard.Recast shard')
    (hheld : attached.held = none) :
    shard'.Keeps (attached.push shard.journal shard.journal.head attached.overlaySent
      attached.actionsSent).attached := by
  have hview : shard'.view = shard.view := hsame.get view rfl
  have hjournal : shard'.journal = shard.journal := hsame.get journal rfl
  rcases attached.push_cases shard.journal with
    ⟨replayed, hrpl, -, queue, hacc, hpush⟩ | ⟨queue, outcome, hacc, hpush⟩
  · have hnth := h.owed hheld replayed hrpl
    have hcomposed : attached.composed shard.view =
        (shard.view.restrict attached.see).compose attached.overlaySent := by
      simp [composed, hheld]
    have hlinks : ¬attached.queue.client.Unlinks
        (attached.pushOps replayed attached.overlaySent) := by
      rintro ⟨channel, hmem, -⟩
      exact pushOps_creates_nothing hnth channel hmem
    have hslice : filter replayed attached.see =
        shared attached.see (versionsOf shard.view []) := hnth
    rw [hpush]
    refine ⟨?_, hjournal.symm ▸ le_refl _, ?_, ?_⟩
    · rw [show (commit { attached with queue } shard.journal.head attached.see
        attached.overlaySent attached.actionsSent).queue = queue from rfl,
        client_batch hacc, hview]
      exact holds_push (Or.inl rfl) hslice (hcomposed ▸ h.holds)
        attached.queue.client_root (h.apart hheld) (h.apart hheld) hlinks
    · intro _ again hagain
      rw [hjournal] at hagain
      rw [show (commit { attached with queue } shard.journal.head attached.see
        attached.overlaySent attached.actionsSent).cursor = shard.journal.head from rfl,
        Journal.replay_head] at hagain
      obtain rfl := Except.ok.inj hagain
      rfl
    · intro _
      rw [hview]
      exact h.apart hheld
  · rw [hpush]
    exact h.requeue hsame (OutboundQueue.Adds.client (.of_eq hacc))

end Shard

def Runtime.KeepsPace (runtime : Runtime) : Event → Prop
  | .turn id logic => ∀ shard rendered, runtime.shards.get? id = some shard →
      (shard.rendering runtime.ids logic).finish (shard.observations logic) = .ok rendered →
      shard.unchanged logic rendered = false →
      ∀ connection attached, shard.connections.get? connection = some attached →
        shard.Spares logic rendered attached
  | _ => True

theorem ClientModel.new_holds : new.Holds ShardView.empty.shown where
  users _ := rfl
  channels id := by
    by_cases hid : id = rootChannel
    · exact Or.inr ⟨hid, rfl⟩
    · have hne : ¬id = rootDefault.id := hid
      refine Or.inl ?_
      rw [new, Table.get?_insert, if_neg hne]
      rfl

def basedLocally : Locally Runtime.KeepsPace where
  shard := Shard.InStep
  attached _ s a := s.Keeps a
  flying _ flight := flight.queue.client.Holds flight.held.shown
  gone _ := True
  new := Runtime.inStep_new
  becomes := @Runtime.inStep_becomes
  stays {runtime event runtime' s s' a a'} hallowed _ hs ha hstep hkeeps hfate := by
    cases hfate with
    | rest hsame => exact hkeeps.recast hsame
    | touched hsame htouched => exact hkeeps.requeue hsame htouched.client
    | offered _ hsame =>
      rw [AttachedConnection.sendAll_eq]
      exact hkeeps.requeue hsame
        (AttachedConnection.sendAll_client (runtime.offered_isAside event s a))
    | retried _ hsame hheld => exact hkeeps.retried hsame hheld
    | turned hevent hok hchanged hturned =>
      subst hevent hturned
      exact hkeeps.turned hstep hok (hallowed s _ hs hok hchanged a.id a ha) _
  lands {runtime event runtime' s s' flight session a} _ _ _ hstep hholds hsame hlands := by
    have hlanded : s.Keeps (flight.landed session s.version) :=
      ⟨hholds, hstep.le, fun hheld => (by cases hheld), fun hheld => (by cases hheld)⟩
    rw [hlands.row, AttachedConnection.sendAll_eq]
    exact hlanded.requeue hsame
      (AttachedConnection.sendAll_client (runtime.offered_isAside event s _))
  touched {ids ids' flight queue} _ hholds hqueue := by
    rcases hqueue with rfl | htouched
    · exact hholds
    · exact htouched.client.symm ▸ hholds
  connected := ClientModel.new_holds
  departed {runtime logic runtime' s a destination} _ _ _ _ _ hkeeps := by
    have hclient : (a.send (Emit.actions a.actionsSent Table.empty)).queue.client =
        a.queue.client :=
      (OutboundQueue.trySendAll_adds (Emit.actions_isAside _ _) a.queue).client
    exact hclient.symm ▸ hkeeps.holds
  refused _ := trivial
  left _ _ := trivial

/-- In every run whose turns lose no connection, the view a replan starts from
and a departure hands over is the one the client holds. -/
theorem base_held {runtime : Runtime}
    (hreach : Reaches Runtime.step Runtime.KeepsPace Runtime.start runtime) :
    (∀ {id shard connection attached}, runtime.shards.get? id = some shard →
      shard.connections.get? connection = some attached →
      attached.queue.client.Holds (attached.composed shard.view).shown) ∧
    ∀ {connection flight}, runtime.flights.get? connection = some flight →
      flight.queue.client.Holds flight.held.shown :=
  ⟨fun hsh hatt => ((basedLocally.holds hreach).attached hsh hatt).holds,
    fun hfl => (basedLocally.holds hreach).flights hfl⟩

section Lobby

def lobbyLogic (more : List BuildCall) : ShardLogic where
  render := .root "Lobby" :: more
  observation _ := observesRoot

def chatterLogic (count : ℕ) : ShardLogic where
  observe _ := { words := Table.ofList [(1, List.replicate count (.say "hello"))] }

def landedEvents : List Event := [.create, .connect 1, .arrive 1 {}]

def landedRuntime : Runtime :=
  (runActions Runtime.step Runtime.start landedEvents).getD Runtime.start

def landedShard : Shard := (landedRuntime.shards.get? 1).getD (Shard.new 1)

def lobbyRuntime : Runtime :=
  (landedRuntime.step (.turn 1 (lobbyLogic []))).getD Runtime.start

def lobbyShard : Shard := (lobbyRuntime.shards.get? 1).getD (Shard.new 1)

def lobbyReader : AttachedConnection :=
  (lobbyShard.connections.get? 1).getD (Flight.landed ⟨1, 1, 1, .new, 0, .empty, true⟩ 1 0)

def fullEvents : List Event :=
  landedEvents ++ [.turn 1 (lobbyLogic []),
    .command 1 (chatterLogic 1023) (.requestedSelfState 1 none none),
    .turn 1 (lobbyLogic [.channel ⟨rootChannel, Scope.root⟩ 7 "Den" .same])]

def fullRuntime : Runtime := (runActions Runtime.step Runtime.start fullEvents).getD Runtime.start

def fullShard : Shard := (fullRuntime.shards.get? 1).getD (Shard.new 1)

def fullReader : AttachedConnection :=
  (fullShard.connections.get? 1).getD (Flight.landed ⟨1, 1, 1, .new, 0, .empty, true⟩ 1 0)

theorem landedRuntime_reached : Reaches step Runtime.KeepsPace start landedRuntime := by
  refine reaches_of_run (eq_some_getD (by decide +kernel)) (allAllowed_of_forall ?_ _)
  intro runtime event hev
  simp only [landedEvents, List.mem_cons, List.not_mem_nil, or_false] at hev
  rcases hev with rfl | rfl | rfl <;> trivial

theorem ClientModel.not_unlinks
    (h : ∀ old ∈ client.channels.rows, old.links.isEmpty = true) (ops : List PlanOp) :
    ¬client.Unlinks ops := by
  rintro ⟨channel, -, -, old, hold, hlinks⟩
  rw [h old (Table.mem_of_get? hold)] at hlinks
  cases hlinks

theorem keepsPace_turn {runtime : Runtime} {id : ShardId} {logic : ShardLogic} {shard : Shard}
    (hsh : runtime.shards.get? id = some shard)
    (h : ∀ attached ∈ shard.connections.rows,
      shard.admitsTurn logic (Rendered.ofBuilder (shard.rendering runtime.ids logic)) attached =
        true ∧ ∀ old ∈ attached.queue.client.channels.rows, old.links.isEmpty = true) :
    runtime.KeepsPace (.turn id logic) := by
  intro found rendered hfnd hok _ connection attached hatt
  obtain rfl : shard = found := some.inj (hsh.symm.trans hfnd)
  obtain rfl := ShardBuilder.finish_ofBuilder hok
  obtain ⟨hadm, hlinks⟩ := h attached (Table.mem_of_get? hatt)
  unfold Shard.Spares
  rw [if_pos hadm]
  exact fun ops _ => not_unlinks hlinks ops

theorem lobbyRuntime_reached : Reaches step Runtime.KeepsPace start lobbyRuntime :=
  .step landedRuntime_reached
    (keepsPace_turn (eq_some_getD (by decide +kernel) : _ = some landedShard) (by decide +kernel))
    (eq_some_getD (by decide +kernel))

end Lobby

theorem base_held_lobby :
    (lobbyReader.composed lobbyShard.view).channels.contains rootChannel = true ∧
      lobbyReader.queue.client.Holds (lobbyReader.composed lobbyShard.view).shown :=
  ⟨by decide +kernel, (base_held lobbyRuntime_reached).1
    (eq_some_getD (by decide +kernel) : _ = some lobbyShard)
    (eq_some_getD (by decide +kernel) : _ = some lobbyReader)⟩

/-- The queue of a connection that sees the root is full when a channel is added
there: the turn's transition is refused, and from then on the shard takes the
connection to hold a channel it was never told of. -/
theorem refused_turn_moves_base :
    Reaches Runtime.step (fun _ _ => True) Runtime.start fullRuntime ∧
      fullRuntime.shards.get? 1 = some fullShard ∧
      fullShard.connections.get? 1 = some fullReader ∧
      fullReader.held = none ∧
      (fullReader.composed fullShard.view).channels.contains 1 = true ∧
      fullReader.queue.client.channels.contains 1 = false ∧
      ¬fullReader.queue.client.Holds (fullReader.composed fullShard.view).shown := by
  have hcomposed : (fullReader.composed fullShard.view).channels.contains 1 = true := by
    decide +kernel
  have hclient : fullReader.queue.client.channels.contains 1 = false := by decide +kernel
  refine ⟨reaches_of_run (eq_some_getD (by decide +kernel)) (allAllowed_true _ _),
    eq_some_getD (by decide +kernel), eq_some_getD (by decide +kernel), by decide +kernel,
    hcomposed, hclient, fun h => ?_⟩
  rcases h.channels 1 with heq | ⟨hroot, -⟩
  · rw [Table.contains_eq_false_iff.mp hclient] at heq
    have hshn : (fullReader.composed fullShard.view).shown.channels.get? 1 ≠ none := by
      decide +kernel
    exact hshn heq.symm
  · cases hroot

end MumbleRuntime
