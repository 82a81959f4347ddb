import MumbleRuntime.Fate
import MumbleRuntime.Convergence

/-!
# How far a lagging connection has come

Since a connection was last committed, its shard may have gone through any number
of views. The journal owes it the versions between them, as long as it reaches
back that far. Whatever lag a transition catches up with, nothing its target
holds is missing from a client that had everything at the start.
-/

namespace MumbleRuntime
open Library Compose List Write Lag
open AttachedConnection hiding id

def ClientModel.contains (client : ClientModel) : ElementId → Bool
  | .channel id => client.channels.contains id
  | .user session => client.users.contains session

def ShardView.contains (view : ShardView) : ElementId → Bool
  | .channel id => view.channels.contains id
  | .user session => view.users.contains session

def ClientModel.Covers (client : ClientModel) (matters : ElementId → Prop) (view : ShardView) :
    Prop :=
  ∀ e, matters e → view.contains e = true → client.contains e = true

theorem versionsOf_append (first : ShardView) (views : List ShardView) (view : ShardView) :
    versionsOf first (views ++ [view]) =
      versionsOf first views ++ [(views.getLastD first, view)] := by
  induction views generalizing first with
  | nil => rfl
  | cons next rest ih =>
    rw [cons_append, versionsOf, versionsOf, ih, getLastD_cons]
    rfl

namespace Cell

variable {α δ φ : Type} (cell : Cell α δ φ)

theorem composed_isSome (view : ShardView) (see : ScopeSet) (overlay : Overlay) :
    (cell.inView ((view.restrict see).compose overlay)).isSome =
      ((cell.inOverlay overlay).isSome || (cell.inView view).any (cell.seen see)) := by
  rw [cell.inView_compose, cell.inView_restrict]
  cases cell.inOverlay overlay with
  | some a => rfl
  | none => simp [Option.isSome_filter]

theorem push_present (see : ScopeSet) (first : ShardView) (views : List ShardView)
    (sent fresh : Overlay)
    (hxor : (cell.inOverlay sent).isSome = true →
      (cell.inView first).any (cell.seen see) = false) {held : Option δ}
    (hheld : (cell.inView ((first.restrict see).compose sent)).isSome = true →
      held.isSome = true)
    (htgt : (cell.inView (((views.getLastD first).restrict see).compose fresh)).isSome = true) :
    (runAll ((collapse (splice (shared see (versionsOf first views))
      (Plan.planElements sent fresh))).filterMap cell.write) held).isSome = true := by
  rw [cell.composed_isSome, Bool.or_eq_true] at hheld htgt
  rw [cell.collapse_writes]
  exact (cell.spliced see (versionsOf first views) sent fresh).present (cell.keep_of_same see)
    (cell.steps_chain see first views) hxor htgt hheld

theorem replan_present (before after : ShardView) {held : Option δ}
    (hheld : (cell.inView before).isSome = true → held.isSome = true)
    (htgt : (cell.inView after).isSome = true) :
    (runAll ((replanOps before after).filterMap cell.write) held).isSome = true := by
  have hany : ∀ content : Option α, (content.any fun _ => true) = content.isSome := by
    intro content
    cases content <;> rfl
  rw [cell.replan_writes]
  refine (Diff.spliced_step (cell.step (before, after))).present (fun _ _ _ => rfl) ⟨rfl, rfl⟩
    (fun h => by cases h) (Or.inr ?_) ?_
  · exact (hany _).trans htgt
  · rintro (h | h)
    · cases h
    · exact hheld ((hany _).symm.trans h)

theorem seen_of_not_added {see : ScopeSet} {first : ShardView} {views : List ShardView}
    (hadded : cell.element ∉ (shared see (versionsOf first views)).filterMap PlanOp.added)
    (hlast : (cell.inView (views.getLastD first)).any (cell.seen see) = true) :
    (cell.inView first).any (cell.seen see) = true := by
  have hset : ((shared see (versionsOf first views)).filterMap cell.write).any isSet =
      false := by
    rw [← cell.added_contains]
    simpa using hadded
  have hnone : ∀ step ∈ (versionsOf first views).map cell.step,
      Diff.appears cell.same (cell.seen see) step = false := by
    intro step hstep
    rw [← any_isSet_filter, (cell.shared_writes see (versionsOf first views)).1,
      any_flatMap, any_eq_false] at hset
    have harrivals := hset step hstep
    rw [Diff.arrivals_isSet] at harrivals
    simpa using harrivals
  by_contra hfst
  have hhidden := (Diff.chain_hidden (cell.keep_of_same see) (cell.versionsOf_chain first views)
    hnone (by simpa using hfst)).2
  rw [hlast] at hhidden
  cases hhidden

end Cell

variable {client : ClientModel}

namespace ClientModel

variable {matters : ElementId → Prop}

theorem emit_contains {ops : List PlanOp} (self : SessionId)
    (hroot : ∃ root, client.channels.get? rootChannel = some root ∧ root.parent = none) :
    (∀ id, (runAll (ops.filterMap (channelCell id).write) (client.channels.get? id)).isSome = true →
      (client.applyAll (Emit.emit ops self)).contains (.channel id) = true) ∧
    ∀ session, (runAll (ops.filterMap (userCell session).write)
        (client.users.get? session)).isSome = true →
      (client.applyAll (Emit.emit ops self)).contains (.user session) = true := by
  constructor
  · intro id hrun
    rw [contains, Table.contains, applyAll_emit_channels, applyAll_emitOp_channels]
    refine foldl_tellChannel_isSome ?_ (fun h => h) hrun
    rintro rfl
    obtain ⟨root, hget, -⟩ := hroot
    rw [hget]
    rfl
  · intro session hrun
    rw [contains, Table.contains, applyAll_emit_users]
    exact hrun

theorem Covers.push {see : ScopeSet} {first : ShardView}
    {sent : Overlay} (h : client.Covers matters ((first.restrict see).compose sent))
    (hroot : ∃ root, client.channels.get? rootChannel = some root ∧ root.parent = none)
    (views : List ShardView) (fresh : Overlay) (hapart : sent.Apart matters see first)
    (self : SessionId) :
    (client.applyAll (Emit.emit (collapse (splice
      (shared see (versionsOf first views)) (Plan.planElements sent fresh))) self)).Covers
        matters (((views.getLastD first).restrict see).compose fresh) := by
  intro e he htgt
  cases e with
  | channel id =>
    exact (emit_contains self hroot).1 id
      ((channelCell id).push_present see first views sent fresh (hapart.channels id he)
        (h (.channel id) he) htgt)
  | user session =>
    exact (emit_contains self hroot).2 session
      ((userCell session).push_present see first views sent fresh (hapart.users session he)
        (h (.user session) he) htgt)

theorem replan_covers {before after : ShardView}
    (h : ∀ e, matters e → before.contains e = true → after.contains e = true →
      client.contains e = true)
    (hroot : ∃ root, client.channels.get? rootChannel = some root ∧ root.parent = none)
    (self : SessionId) :
    (client.applyAll (Emit.emit (replanOps before after) self)).Covers
      matters after := by
  intro e he htgt
  cases e with
  | channel id =>
    exact (emit_contains self hroot).1 id ((channelCell id).replan_present before after
      (fun hbef => h (.channel id) he hbef htgt) htgt)
  | user session =>
    exact (emit_contains self hroot).2 session ((userCell session).replan_present before after
      (fun hbef => h (.user session) he hbef htgt) htgt)

end ClientModel

namespace Shard

/-- The views a shard went through since the connection was committed to the
first of them, with what the journal owes it. -/
structure Trails (matters : ElementId → Prop) (shard : Shard) (attached : AttachedConnection)
    (first : ShardView) (views : List ShardView) : Prop where
  cursor : attached.cursor ≤ shard.journal.head
  last : views.getLastD first = shard.view
  owed : ∀ replayed, shard.journal.replay attached.cursor shard.journal.head = .ok replayed →
    replayed = (deltasOf (versionsOf first views)).flatten
  apart : attached.overlaySent.Apart matters attached.see first

variable {matters : ElementId → Prop} {shard shard' : Shard} {attached : AttachedConnection}
  {first : ShardView} {views : List ShardView}

variable (h : shard.Trails matters attached first views)

include h in
theorem Trails.requeue (hsame : shard.Recast shard')
    (queue : OutboundQueue) : shard'.Trails matters { attached with queue } first views := by
  have hview : shard'.view = shard.view := hsame.get view rfl
  have hjournal : shard'.journal = shard.journal := hsame.get journal rfl
  refine ⟨hjournal ▸ h.cursor, hview ▸ h.last, ?_, h.apart⟩
  rw [hjournal]
  exact h.owed

include h in
theorem Trails.refuse (rendered : Rendered)
    (logic : ShardLogic) (ids : IdAllocator) (queue : OutboundQueue) :
    (shard.accept ids logic rendered).1.Trails matters { attached with queue } first
      (views ++ [rendered.view]) := by
  refine ⟨h.cursor.trans (shard.publish_head_le rendered), ?_, ?_, h.apart⟩
  · rw [getLastD_concat]
    exact (shard.publish_view rendered).symm
  · intro replayed hrpl
    obtain ⟨earlier, hearlier, rfl⟩ := replay_published h.cursor hrpl
    rw [versionsOf_append, h.last, h.owed earlier hearlier, deltasOf, deltasOf, map_append,
      flatten_append]
    simp

theorem Trails.start {cursor : ℕ} {see : ScopeSet} {overlay : Overlay} {actions : Actions}
    (hcursor : cursor = shard.journal.head) (hapart : overlay.Apart matters see shard.view) :
    shard.Trails matters (attached.commit cursor see overlay actions) shard.view [] := by
  subst hcursor
  refine ⟨le_refl _, rfl, ?_, hapart⟩
  intro replayed hrpl
  have hnone : shard.journal.replay shard.journal.head shard.journal.head = .ok replayed := hrpl
  rw [Journal.replay_head] at hnone
  exact (Except.ok.inj hnone).symm

include h in
theorem Trails.slice {replayed : List PlannedOp}
    (hrpl : shard.journal.replay attached.cursor shard.journal.head = .ok replayed) :
    filter replayed attached.see = shared attached.see (versionsOf first views) := by
  rw [h.owed replayed hrpl, filter_deltas]

/-- The journal still owes the connection this element, or no longer reaches
back to it. -/
def Owes (shard : Shard) (attached : AttachedConnection) (e : ElementId) : Prop :=
  attached.held = none ∧ ∀ replayed,
    shard.journal.replay attached.cursor shard.journal.head = .ok replayed →
      e ∈ (Compose.filter replayed attached.see).filterMap PlanOp.added

theorem not_owes_of_head (h : attached.cursor = shard.journal.head)
    (e : ElementId) : ¬shard.Owes attached e := by
  rintro ⟨-, howed⟩
  have hnone := howed [] (by rw [h]; exact shard.journal.replay_head)
  cases hnone

include h in
theorem Trails.covers (hcovers : client.Covers matters
      ((first.restrict attached.see).compose attached.overlaySent))
    (hheld : attached.held = none) {e : ElementId} (he : matters e)
    (hseen : ((shard.view.restrict attached.see).compose attached.overlaySent).contains e = true)
    (howes : ¬shard.Owes attached e) : client.contains e = true := by
  have hrpl : ∃ replayed,
      shard.journal.replay attached.cursor shard.journal.head = .ok replayed ∧
        e ∉ (filter replayed attached.see).filterMap PlanOp.added := by
    by_contra hnone
    refine howes ⟨hheld, fun replayed hreplayed => ?_⟩
    by_contra hnot
    exact hnone ⟨replayed, hreplayed, hnot⟩
  obtain ⟨replayed, hreplayed, hadded⟩ := hrpl
  rw [h.slice hreplayed] at hadded
  have hcell : ∀ {α δ φ : Type} (cell : Cell α δ φ), cell.element = e →
      (cell.inView ((shard.view.restrict attached.see).compose attached.overlaySent)).isSome =
        true →
      (cell.inView ((first.restrict attached.see).compose attached.overlaySent)).isSome = true := by
    intro α δ φ cell heq hnow
    rw [cell.composed_isSome, Bool.or_eq_true] at hnow ⊢
    refine hnow.imp_right fun hlast => ?_
    rw [← h.last] at hlast
    exact cell.seen_of_not_added (heq ▸ hadded) hlast
  refine hcovers e he ?_
  cases e with
  | channel id => exact hcell (channelCell id) rfl hseen
  | user session => exact hcell (userCell session) rfl hseen

/-- Of the elements that matter, the client has what the shard takes it to have
been committed to. -/
structure Told (matters : ElementId → Prop) (shard : Shard) (attached : AttachedConnection) :
    Prop where
  held : ∀ held, attached.held = some held → attached.queue.client.Covers matters held
  trail : attached.held = none → ∃ first views, shard.Trails matters attached first views ∧
    attached.queue.client.Covers matters
      ((first.restrict attached.see).compose attached.overlaySent)

theorem Told.requeue (h : shard.Told matters attached) (hsame : shard.Recast shard')
    {queue : OutboundQueue} (hque : queue.client = attached.queue.client) :
    shard'.Told matters { attached with queue } := by
  refine ⟨fun held hheld => hque.symm ▸ h.held held hheld, fun hheld => ?_⟩
  obtain ⟨first, views, htrails, hcovers⟩ := h.trail hheld
  exact ⟨first, views, htrails.requeue hsame queue, hque.symm ▸ hcovers⟩

theorem Told.composed (h : shard.Told matters attached) {e : ElementId} (he : matters e)
    (hcomposed : (attached.composed shard.view).contains e = true)
    (howes : ¬shard.Owes attached e) : attached.queue.client.contains e = true := by
  unfold AttachedConnection.composed at hcomposed
  cases hheld : attached.held with
  | some held =>
    rw [hheld] at hcomposed
    exact h.held held hheld e he hcomposed
  | none =>
    rw [hheld] at hcomposed
    obtain ⟨first, views, htrails, hcovers⟩ := h.trail hheld
    exact htrails.covers hcovers hheld he hcomposed howes

include h in
theorem pushOps_eq {replayed : List PlannedOp}
    (hrpl : shard.journal.replay attached.cursor shard.journal.head = .ok replayed)
    (fresh : Overlay) :
    attached.pushOps replayed fresh = collapse (splice
      (shared attached.see (versionsOf first views))
      (Plan.planElements attached.overlaySent fresh)) := by
  rw [pushOps, h.slice hrpl]

theorem Told.retried (h : shard.Told matters attached) (hsame : shard.Recast shard')
    (hheld : attached.held = none)
    (hapart : attached.admitsRetry shard.journal = true →
      attached.overlaySent.Apart matters attached.see shard.view) :
    shard'.Told matters (attached.push shard.journal shard.journal.head attached.overlaySent
      attached.actionsSent).attached := by
  have hview : shard'.view = shard.view := hsame.get view rfl
  have hjournal : shard'.journal = shard.journal := hsame.get journal rfl
  rcases attached.push_cases shard.journal with
    ⟨replayed, hrpl, hadm, queue, hacc, hpush⟩ | ⟨queue, outcome, hacc, hpush⟩
  · obtain ⟨first, views, htrails, hcovers⟩ := h.trail hheld
    have hpushed := hcovers.push attached.queue.client_root views attached.overlaySent
      htrails.apart attached.session
    rw [← pushOps_eq htrails hrpl, htrails.last, ← client_batch hacc, ← hview] at hpushed
    rw [hpush]
    refine ⟨fun held hnone => (by cases hnone), fun _ => ⟨shard'.view, [], ?_, hpushed⟩⟩
    exact Trails.start (hjournal ▸ rfl) (hview ▸ hapart hadm)
  · rw [hpush]
    exact h.requeue hsame (OutboundQueue.Adds.client (.of_eq hacc))

/-- The turn plans this connection from a base it has been told of: no element
that matters and stays is still owed to it. -/
def PlansFromTold (matters : ElementId → Prop) (shard : Shard) (logic : ShardLogic)
    (rendered : Rendered) (attached : AttachedConnection) : Prop :=
  attached.moved (logic.observation attached.id) = true →
  shard.admitsTurn logic rendered attached = true → ∀ e, matters e →
    (attached.composed shard.view).contains e = true →
    ((rendered.view.restrict (logic.observation attached.id)).compose
      (rendered.overlayOf attached.id)).contains e = true →
    ¬shard.Owes attached e

theorem Told.turned (h : shard.Told matters attached) (hstep : shard.InStep)
    {builder : ShardBuilder} {observations : Observations} {rendered : Rendered}
    (hok : builder.finish observations = .ok rendered) {logic : ShardLogic}
    (hplans : PlansFromTold matters shard logic rendered attached) (ids : IdAllocator) :
    (shard.accept ids logic rendered).1.Told matters (shard.turned logic rendered attached) := by
  have hview : (shard.accept ids logic rendered).1.view = rendered.view :=
    shard.publish_view rendered
  rcases shard.turned_cases logic rendered attached with
    ⟨ops, hops, hadm, -, queue, hacc, htrn⟩ | ⟨hadm, -, queue, hacc, htrn⟩
  · have hcovers : queue.client.Covers matters
        ((rendered.view.restrict (logic.observation attached.id)).compose
          (rendered.overlayOf attached.id)) := by
      rw [client_batch hacc]
      unfold turnOps AttachedConnection.turnOps at hops
      split_ifs at hops with hmoved
      · obtain rfl := Option.some.inj hops
        refine ClientModel.replan_covers ?_ attached.queue.client_root attached.session
        intro e he hbase htgt
        exact h.composed he hbase (hplans hmoved hadm e he hbase htgt)
      · obtain ⟨hheld, hsee⟩ := not_moved hmoved
        rw [published_eq_head hstep rendered] at hops
        split at hops
        · cases hops
        · rename_i replayed hrpl
          obtain rfl := Option.some.inj hops
          obtain ⟨first, views, htrails, hcovers⟩ := h.trail hheld
          have hlonger := htrails.refuse rendered logic ids attached.queue
          have hpushed := hcovers.push attached.queue.client_root (views ++ [rendered.view])
            (rendered.overlayOf attached.id) htrails.apart attached.session
          rw [← pushOps_eq hlonger hrpl, getLastD_concat] at hpushed
          rw [← hsee]
          exact hpushed
    rw [htrn]
    refine ⟨fun held hnone => (by cases hnone), fun _ => ⟨rendered.view, [], ?_, hcovers⟩⟩
    rw [← hview]
    refine Trails.start (published_eq_head hstep rendered) ?_
    rw [hview]
    exact Overlay.apart_of_finish hok attached.id matters _
  · have hclient : queue.client = attached.queue.client :=
      OutboundQueue.Adds.client (.of_eq hacc)
    rw [htrn]
    refine ⟨fun held hheld => hclient.symm ▸ h.held held hheld, fun hheld => ?_⟩
    obtain ⟨first, views, htrails, hcovers⟩ := h.trail hheld
    exact ⟨first, views ++ [rendered.view], htrails.refuse rendered logic ids queue,
      hclient.symm ▸ hcovers⟩

end Shard

/-- A turn plans from what was told, a connection departs with what it was told,
and a drained queue is retried while the overlay last sent still fits the view. -/
def Runtime.Settles (matters : ElementId → Prop) (runtime : Runtime) : Event → Prop
  | .turn id logic => ∀ shard rendered, runtime.shards.get? id = some shard →
      (shard.rendering runtime.ids logic).finish (shard.observations logic) = .ok rendered →
      shard.unchanged logic rendered = false →
      ∀ connection attached, shard.connections.get? connection = some attached →
        shard.PlansFromTold matters logic rendered attached
  | .depart id _ connection _ => ∀ shard attached, runtime.shards.get? id = some shard →
      shard.connections.get? connection = some attached →
      ∀ e, matters e → (attached.composed shard.view).contains e = true → ¬shard.Owes attached e
  | .command id _ (.drained connection) => ∀ shard attached, runtime.shards.get? id = some shard →
      shard.connections.get? connection = some attached → attached.held = none →
      attached.admitsRetry shard.journal = true →
      attached.overlaySent.Apart matters attached.see shard.view
  | _ => True

theorem Runtime.settles_first {matters : ElementId → Prop} {runtime : Runtime} {id : ShardId}
    {logic : ShardLogic} {shard : Shard} (hsh : runtime.shards.get? id = some shard)
    (h : ∀ attached ∈ shard.connections.rows, attached.composed shard.view = ShardView.empty) :
    runtime.Settles matters (.turn id logic) := by
  intro found rendered hfnd _ _ connection attached hatt _ _ e _ hctn
  obtain rfl : shard = found := Option.some.inj (hsh.symm.trans hfnd)
  rw [h attached (Table.mem_of_get? hatt)] at hctn
  cases e <;> cases hctn

def toldLocally (matters : ElementId → Prop) {allowed : Runtime → Event → Prop}
    (h : ∀ runtime event, allowed runtime event → runtime.Settles matters event) :
    Locally allowed where
  shard := Shard.InStep
  attached _ s a := s.Told matters a
  flying _ flight := flight.queue.client.Covers matters flight.held
  gone _ := True
  new := Runtime.inStep_new
  becomes := @Runtime.inStep_becomes
  stays {runtime event runtime' s s' a a'} hallowed _ hs ha hstep htold hfate := by
    have hsettles := h runtime event hallowed
    cases hfate with
    | rest hsame => exact htold.requeue hsame rfl
    | touched hsame htouched => exact htold.requeue hsame htouched.client
    | offered _ hsame =>
      rw [AttachedConnection.sendAll_eq]
      exact htold.requeue hsame
        (AttachedConnection.sendAll_client (runtime.offered_isAside event s a))
    | retried hevent hsame hheld =>
      subst hevent
      exact htold.retried hsame hheld (hsettles s a hs ha hheld)
    | turned hevent hok hchanged hturned =>
      subst hevent hturned
      exact htold.turned hstep hok (hsettles s _ hs hok hchanged a.id a ha) _
  lands {runtime event runtime' s s' flight session a} _ _ _ _ hcovers hsame hlands := by
    have hlanded : s.Told matters (flight.landed session s.version) := by
      refine ⟨fun held hheld => ?_, fun hheld => (by cases hheld)⟩
      obtain rfl := Option.some.inj hheld
      exact hcovers
    rw [hlands.row, AttachedConnection.sendAll_eq]
    exact hlanded.requeue hsame
      (AttachedConnection.sendAll_client (runtime.offered_isAside event s _))
  touched {ids ids' flight queue} _ hcovers hqueue := by
    rcases hqueue with rfl | htouched
    · exact hcovers
    · exact htouched.client.symm ▸ hcovers
  connected := by
    intro ids connection session destination e he hcontains
    cases e <;> cases hcontains
  departed {runtime logic runtime' s a destination} hallowed _ hs ha _ htold := by
    have hclient : (a.send (Emit.actions a.actionsSent Table.empty)).queue.client =
        a.queue.client :=
      (OutboundQueue.trySendAll_adds (Emit.actions_isAside _ _) a.queue).client
    intro e he hcontains
    rw [hclient]
    exact htold.composed he hcontains (h runtime _ hallowed s a hs ha e he hcontains)
  refused _ := trivial
  left _ _ := trivial

end MumbleRuntime
