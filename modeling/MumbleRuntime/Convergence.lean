import MumbleRuntime.Splice
import MumbleRuntime.Turn

/-!
# Where a transition takes the view a connection holds

A replan always lands on its target. A fast-path transition over several
versions lands on its target exactly when two things hold of the versions it
missed: nothing appeared that is gone at the end, and nothing shared was written
to an element that ends private with a value it does not end with. One version
can violate neither.
-/

namespace MumbleRuntime
open Library AttachedConnection Compose Lag Plan Diff Overlay Write
open Option

def versionsOf (first : ShardView) : List ShardView → List Version
  | [] => []
  | view :: rest => (first, view) :: versionsOf view rest

def deltasOf (versions : List Version) : List (List PlannedOp) :=
  versions.map fun version => Plan.plan version.1 version.2

namespace Lag

theorem filter_deltas (see : ScopeSet) (versions : List Version) :
    filter (deltasOf versions).flatten see = shared see versions := by
  induction versions with
  | nil => rfl
  | cons version rest ih =>
    rw [deltasOf, List.map_cons, List.flatten_cons, filter_append]
    rw [deltasOf] at ih
    rw [ih]
    rfl

/-- Nothing that ends absent appears on the way, and the shared history leaves
what ends private intact. -/
def Undisturbed (see : ScopeSet) (versions : List Version) (sent fresh : Overlay)
    (last : ShardView) : Prop :=
  (∀ id,
    Diff.NoGhost Plan.sameChannelScope (fun channel => see.sees channel.scope)
      (versions.map (channelCell id).step) (last.channels.get? id)
      (sent.channels.get? id, fresh.channels.get? id) ∧
    Plan.channelDiff.PrivateIntact Plan.sameChannelScope (fun channel => see.sees channel.scope)
      ((front see versions).map (channelCell id).step)
      ((back see versions).map (channelCell id).step)
      (sent.channels.get? id, fresh.channels.get? id)) ∧
  ∀ session,
    Diff.NoGhost Plan.sameUserScope (fun user => see.sees user.scope)
      (versions.map (userCell session).step) (last.users.get? session)
      (sent.users.get? session, fresh.users.get? session) ∧
    Plan.userDiff.PrivateIntact Plan.sameUserScope (fun user => see.sees user.scope)
      ((front see versions).map (userCell session).step)
      ((back see versions).map (userCell session).step)
      (sent.users.get? session, fresh.users.get? session)

end Lag

variable {builder : ShardBuilder}

namespace Overlay

/-- Of what the overlay holds and matters, the connection sees nothing shared. -/
structure Apart (overlay : Overlay) (matters : ElementId → Prop) (see : ScopeSet)
    (view : ShardView) : Prop where
  channels : ∀ id, matters (.channel id) → (overlay.channels.get? id).isSome = true →
    (view.channels.get? id).any (fun channel => see.sees channel.scope) = false
  users : ∀ session, matters (.user session) → (overlay.users.get? session).isSome = true →
    (view.users.get? session).any (fun user => see.sees user.scope) = false

theorem apart_of_finish {observations : Observations}
    {rendered : Rendered} (h : builder.finish observations = .ok rendered)
    (connection : ConnectionId) (matters : ElementId → Prop) (see : ScopeSet) :
    (rendered.overlayOf connection).Apart matters see rendered.view := by
  obtain ⟨hchs, husr⟩ := Rendered.shared_xor_private h connection
  constructor
  · intro id _ hsome
    obtain ⟨channel, hch⟩ := isSome_iff_exists.mp hsome
    simp [hchs id channel hch]
  · intro session _ hsome
    obtain ⟨user, huser⟩ := isSome_iff_exists.mp hsome
    simp [husr session user huser]

end Overlay

variable {views : List ShardView}

namespace Cell

variable {α δ φ : Type} (cell : Cell α δ φ)

theorem keep_of_same (see : ScopeSet) :
    ∀ old new, cell.same old new = true →
      see.sees (cell.scope old) = see.sees (cell.scope new) :=
  fun old new h => by rw [cell.same_scope old new h]

theorem versionsOf_chain (first : ShardView) (views : List ShardView) :
    Diff.Chain (cell.inView first) ((versionsOf first views).map cell.step)
      (cell.inView (views.getLastD first)) := by
  induction views generalizing first with
  | nil => rfl
  | cons view rest ih =>
    refine ⟨rfl, ?_⟩
    rw [List.getLastD_cons]
    exact ih view

theorem steps_chain (see : ScopeSet) (first : ShardView) (views : List ShardView) :
    Diff.Chain (cell.inView first)
      ((front see (versionsOf first views)).map cell.step ++
        (back see (versionsOf first views)).map cell.step)
      (cell.inView (views.getLastD first)) := by
  rw [← List.map_append, front_append_back]
  exact cell.versionsOf_chain first views

theorem inClient_composed (view : ShardView) (see : ScopeSet) (overlay : Overlay) :
    cell.inClient ((view.restrict see).compose overlay).shown =
      ((cell.inOverlay overlay).or
        ((cell.inView view).filter (cell.seen see))).map cell.diff.shown := by
  rw [cell.inClient_shown, cell.inView_compose, cell.inView_restrict]

theorem push_iff (see : ScopeSet) (first : ShardView) (views : List ShardView)
    (sent fresh : Overlay)
    (hxor : (cell.inOverlay sent).isSome = true →
      (cell.inView first).any (cell.seen see) = false) :
    cell.inClient (((first.restrict see).compose sent).shown.applyOps
        (collapse (splice (shared see (versionsOf first views)) (planElements sent fresh)))) =
      cell.inClient (((views.getLastD first).restrict see).compose fresh).shown ↔
    Diff.NoGhost cell.same (cell.seen see)
        ((versionsOf first views).map cell.step) (cell.inView (views.getLastD first))
        (cell.inOverlay sent, cell.inOverlay fresh) ∧
      cell.diff.PrivateIntact cell.same (cell.seen see)
        ((front see (versionsOf first views)).map cell.step)
        ((back see (versionsOf first views)).map cell.step)
        (cell.inOverlay sent, cell.inOverlay fresh) := by
  have hsteps : (front see (versionsOf first views)).map cell.step ++
      (back see (versionsOf first views)).map cell.step =
      (versionsOf first views).map cell.step := by
    rw [← List.map_append, front_append_back]
  have hhd : ∀ step ∈ (versionsOf first views).map cell.step, stepHolds cell.holds step := by
    intro step hstep
    obtain ⟨version, -, rfl⟩ := List.mem_map.mp hstep
    exact cell.step_holds version
  rw [← hsteps] at hhd
  have hiff := (cell.spliced see (versionsOf first views) sent fresh).run_iff cell.lawful
    (cell.keep_of_same see) (cell.steps_chain see first views) hhd
    ⟨cell.inOverlay_holds sent, cell.inOverlay_holds fresh⟩ hxor
  rw [hsteps] at hiff
  rw [cell.inClient_applyOps, cell.collapse_writes, cell.inClient_composed, cell.inClient_composed]
  exact hiff

theorem steps_of_one (see : ScopeSet) (first : ShardView)
    (hone : views = [] ∨ ∃ view, views = [view]) :
    (front see (versionsOf first views)).map cell.step ++
        (back see (versionsOf first views)).map cell.step = [] ∨
      ∃ step, (front see (versionsOf first views)).map cell.step ++
        (back see (versionsOf first views)).map cell.step = [step] := by
  rw [← List.map_append, front_append_back]
  rcases hone with rfl | ⟨view, rfl⟩
  · exact Or.inl rfl
  · exact Or.inr ⟨cell.step (first, view), rfl⟩

theorem undisturbed_of_one (see : ScopeSet) (first : ShardView)
    (hone : views = [] ∨ ∃ view, views = [view]) (sent fresh : Overlay)
    (hxor : (cell.inOverlay fresh).isSome = true →
      (cell.inView (views.getLastD first)).any (cell.seen see) = false) :
    Diff.NoGhost cell.same (cell.seen see)
        ((versionsOf first views).map cell.step) (cell.inView (views.getLastD first))
        (cell.inOverlay sent, cell.inOverlay fresh) ∧
      cell.diff.PrivateIntact cell.same (cell.seen see)
        ((front see (versionsOf first views)).map cell.step)
        ((back see (versionsOf first views)).map cell.step)
        (cell.inOverlay sent, cell.inOverlay fresh) := by
  have hsteps := cell.steps_of_one see first hone
  have hchn := cell.steps_chain see first views
  constructor
  · rw [← front_append_back see (versionsOf first views), List.map_append]
    exact noGhost_of_one hsteps hchn
  · apply privateIntact_of_hidden
    intro hfr step hstep
    rcases hsteps with hnil | ⟨only, honly⟩
    · rw [hnil] at hstep
      cases hstep
    · rw [honly] at hstep hchn
      obtain rfl := List.mem_singleton.mp hstep
      rw [hchn.2]
      exact hxor hfr

theorem push_one (see : ScopeSet) (first : ShardView)
    (hone : views = [] ∨ ∃ view, views = [view]) (sent fresh : Overlay)
    (hxor : (cell.inOverlay sent).isSome = true →
      (cell.inView first).any (cell.seen see) = false)
    (hxor' : (cell.inOverlay fresh).isSome = true →
      (cell.inView (views.getLastD first)).any (cell.seen see) = false) :
    cell.inClient (((first.restrict see).compose sent).shown.applyOps
        (collapse (splice (shared see (versionsOf first views)) (planElements sent fresh)))) =
      cell.inClient (((views.getLastD first).restrict see).compose fresh).shown ∧
    Write.Simple (cell.inClient ((first.restrict see).compose sent).shown)
      ((collapse (splice (shared see (versionsOf first views))
        (planElements sent fresh))).filterMap cell.write) := by
  refine ⟨(cell.push_iff see first views sent fresh hxor).mpr
    (cell.undisturbed_of_one see first hone sent fresh hxor'), ?_⟩
  rw [cell.collapse_writes, cell.inClient_composed]
  exact (cell.spliced see (versionsOf first views) sent fresh).simple (cell.keep_of_same see)
    (cell.steps_of_one see first hone) (cell.steps_chain see first views) hxor hxor'

theorem filter_true (content : Option α) : (content.filter fun _ => true) = content := by
  cases content <;> rfl

theorem replan_writes (before after : ShardView) :
    (replanOps before after).filterMap cell.write =
      settle (cell.diff.arrivals cell.same (fun _ => true) (cell.step (before, after)) ++
        cell.diff.departures cell.same (fun _ => true) (cell.step (before, after))) := by
  have hkept : (plan before after).map PlannedOp.op = kept (fun _ => true) (plan before after) := by
    simp [kept]
  rw [replanOps, cell.collapse_writes, hkept, cell.plan_writes]

theorem replan_cell (before after : ShardView) :
    cell.inClient (before.shown.applyOps (replanOps before after)) = cell.inClient after.shown := by
  have hstep : runAll (settle
      (cell.diff.arrivals cell.same (fun _ => true) (cell.step (before, after)) ++
        cell.diff.departures cell.same (fun _ => true) (cell.step (before, after))))
      (((cell.inView before).filter fun _ => true).map cell.diff.shown) =
      ((cell.inView after).filter fun _ => true).map cell.diff.shown :=
    settle_step cell.lawful (fun _ _ _ => rfl) (cell.step_holds (before, after))
  rw [filter_true, filter_true] at hstep
  rw [cell.inClient_applyOps, cell.replan_writes, cell.inClient_shown, cell.inClient_shown]
  exact hstep

theorem replan_simple (before after : ShardView) :
    Write.Simple (cell.inClient before.shown) ((replanOps before after).filterMap cell.write) := by
  have hsimple : Write.Simple (((cell.inView before).filter fun _ => true).map cell.diff.shown)
      (settle (cell.diff.arrivals cell.same (fun _ => true) (cell.step (before, after)) ++
        cell.diff.departures cell.same (fun _ => true) (cell.step (before, after)))) :=
    settle_step_simple (fun _ _ _ => rfl) (cell.step (before, after))
  rw [filter_true] at hsimple
  rw [cell.replan_writes, cell.inClient_shown]
  exact hsimple

theorem unseen {see : ScopeSet} {before after : ShardView}
    (h : filter (plan before after) see = []) :
    ((cell.inView after).filter (cell.seen see)).map cell.diff.shown =
      ((cell.inView before).filter (cell.seen see)).map cell.diff.shown := by
  have hwrites := cell.plan_writes see.sees before after
  rw [show kept see.sees (plan before after) = [] from h] at hwrites
  have hstep := settle_step cell.lawful (cell.keep_of_same see) (cell.step_holds (before, after))
  rw [← hwrites] at hstep
  exact hstep.symm

end Cell

theorem replan_converges (before after : ShardView) :
    before.shown.applyOps (replanOps before after) = after.shown :=
  clientModel_eq_iff.mpr ⟨fun id => (channelCell id).replan_cell before after,
    fun session => (userCell session).replan_cell before after⟩

theorem push_converges_iff (see : ScopeSet) (first : ShardView) (views : List ShardView)
    (sent fresh : Overlay)
    (hchs : ∀ id channel, sent.channels.get? id = some channel →
      first.channels.get? id = none)
    (husr : ∀ session user, sent.users.get? session = some user →
      first.users.get? session = none) :
    ((first.restrict see).compose sent).shown.applyOps
        (collapse (splice (filter (deltasOf (versionsOf first views)).flatten see)
          (planElements sent fresh))) =
      (((views.getLastD first).restrict see).compose fresh).shown ↔
    Lag.Undisturbed see (versionsOf first views) sent fresh (views.getLastD first) := by
  have hxorChannel : ∀ id, (sent.channels.get? id).isSome = true → first.channels.get? id = none := by
    intro id h
    obtain ⟨channel, hch⟩ := isSome_iff_exists.mp h
    exact hchs id channel hch
  have hxorUser : ∀ session, (sent.users.get? session).isSome = true →
      first.users.get? session = none := by
    intro session h
    obtain ⟨user, huser⟩ := isSome_iff_exists.mp h
    exact husr session user huser
  rw [filter_deltas, clientModel_eq_iff]
  exact and_congr
    (forall_congr' fun id =>
      (channelCell id).push_iff see first views sent fresh fun h =>
        congrArg (Option.any _) (hxorChannel id h))
    (forall_congr' fun session =>
      (userCell session).push_iff see first views sent fresh fun h =>
        congrArg (Option.any _) (hxorUser session h))

theorem Lag.undisturbed_singleton (see : ScopeSet) (before after : ShardView) (sent fresh : Overlay)
    (hchs : ∀ id channel, fresh.channels.get? id = some channel →
      after.channels.get? id = none)
    (husr : ∀ session user, fresh.users.get? session = some user →
      after.users.get? session = none) :
    Undisturbed see (versionsOf before [after]) sent fresh after := by
  have hone : [after] = [] ∨ ∃ view, [after] = [view] := Or.inr ⟨after, rfl⟩
  refine ⟨fun id => (channelCell id).undisturbed_of_one see before hone sent fresh ?_,
    fun session => (userCell session).undisturbed_of_one see before hone sent fresh ?_⟩
  · intro h
    obtain ⟨channel, hch⟩ := isSome_iff_exists.mp h
    exact congrArg (Option.any _) (hchs id channel hch)
  · intro h
    obtain ⟨user, huser⟩ := isSome_iff_exists.mp h
    exact congrArg (Option.any _) (husr session user huser)

/-- One version converges on the fast path, and any held view converges on the
slow one. -/
theorem one_version_converges {connection : ConnectionId} {see : ScopeSet}
    {before after : ShardView} {sent fresh : Overlay}
    (hbefore : AcceptedFor connection see before sent)
    (hafter : AcceptedFor connection see after fresh) :
    ((before.restrict see).compose sent).shown.applyOps
        (Compose.collapse (Compose.splice (Compose.filter (Plan.plan before after) see)
          (Plan.planElements sent fresh))) = ((after.restrict see).compose fresh).shown ∧
      ∀ (held : ShardView) (newSee : ScopeSet),
        held.shown.applyOps (Compose.collapse
            ((Plan.plan held ((after.restrict newSee).compose fresh)).map PlannedOp.op)) =
          ((after.restrict newSee).compose fresh).shown := by
  obtain ⟨hchs, husr⟩ := hbefore.shared_xor_private
  obtain ⟨hchs', husr'⟩ := hafter.shared_xor_private
  refine ⟨?_, fun held newSee => replan_converges held _⟩
  have hiff := push_converges_iff see before [after] sent fresh hchs husr
  have hrun := hiff.mpr (undisturbed_singleton see before after sent fresh hchs' husr')
  simpa [deltasOf, versionsOf] using hrun

section Passing

def passingBefore : ShardBuilder := (ShardBuilder.new IdAllocator.new 0).render [.root "Lobby"]

def passingDuring : ShardBuilder :=
  (ShardBuilder.new passingBefore.ids 0).render
    [.root "Lobby", .channel ⟨rootChannel, Scope.root⟩ 7 "Den" .same]

def passingAfter : ShardBuilder := (ShardBuilder.new passingDuring.ids 0).render [.root "Lobby"]

def observesRoot : ScopeSet := ⟨Table.ofList [Scope.root], by decide⟩

theorem accepted_of_toOption {see : ScopeSet} {rendered : Rendered}
    (h : (builder.finish fun _ => some see).toOption = some rendered) (connection : ConnectionId) :
    AcceptedFor connection see rendered.view (rendered.overlayOf connection) := by
  refine ⟨builder, fun _ => some see, rendered, ?_, rfl, rfl, rfl⟩
  cases hfinish : builder.finish fun _ => some see with
  | error e => simp [hfinish, Except.toOption] at h
  | ok r => simpa [hfinish, Except.toOption] using h

theorem accepted_of_view
    (h : (builder.finish fun _ => some observesRoot).toOption =
      some ⟨builder.view, Table.empty, Table.empty, AudioRelation.empty⟩) :
    AcceptedFor 1 observesRoot builder.view empty :=
  accepted_of_toOption h 1

theorem passingBefore_accepted : AcceptedFor 1 observesRoot passingBefore.view empty :=
  accepted_of_view (by decide +kernel)

theorem passingDuring_accepted : AcceptedFor 1 observesRoot passingDuring.view empty :=
  accepted_of_view (by decide +kernel)

theorem passingAfter_accepted : AcceptedFor 1 observesRoot passingAfter.view empty :=
  accepted_of_view (by decide +kernel)

def passingReader : AttachedConnection where
  id := 1
  session := 1
  cursor := 0
  see := observesRoot
  overlaySent := Overlay.empty
  actionsSent := Table.empty
  held := none
  ready := false
  queue := OutboundQueue.withCapacity 4
  sharedCursor := 0

end Passing

theorem one_version_converges_passing :
    ((passingBefore.view.restrict observesRoot).compose Overlay.empty).shown.applyOps
        (Compose.collapse (Compose.splice
          (Compose.filter (Plan.plan passingBefore.view passingDuring.view) observesRoot)
          (Plan.planElements Overlay.empty Overlay.empty))) =
      ((passingDuring.view.restrict observesRoot).compose Overlay.empty).shown :=
  (one_version_converges passingBefore_accepted passingDuring_accepted).1

/-- A connection that missed any number of versions ends with the view it would
have received one by one exactly when nothing that is gone at the end appeared on
the way and nothing shared overwrote what ends private. -/
theorem lag_equivalence_iff (attached : AttachedConnection) {start : Journal} {first : ShardView}
    {views : List ShardView} {fresh : Overlay} (hheld : attached.held = none)
    (hcursor : attached.cursor = start.head)
    (haccepted : AcceptedFor attached.id attached.see first attached.overlaySent)
    (hlength : views.length ≤ journalDepth) :
    ∃ replayed,
      (start.pushAll (deltasOf (versionsOf first views))).replay attached.cursor
        (start.pushAll (deltasOf (versionsOf first views))).head = .ok replayed ∧
      ((attached.composed first).shown.applyOps (attached.pushOps replayed fresh) =
          (((views.getLastD first).restrict attached.see).compose fresh).shown ↔
        Lag.Undisturbed attached.see (versionsOf first views) attached.overlaySent fresh
          (views.getLastD first)) := by
  have hversions : ∀ first, (versionsOf first views).length = views.length := by
    clear haccepted hlength
    induction views with
    | nil => exact fun _ => rfl
    | cons view rest ih => exact fun _ => congrArg (· + 1) (ih view)
  have hcnt : (deltasOf (versionsOf first views)).length ≤ journalDepth := by
    rw [deltasOf, List.length_map, hversions]
    exact hlength
  obtain ⟨hchs, husr⟩ := haccepted.shared_xor_private
  refine ⟨_, hcursor ▸ start.replay_pushAll hcnt, ?_⟩
  have hcomposed : attached.composed first =
      (first.restrict attached.see).compose attached.overlaySent := by
    simp [composed, hheld]
  rw [hcomposed]
  exact push_converges_iff attached.see first views attached.overlaySent fresh hchs husr

theorem lag_equivalence_iff_passing :
    ∃ replayed,
      (Journal.new.pushAll (deltasOf (versionsOf passingBefore.view [passingDuring.view]))).replay
        passingReader.cursor (Journal.new.pushAll
          (deltasOf (versionsOf passingBefore.view [passingDuring.view]))).head = .ok replayed ∧
      ((passingReader.composed passingBefore.view).shown.applyOps
          (passingReader.pushOps replayed Overlay.empty) =
          ((passingDuring.view.restrict observesRoot).compose Overlay.empty).shown ↔
        Lag.Undisturbed observesRoot (versionsOf passingBefore.view [passingDuring.view])
          Overlay.empty Overlay.empty passingDuring.view) :=
  lag_equivalence_iff passingReader rfl rfl passingBefore_accepted (by decide)

/-- A connection that misses the appearance and the withdrawal of a channel keeps
the channel: the withdrawal is dropped because the channel is also added. -/
theorem lag_keeps_passing_channel :
    AcceptedFor 1 observesRoot passingBefore.view Overlay.empty ∧
      AcceptedFor 1 observesRoot passingDuring.view Overlay.empty ∧
      AcceptedFor 1 observesRoot passingAfter.view Overlay.empty ∧
      ∃ replayed,
        (Journal.new.pushAll (deltasOf
          (versionsOf passingBefore.view [passingDuring.view, passingAfter.view]))).replay
            passingReader.cursor 2 = .ok replayed ∧
        (passingReader.composed passingBefore.view).shown.applyOps
            (passingReader.pushOps replayed Overlay.empty) ≠
          ((passingAfter.view.restrict observesRoot).compose Overlay.empty).shown := by
  refine ⟨passingBefore_accepted, passingDuring_accepted, passingAfter_accepted, _,
    Journal.new.replay_pushAll (by decide), ?_⟩
  decide +kernel

end MumbleRuntime
