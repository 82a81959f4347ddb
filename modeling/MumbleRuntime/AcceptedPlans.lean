import MumbleRuntime.Prefixes

/-!
# Plans between accepted views

An accepted view has no circle of parents, and it is a tree unless something
shared hangs from a private handle. A client that sees everything is then led
through trees only, except when a channel is put below itself on the way. What an
observer of part of the scopes is led through needs more than that: the plan is
ordered against the whole previous view.
-/

namespace MumbleRuntime
open Library ShardBuilder Table Plan

namespace ShardView

/-- The shared view of a render that `finish` accepted. -/
def Accepted (view : ShardView) : Prop :=
  ∃ (ids : IdAllocator) (shard : ShardId) (calls : List BuildCall) (observations : Observations)
    (rendered : Rendered),
    HandlesIssued (fun builder call => (builder.call call).1) (ShardBuilder.new ids shard) [] calls ∧
      ((ShardBuilder.new ids shard).render calls).finish observations = .ok rendered ∧
      rendered.view = view

structure SelfContained (view : ShardView) : Prop where
  user : ∀ session user, view.users.get? session = some user →
    view.channels.contains user.channel = true
  parent : ∀ id channel, view.channels.get? id = some channel →
    view.channels.contains channel.parent = true

structure Hung (view : ShardView) (apart : ChannelId → Prop) : Prop where
  missing : ∀ id, apart id → view.channels.get? id = none
  root : view.RootFirst
  parent : ∀ id channel, view.channels.get? id = some channel →
    Hangs view channel.scope channel.parent ∨ apart channel.parent
  anchored : ∀ id channel, view.channels.get? id = some channel → Anchored view apart id
  user : ∀ session user, view.users.get? session = some user →
    Hangs view user.scope user.channel ∨ apart user.channel

theorem Accepted.hung {view : ShardView} (h : view.Accepted) : ∃ apart, view.Hung apart := by
  obtain ⟨ids, shard, calls, observations, rendered, hiss, hok, rfl⟩ := h
  obtain ⟨⟨issued, hgrd⟩, happart⟩ := grounded_of_finish hiss hok
  rw [finish_ofBuilder hok]
  exact ⟨_, happart, fun channel hget => (hgrd.root channel hget).1, hgrd.parent,
    hgrd.anchored, hgrd.user⟩

namespace Hung

variable {view : ShardView} {apart : ChannelId → Prop} (h : view.Hung apart)

include h

theorem ends {id : ChannelId} (hanchored : Anchored view apart id) :
    ∃ n, walk view.above n id = none := by
  induction hanchored with
  | root _ => exact ⟨1, by simp [walk, above]⟩
  | @apart id hapart =>
    refine ⟨1, ?_⟩
    simp [walk, above, parentOf, h.missing id hapart]
  | @step id channel hget _ ih =>
    by_cases hroot : id = rootChannel
    · exact ⟨1, by simp [walk, above, hroot]⟩
    · obtain ⟨n, hn⟩ := ih
      refine ⟨n + 1, ?_⟩
      simpa [walk, above, hroot, parentOf, hget] using hn

theorem acyclic : Acyclic view.above := by
  intro id n hn hcircle
  have hstep : ∃ p, view.above id = some p := by
    obtain ⟨m, rfl⟩ := Nat.exists_eq_succ_of_ne_zero hn.ne'
    obtain ⟨p, hp, -⟩ := Option.bind_eq_some_iff.mp hcircle
    exact ⟨p, hp⟩
  obtain ⟨p, hp⟩ := hstep
  obtain ⟨-, channel, hget, -⟩ := above_eq_some_iff.mp hp
  obtain ⟨m, hm⟩ := h.ends (h.anchored id channel hget)
  have hround := walk_circle hcircle m
  rw [walk_none_of_le hm (Nat.le_mul_of_pos_left m hn)] at hround
  cases hround

theorem valid_iff : view.shown.Valid ↔ view.SelfContained := by
  rw [valid_shown_iff]
  constructor
  · rintro ⟨husr, hparents, -⟩
    refine ⟨husr, fun id channel hget => ?_⟩
    by_cases hroot : id = rootChannel
    · subst hroot
      rw [h.root channel hget]
      exact contains_iff.mpr ⟨channel, hget⟩
    · exact hparents id channel.parent (above_eq_some_iff.mpr ⟨hroot, channel, hget, rfl⟩)
  · intro hself
    refine ⟨hself.user, fun id p hp => ?_, h.acyclic⟩
    obtain ⟨-, channel, hget, rfl⟩ := above_eq_some_iff.mp hp
    exact hself.parent id channel hget

theorem hangs {scope : Scope} {id : ChannelId} (hor : Hangs view scope id ∨ apart id)
    (hthr : view.channels.contains id = true) : Hangs view scope id := by
  refine hor.resolve_right fun hapart => ?_
  rw [contains_eq_false_iff.mpr (h.missing id hapart)] at hthr
  cases hthr

theorem restrict_valid (hself : view.SelfContained) (see : ScopeSet) :
    (view.restrict see).shown.Valid := by
  have hseen : ∀ {scope : Scope} {id : ChannelId}, Hangs view scope id → see.sees scope = true →
      (view.restrict see).channels.contains id = true := by
    intro scope id hhangs hsees
    obtain ⟨channel, hget, -⟩ := hhangs.restrict hsees
    exact contains_iff.mpr ⟨channel, hget⟩
  rw [valid_shown_iff]
  refine ⟨fun session user hget => ?_, fun id p hp => ?_, ?_⟩
  · obtain ⟨hview, hsees⟩ : _ ∧ see.sees user.scope = true := keeping_user.mp hget
    exact hseen (h.hangs (h.user session user hview) (hself.user session user hview)) hsees
  · obtain ⟨-, channel, hget, rfl⟩ := above_eq_some_iff.mp hp
    obtain ⟨hview, hsees⟩ := get?_restrict hget
    exact hseen (h.hangs (h.parent id channel hview) (hself.parent id channel hview)) hsees
  · exact h.acyclic.mono fun id p hp => above_of_keeping hp

end Hung

end ShardView

theorem accepted_of_render {ids : IdAllocator} {shard : ShardId} {calls : List BuildCall}
    (hiss : HandlesIssued (fun builder call => (builder.call call).1) (new ids shard) [] calls)
    (hok : (((new ids shard).render calls).finish fun _ => none).toOption.isSome = true) :
    ((new ids shard).render calls).view.Accepted :=
  ⟨ids, shard, calls, fun _ => none, _, hiss, finish_of_isSome hok, rfl⟩

theorem selfContained_of_rows {view : ShardView}
    (huser : ∀ user ∈ view.users.rows, view.channels.contains user.channel = true)
    (hpar : ∀ channel ∈ view.channels.rows, view.channels.contains channel.parent = true) :
    view.SelfContained :=
  ⟨fun _ user hget => huser user (mem_of_get? hget),
    fun _ channel hget => hpar channel (mem_of_get? hget)⟩

theorem not_entangles_of_rows {keep : Scope → Bool} {before after : ShardView} (fuel : ℕ)
    (h : ∀ channel ∈ after.channels.rows, channel.id ≠ rootChannel →
      walk (stage keep before after channel.id) fuel channel.parent = none ∧
      ∀ n ∈ List.range fuel,
        walk (stage keep before after channel.id) n channel.parent ≠ some channel.id) :
    ¬Plan.Entangles keep before after := by
  rintro ⟨id, p, habove, -, n, hwalk⟩
  obtain ⟨hroot, channel, hget, rfl⟩ :=
    ShardView.above_eq_some_iff.mp (above_of_keeping habove)
  obtain rfl : channel.id = id := key_of_get? hget
  obtain ⟨hends, hmiss⟩ := h channel (mem_of_get? hget) hroot
  by_cases hn : n < fuel
  · exact hmiss n (List.mem_range.mpr hn) hwalk
  · rw [walk_none_of_le hends (by omega)] at hwalk
    cases hwalk

attribute [local irreducible] ClientModel.Bears

def stackedBuilder : ShardBuilder :=
  (ShardBuilder.new IdAllocator.new 0).render
    [.root "Lobby", .channel ⟨rootChannel, Scope.root⟩ 7 "Hall" .same,
      .channel ⟨1, Scope.root⟩ 8 "Attic" .same]

def spreadBuilder : ShardBuilder :=
  (ShardBuilder.new stackedBuilder.ids 0).render
    [.root "Lobby", .channel ⟨rootChannel, Scope.root⟩ 7 "Hall" .same,
      .channel ⟨rootChannel, Scope.root⟩ 8 "Attic" .same]

def swappedBuilder : ShardBuilder :=
  (ShardBuilder.new stackedBuilder.ids 0).render
    [.root "Lobby", .channel ⟨rootChannel, Scope.root⟩ 8 "Attic" .same,
      .channel ⟨2, Scope.root⟩ 7 "Hall" .same]

theorem stacked_holds : stackedBuilder.view.Accepted ∧ stackedBuilder.view.SelfContained :=
  ⟨accepted_of_render (by decide +kernel) (by decide +kernel),
    selfContained_of_rows (by decide +kernel) (by decide +kernel)⟩

theorem spread_holds : spreadBuilder.view.Accepted ∧ spreadBuilder.view.SelfContained ∧
    ¬Plan.Entangles (fun _ => true) stackedBuilder.view spreadBuilder.view :=
  ⟨accepted_of_render (by decide +kernel) (by decide +kernel),
    selfContained_of_rows (by decide +kernel) (by decide +kernel),
    not_entangles_of_rows 3 (by decide +kernel)⟩

/-- A client that sees everything is led through trees exactly when both views
are self-contained and no channel is put below itself on the way. -/
theorem planned_prefixes_valid_iff {before after : ShardView} (hbefore : before.Accepted)
    (hafter : after.Accepted) :
    before.shown.Bears (AttachedConnection.replanOps before after) ↔
      before.SelfContained ∧ after.SelfContained ∧
        ¬Plan.Entangles (fun _ => true) before after := by
  obtain ⟨apart, hhung⟩ := hbefore.hung
  obtain ⟨apart', hhung'⟩ := hafter.hung
  rw [Plan.bears_replan_iff hhung'.root, hhung.valid_iff, hhung'.valid_iff]

theorem planned_prefixes_valid_iff_spread :
    stackedBuilder.view.shown.Bears
      (AttachedConnection.replanOps stackedBuilder.view spreadBuilder.view) :=
  (planned_prefixes_valid_iff stacked_holds.1 spread_holds.1).mpr ⟨stacked_holds.2, spread_holds.2⟩

/-- Swapping a channel with the one in it puts the first below itself. -/
theorem swap_leads_through_circle :
    stackedBuilder.view.Accepted ∧ swappedBuilder.view.Accepted ∧
      stackedBuilder.view.SelfContained ∧ swappedBuilder.view.SelfContained ∧
      ¬stackedBuilder.view.shown.Bears
        (AttachedConnection.replanOps stackedBuilder.view swappedBuilder.view) := by
  have hacc : swappedBuilder.view.Accepted :=
    accepted_of_render (by decide +kernel) (by decide +kernel)
  have hself : swappedBuilder.view.SelfContained :=
    selfContained_of_rows (by decide +kernel) (by decide +kernel)
  refine ⟨stacked_holds.1, hacc, stacked_holds.2, hself, ?_⟩
  intro hbears
  exact (hbears.take 1).acyclic 1 2 (by decide) (by decide +kernel)

/-- Where the whole plan leads through trees, so does what an observer sees of it
exactly when every channel it gains comes after its parent and none is put below
itself. -/
theorem filtered_prefixes_valid_iff {before after : ShardView} (hbefore : before.Accepted)
    (hafter : after.Accepted)
    (hfull : before.shown.Bears (AttachedConnection.replanOps before after)) (see : ScopeSet) :
    (before.restrict see).shown.Bears
        (Compose.collapse (Compose.filter (Plan.plan before after) see)) ↔
      Plan.Follows see.sees before after ∧ ¬Plan.Entangles see.sees before after := by
  obtain ⟨apart, hhung⟩ := hbefore.hung
  obtain ⟨apart', hhung'⟩ := hafter.hung
  obtain ⟨hvalid, hvalid', -⟩ := (Plan.bears_replan_iff hhung'.root).mp hfull
  exact Plan.bears_transition_iff hhung'.root hvalid hvalid'
    (hhung.restrict_valid (hhung.valid_iff.mp hvalid) see)
    (hhung'.restrict_valid (hhung'.valid_iff.mp hvalid') see)

theorem bears_of_rows {before after : ShardView} (hbef : before.Accepted)
    (haft : after.Accepted) (hself : before.SelfContained) (hself' : after.SelfContained)
    (hnot : ¬Plan.Entangles (fun _ => true) before after) :
    before.shown.Bears (AttachedConnection.replanOps before after) := by
  obtain ⟨apart, hhung⟩ := hbef.hung
  obtain ⟨apart', hhung'⟩ := haft.hung
  exact (bears_replan_iff hhung'.root).mpr
    ⟨hhung.valid_iff.mpr hself, hhung'.valid_iff.mpr hself', hnot⟩

theorem filtered_prefixes_valid_iff_spread :
    (stackedBuilder.view.restrict observesRoot).shown.Bears
      (Compose.collapse (Compose.filter
        (Plan.plan stackedBuilder.view spreadBuilder.view) observesRoot)) := by
  have hnot : ¬Plan.Entangles observesRoot.sees stackedBuilder.view spreadBuilder.view :=
    not_entangles_of_rows 3 (by decide +kernel)
  obtain ⟨hbef, hself⟩ := stacked_holds
  obtain ⟨haft, hself', hwhole⟩ := spread_holds
  rw [filtered_prefixes_valid_iff hbef haft (bears_of_rows hbef haft hself hself' hwhole)]
  refine ⟨fun id p _ hthr hunseen => ?_, hnot⟩
  rw [show stackedBuilder.view.keeping observesRoot.sees = stackedBuilder.view by decide +kernel,
    hthr] at hunseen
  cases hunseen

def narrowBuilder : ShardBuilder :=
  (ShardBuilder.new IdAllocator.new 0).render
    [.root "Lobby", .channel ⟨rootChannel, Scope.root⟩ 7 "Hall" (.into 5),
      .channel ⟨rootChannel, Scope.root⟩ 8 "Attic" (.into 5)]

def renarrowedBuilder : ShardBuilder :=
  (ShardBuilder.new narrowBuilder.ids 0).render
    [.root "Lobby", .channel ⟨rootChannel, Scope.root⟩ 8 "Attic" (.into 6),
      .channel ⟨2, ⟨[6], by decide⟩⟩ 7 "Hall" .same]

def observesSixth : ScopeSet := ⟨Table.ofList [⟨[6], by decide⟩], by decide⟩

/-- The plan creates the first channel before the second, which the previous view
has, though not in sight of an observer of the new scope. -/
theorem renarrowed_parent_unseen :
    narrowBuilder.view.Accepted ∧ renarrowedBuilder.view.Accepted ∧
      narrowBuilder.view.shown.Bears
        (AttachedConnection.replanOps narrowBuilder.view renarrowedBuilder.view) ∧
      ¬(narrowBuilder.view.restrict observesSixth).shown.Bears
        (Compose.collapse (Compose.filter
          (Plan.plan narrowBuilder.view renarrowedBuilder.view) observesSixth)) := by
  have hbef : narrowBuilder.view.Accepted :=
    accepted_of_render (by decide +kernel) (by decide +kernel)
  have haft : renarrowedBuilder.view.Accepted :=
    accepted_of_render (by decide +kernel) (by decide +kernel)
  have hself : narrowBuilder.view.SelfContained :=
    selfContained_of_rows (by decide +kernel) (by decide +kernel)
  have hself' : renarrowedBuilder.view.SelfContained :=
    selfContained_of_rows (by decide +kernel) (by decide +kernel)
  have hnot : ¬Plan.Entangles (fun _ => true) narrowBuilder.view renarrowedBuilder.view :=
    not_entangles_of_rows 3 (by decide +kernel)
  have hfull := bears_of_rows hbef haft hself hself' hnot
  refine ⟨hbef, haft, hfull, ?_⟩
  intro hbears
  have hheld := (hbears.take 1).under 1 2 (by decide +kernel)
  revert hheld
  decide +kernel

end MumbleRuntime
