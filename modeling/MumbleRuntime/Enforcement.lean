import MumbleRuntime.Runtime
import MumbleRuntime.Base
import MumbleRuntime.PlanCell

/-!
# The enforced view

What a shard enforces is the view it keeps. A turn whose render plans nothing and
moves no connection keeps the old one. A plan compares what a client is shown and
nothing else, so a render is lost exactly when all it changes is hidden from
every client: whether a channel may be written in.
-/

namespace MumbleRuntime
open Library Table Option OrderedSet

def Channel.look (channel : Channel) : Channel := { channel with key := rootKey, canText := true }

def User.look (user : User) : User := { user with occupant := .synthetic 0 }

structure ShardView.LooksLike (view other : ShardView) : Prop where
  channels : ∀ id,
    (view.channels.get? id).map Channel.look = (other.channels.get? id).map Channel.look
  users : ∀ session,
    (view.users.get? session).map User.look = (other.users.get? session).map User.look

namespace Plan

variable {before after : ShardView}

theorem channelPatch_isNoop_iff {old new : Channel} (hid : old.id = new.id) :
    old.scope = new.scope ∧ (channelPatch old new).isNoop = true ↔ old.look = new.look := by
  simp only [ChannelPatch.isNoop, channelPatch, Bool.and_eq_true, isNone_iff_eq_none,
    changed_eq_none_iff, Channel.look, Channel.mk.injEq, true_and]
  constructor
  · rintro ⟨hsc, ⟨⟨⟨⟨hpar, hname⟩, hposition⟩, hcanEnter⟩, hadded⟩, hrmv⟩
    exact ⟨hid, hpar, hsc, hname, hposition, hcanEnter, eq_of_difference_isEmpty hrmv hadded⟩
  · rintro ⟨-, hpar, hsc, hname, hposition, hcanEnter, hlinks⟩
    rw [hlinks]
    exact ⟨hsc, ⟨⟨⟨⟨hpar, hname⟩, hposition⟩, hcanEnter⟩, difference_self _⟩, difference_self _⟩

theorem userPatch_isNoop_iff {old new : User} (hid : old.session = new.session) :
    old.scope = new.scope ∧ old.channel = new.channel ∧ (userPatch old new).isNoop = true ↔
      old.look = new.look := by
  simp only [UserPatch.isNoop, userPatch, Bool.and_eq_true, isNone_iff_eq_none,
    changed_eq_none_iff, User.look, User.mk.injEq, true_and]
  constructor
  · rintro ⟨hsc, hch, hname, hflags⟩
    exact ⟨hid, hch, hsc, hname, hflags⟩
  · rintro ⟨-, hch, hsc, hname, hflags⟩
    exact ⟨hsc, hch, hname, hflags⟩

theorem looksLike_of_plan_nil (h : plan before after = []) : before.LooksLike after := by
  simp only [plan, List.append_eq_nil_iff, List.map_eq_nil_iff] at h
  obtain ⟨⟨⟨⟨⟨⟨hordered, hupdated⟩, hadded⟩, hmoved⟩, hchg⟩, hleft⟩, hrmv⟩ := h
  have hcre : created before after = [] := by
    have hperm := orderCreations_perm (created before after) before.channels
    rw [hordered] at hperm
    exact hperm.nil_eq.symm
  have hgone : channelRemovals before after = [] := by
    have hperm := orderRemovals_perm (channelRemovals before after) before
    rw [hrmv] at hperm
    exact hperm.nil_eq.symm
  simp only [created, updated, channelRemovals, userAdditions, userMoves, userUpdates, userRemovals,
    List.append_eq_nil_iff, List.filterMap_eq_nil_iff] at *
  constructor
  · intro id
    cases hold : before.channels.get? id with
    | none =>
      cases hnew : after.channels.get? id with
      | none => rfl
      | some new =>
        obtain rfl : new.id = id := key_of_get? hnew
        have hnone := hcre new (mem_of_get? hnew)
        simp [hold] at hnone
    | some old =>
      obtain rfl : old.id = id := key_of_get? hold
      cases hnew : after.channels.get? old.id with
      | none =>
        have hnone := hgone.2 old (mem_of_get? hold)
        simp [contains, hnew] at hnone
      | some new =>
        have hid : old.id = new.id := (key_of_get? hnew).symm
        have hsc := hcre new (mem_of_get? hnew)
        have hnoop := hupdated new (mem_of_get? hnew)
        have hlook := (channelPatch_isNoop_iff hid).mp
          (by by_cases heq : old.scope = new.scope <;> simp_all)
        rw [map_some, map_some, hlook]
  · intro session
    cases hold : before.users.get? session with
    | none =>
      cases hnew : after.users.get? session with
      | none => rfl
      | some new =>
        obtain rfl : new.session = session := key_of_get? hnew
        have hnone := hadded new (mem_of_get? hnew)
        simp [hold] at hnone
    | some old =>
      obtain rfl : old.session = session := key_of_get? hold
      cases hnew : after.users.get? old.session with
      | none =>
        have hnone := hleft.2 old (mem_of_get? hold)
        simp [contains, hnew] at hnone
      | some new =>
        have hid : old.session = new.session := (key_of_get? hnew).symm
        have hsc := hadded new (mem_of_get? hnew)
        have hstays := hmoved new (mem_of_get? hnew)
        have hnoop := hchg new (mem_of_get? hnew)
        have hlook := (userPatch_isNoop_iff hid).mp
          (by by_cases heq : old.scope = new.scope <;> simp_all)
        rw [map_some, map_some, hlook]

theorem plan_nil_of_looksLike (h : before.LooksLike after) : plan before after = [] := by
  have hch : ∀ new ∈ after.channels.rows, ∃ old, before.channels.get? new.id = some old ∧
      old.scope = new.scope ∧ (channelPatch old new).isNoop = true := by
    intro new hnew
    have hlook := h.channels new.id
    rw [get?_of_mem hnew] at hlook
    obtain ⟨old, hold, heq⟩ := map_eq_some_iff.mp hlook
    exact ⟨old, hold, (channelPatch_isNoop_iff (key_of_get? hold)).mpr heq⟩
  have huser : ∀ new ∈ after.users.rows, ∃ old, before.users.get? new.session = some old ∧
      old.scope = new.scope ∧ old.channel = new.channel ∧ (userPatch old new).isNoop = true := by
    intro new hnew
    have hlook := h.users new.session
    rw [get?_of_mem hnew] at hlook
    obtain ⟨old, hold, heq⟩ := map_eq_some_iff.mp hlook
    exact ⟨old, hold, (userPatch_isNoop_iff (key_of_get? hold)).mpr heq⟩
  have hkept : ∀ old ∈ before.channels.rows, after.channels.contains old.id = true := by
    intro old hold
    have hlook := h.channels old.id
    rw [get?_of_mem hold] at hlook
    obtain ⟨new, hnew, -⟩ := map_eq_some_iff.mp hlook.symm
    exact contains_iff.mpr ⟨new, hnew⟩
  have hstays : ∀ old ∈ before.users.rows, after.users.contains old.session = true := by
    intro old hold
    have hlook := h.users old.session
    rw [get?_of_mem hold] at hlook
    obtain ⟨new, hnew, -⟩ := map_eq_some_iff.mp hlook.symm
    exact contains_iff.mpr ⟨new, hnew⟩
  have hcre : created before after = [] := by
    refine List.filterMap_eq_nil_iff.mpr fun new hnew => ?_
    obtain ⟨old, hold, hsc, -⟩ := hch new hnew
    simp [hold, hsc]
  have hupdated : updated before after = [] := by
    refine List.filterMap_eq_nil_iff.mpr fun new hnew => ?_
    obtain ⟨old, hold, -, hnoop⟩ := hch new hnew
    simp [hold, hnoop]
  have hgone : channelRemovals before after = [] := by
    refine List.append_eq_nil_iff.mpr ⟨List.filterMap_eq_nil_iff.mpr fun new hnew => ?_,
      List.filterMap_eq_nil_iff.mpr fun old hold => ?_⟩
    · obtain ⟨old, hold, hsc, -⟩ := hch new hnew
      simp [hold, hsc]
    · simp [hkept old hold]
  have hadded : userAdditions before after = [] := by
    refine List.filterMap_eq_nil_iff.mpr fun new hnew => ?_
    obtain ⟨old, hold, hsc, -⟩ := huser new hnew
    simp [hold, hsc]
  have hmoved : userMoves before after = [] := by
    refine List.filterMap_eq_nil_iff.mpr fun new hnew => ?_
    obtain ⟨old, hold, -, hsame, -⟩ := huser new hnew
    simp [hold, hsame]
  have hchg : userUpdates before after = [] := by
    refine List.filterMap_eq_nil_iff.mpr fun new hnew => ?_
    obtain ⟨old, hold, -, -, hnoop⟩ := huser new hnew
    simp [hold, hnoop]
  have hleft : userRemovals before after = [] := by
    refine List.append_eq_nil_iff.mpr ⟨List.filterMap_eq_nil_iff.mpr fun new hnew => ?_,
      List.filterMap_eq_nil_iff.mpr fun old hold => ?_⟩
    · obtain ⟨old, hold, hsc, -⟩ := huser new hnew
      simp [hold, hsc]
    · simp [hstays old hold]
  simp only [plan, hcre, hupdated, hadded, hmoved, hchg, hleft, hgone]
  rfl

theorem plan_eq_nil_iff : plan before after = [] ↔ before.LooksLike after :=
  ⟨looksLike_of_plan_nil, plan_nil_of_looksLike⟩

end Plan

namespace Shard

variable {shard : Shard} {ids : IdAllocator} {logic : ShardLogic} {rendered : Rendered}

/-- The render moves no connection: it keeps the observation, the overlay and the
menu each of them has been sent. -/
def Settled (shard : Shard) (logic : ShardLogic) (rendered : Rendered) : Prop :=
  ∀ attached ∈ shard.connections.rows,
    attached.held = none ∧ logic.observation attached.id = attached.see ∧
      rendered.overlayOf attached.id = attached.overlaySent ∧
      rendered.actionsOf attached.id = attached.actionsSent

theorem unchanged_iff :
    shard.unchanged logic rendered = true ↔
      shard.view.LooksLike rendered.view ∧ shard.Settled logic rendered := by
  rw [← Plan.plan_eq_nil_iff, unchanged, Bool.and_eq_true, List.isEmpty_iff]
  refine and_congr_right fun _ => ?_
  rw [List.all_eq_true, Settled]
  refine forall₂_congr fun attached _ => ?_
  simp only [AttachedConnection.moved, Bool.and_eq_true, Bool.not_eq_true', Bool.or_eq_false_iff,
    decide_eq_true_eq, decide_eq_false_iff_not, not_not, isSome_eq_false_iff,
    isNone_iff_eq_none]
  constructor
  · rintro ⟨⟨⟨hheld, hsee⟩, hov⟩, hactions⟩
    exact ⟨hheld, hsee.symm, hov, hactions⟩
  · rintro ⟨hheld, hsee, hov, hactions⟩
    exact ⟨⟨⟨hheld, hsee.symm⟩, hov⟩, hactions⟩

/-- All the render changes of the view is what no client is shown, and it moves
no connection. -/
def Overlooks (shard : Shard) (logic : ShardLogic) (rendered : Rendered) : Prop :=
  shard.view ≠ rendered.view ∧ shard.view.LooksLike rendered.view ∧ shard.Settled logic rendered

/-- After an accepted render the enforced view is the one rendered, unless the
render was overlooked. -/
theorem enforced_view_iff (h : (shard.reconcile ids logic).2.2.refused = none) :
    ∃ rendered, (shard.rendering ids logic).finish (shard.observations logic) = .ok rendered ∧
      ((shard.reconcile ids logic).1.view = rendered.view ↔ ¬shard.Overlooks logic rendered) := by
  cases hok : (shard.rendering ids logic).finish (shard.observations logic) with
  | error refused => simp [reconcile, hok] at h
  | ok rendered =>
    refine ⟨rendered, rfl, ?_⟩
    cases hunchanged : shard.unchanged logic rendered with
    | false =>
      have hview : (shard.reconcile ids logic).1.view = rendered.view := by
        simp only [reconcile, hok, hunchanged]
        exact shard.publish_view rendered
      refine iff_of_true hview ?_
      rintro ⟨-, hlook, hsettled⟩
      rw [unchanged_iff.mpr ⟨hlook, hsettled⟩] at hunchanged
      cases hunchanged
    | true =>
      have hview : (shard.reconcile ids logic).1.view = shard.view := by
        simp [reconcile, hok, hunchanged]
      rw [hview]
      constructor
      · rintro heq ⟨hne, -⟩
        exact hne heq
      · intro hkept
        by_contra hne
        exact hkept ⟨hne, unchanged_iff.mp hunchanged⟩

end Shard

section Hush

def hushLogic : ShardLogic := lobbyLogic [.channelCanText ⟨rootChannel, Scope.root⟩ false]

def hushRendered : Rendered := Rendered.ofBuilder (lobbyShard.rendering lobbyRuntime.ids hushLogic)

end Hush

theorem Shard.enforced_view_iff_hush :
    (lobbyShard.reconcile lobbyRuntime.ids hushLogic).2.2.refused = none ∧
      ∃ rendered, (lobbyShard.rendering lobbyRuntime.ids hushLogic).finish
          (lobbyShard.observations hushLogic) = .ok rendered ∧
        ((lobbyShard.reconcile lobbyRuntime.ids hushLogic).1.view = rendered.view ↔
          ¬lobbyShard.Overlooks hushLogic rendered) :=
  ⟨by decide +kernel, Shard.enforced_view_iff (by decide +kernel)⟩

/-- A render that only closes the lobby to text is accepted and forgotten: the
shard goes on allowing text there. -/
theorem hush_overlooked :
    Reaches Runtime.step (fun _ _ => True) Runtime.start lobbyRuntime ∧
      lobbyRuntime.shards.get? 1 = some lobbyShard ∧
      (lobbyShard.reconcile lobbyRuntime.ids hushLogic).2.2.refused = none ∧
      (lobbyShard.rendering lobbyRuntime.ids hushLogic).finish
        (lobbyShard.observations hushLogic) = .ok hushRendered ∧
      (hushRendered.view.channels.get? rootChannel).map Channel.canText = some false ∧
      ((lobbyShard.reconcile lobbyRuntime.ids hushLogic).1.view.channels.get? rootChannel).map
        Channel.canText = some true :=
  ⟨lobbyRuntime_reached.mono fun _ _ _ => trivial, eq_some_getD (by decide +kernel),
    by decide +kernel, ShardBuilder.finish_of_isSome (by decide +kernel), by decide +kernel⟩

end MumbleRuntime
