import MumbleRuntime.PlanSchedule
import MumbleRuntime.Composed

/-!
# What a client holds on the way through a transition

Between the two views a client holds a mix of them. It stays a tree exactly when
no channel is put below itself: the channels that come before it in the plan are
then where the new view has them, the others still where the old one had them.
An observer of part of the scopes also needs each new channel to come after a
parent that the previous view had out of its sight.
-/

namespace MumbleRuntime
open Library ShardView Forest List AttachedConnection Table

variable {before after : ShardView}

namespace Plan

instance (before after : ShardView) (a b : ChannelId) : Decidable (precedes before after a b) :=
  inferInstanceAs (Decidable (_ ∨ _))

def stage (keep : Scope → Bool) (before after : ShardView) (id other : ChannelId) :
    Option ChannelId :=
  if (after.keeping keep).channels.contains other ∧ precedes before after other id then
    (after.keeping keep).above other
  else (before.keeping keep).above other

def Entangles (keep : Scope → Bool) (before after : ShardView) : Prop :=
  ∃ id p, (after.keeping keep).above id = some p ∧ (before.keeping keep).above id ≠ some p ∧
    ∃ n, walk (stage keep before after id) n p = some id

/-- A channel comes after the parent that the previous view had out of sight. -/
def Follows (keep : Scope → Bool) (before after : ShardView) : Prop :=
  ∀ id p, (after.keeping keep).above id = some p → before.channels.contains p = true →
    (before.keeping keep).channels.contains p = false → precedes before after p id

theorem contains_of_above {view : ShardView} {id p : ChannelId} (h : view.above id = some p) :
    view.channels.contains id = true := by
  obtain ⟨-, channel, hget, -⟩ := above_eq_some_iff.mp h
  exact contains_iff.mpr ⟨channel, hget⟩

theorem mem_puts_of_ne {keep : Scope → Bool} (hbef : before.shown.Valid) {n : ChannelId}
    (hthr : (after.keeping keep).channels.contains n = true)
    (hne : (held keep before).parent n ≠ (held keep after).parent n) :
    n ∈ puts keep before after := by
  have hschedule := @schedule keep before after (valid_shown_iff.mp hbef).2.2
  by_contra hput
  refine hne (hschedule.nodes n hput (hschedule.notMem_drops ?_))
  rw [held, forest_shown_isSome]
  exact hthr

theorem channelSite_updated {op : PlanOp} {scope : Scope}
    (h : ⟨op, scope⟩ ∈ updated before after) {id : ChannelId} (hsite : op.channelSite = some id) :
    passOf before after id = ⊤ := by
  obtain ⟨old, new, rfl, -, hget, hold, hsc⟩ := of_mem_updated h
  obtain rfl : new.id = id := Option.some.inj hsite
  have hnot : arrives before after new.id = false := by simp [arrives, hget, hold, hsc]
  exact if_neg (by rw [hnot]; exact Bool.false_ne_true)

theorem updated_sorted (before after : ShardView) :
    (updated before after).Pairwise fun left right =>
      ∀ a ∈ left.op.channelSite, ∀ b ∈ right.op.channelSite, precedes before after a b := by
  have hids : (updated before after).Pairwise fun left right =>
      ∀ a ∈ left.op.channelSite, ∀ b ∈ right.op.channelSite, a < b := by
    refine pairwise_filterMap.mpr (after.channels.sorted.imp ?_)
    intro new new' hlt left hleft right hright a ha b hb
    split at hleft
    · dsimp only at hleft
      split_ifs at hleft
      cases hleft
      split at hright
      · dsimp only at hright
        split_ifs at hright
        cases hright
        cases ha
        cases hb
        exact hlt
      · cases hright
    · cases hleft
  refine hids.imp_of_mem fun {left right} hl hr hlt a ha b hb => .inr ⟨?_, hlt a ha b hb⟩
  rw [channelSite_updated hl ha, channelSite_updated hr hb]

section Tree

variable {keep : Scope → Bool} {before after : ShardView} (hroot : after.RootFirst)
  (hbef : before.shown.Valid) (haft : after.shown.Valid)

include hroot haft

theorem creations_sorted :
    (creations before after).Pairwise fun left right =>
      ∀ a ∈ left.op.channelSite, ∀ b ∈ right.op.channelSite, precedes before after a b := by
  obtain ⟨-, habove, hacy⟩ := valid_shown_iff.mp haft
  have hpar : ∀ id channel, after.channels.get? id = some channel →
      after.channels.contains channel.parent = true := by
    intro id channel hget
    by_cases hid : id = rootChannel
    · subst hid
      rw [hroot channel hget]
      exact contains_iff.mpr ⟨channel, hget⟩
    · exact habove id channel.parent (above_eq_some_iff.mpr ⟨hid, channel, hget, rfl⟩)
  refine pairwise_map.mpr ((orderCreations_sorted hroot hacy hpar).imp ?_)
  intro left right hprecedes a ha b hb
  cases ha
  cases hb
  exact hprecedes

theorem puts_sorted : (puts keep before after).Pairwise (precedes before after) := by
  rw [puts, placings, filterMap_append, pairwise_append]
  refine ⟨?_, ?_, ?_⟩
  · refine pairwise_filterMap.mpr (pairwise_map.mpr ?_)
    exact (creations_sorted hroot haft).filter _
  · refine pairwise_filterMap.mpr (pairwise_map.mpr ?_)
    exact (updated_sorted before after).filter _
  · intro a ha b hb
    obtain ⟨op, hop, hsite⟩ := mem_filterMap.mp ha
    obtain ⟨scope, hmem, -⟩ := mem_kept_iff.mp hop
    obtain ⟨channel, rfl, -, -, harrives⟩ := mem_creations.mp hmem
    cases hsite
    obtain ⟨other, hoth, hsite⟩ := mem_filterMap.mp hb
    obtain ⟨scope', hmem', -⟩ := mem_kept_iff.mp hoth
    refine .inl ?_
    rw [channelSite_updated hmem' hsite, passOf, if_pos harrives]
    exact WithTop.coe_lt_top _

theorem mem_done_iff {done rest : List ChannelId} {n c : ChannelId}
    (hspl : puts keep before after = done ++ n :: rest) :
    c ∈ done ↔ c ∈ puts keep before after ∧ precedes before after c n := by
  have hsorted := @puts_sorted keep before after hroot haft
  rw [hspl, pairwise_append] at hsorted
  rw [hspl]
  constructor
  · intro hc
    exact ⟨mem_append_left _ hc, hsorted.2.2 c hc n mem_cons_self⟩
  · rintro ⟨hc, hprecedes⟩
    refine (mem_append.mp hc).resolve_right fun hlat => ?_
    rcases mem_cons.mp hlat with rfl | hrest
    · exact precedes_irrefl _ _ _ hprecedes
    · exact precedes_asymm hprecedes ((pairwise_cons.mp hsorted.2.1).1 c hrest)

include hbef

theorem mix_up_eq_stage {done rest : List ChannelId} {n : ChannelId}
    (hspl : puts keep before after = done ++ n :: rest) :
    (mix (held keep before) (held keep after) (done.map .inl)).up =
      stage keep before after n := by
  funext c
  have hdone := @mem_done_iff keep before after hroot haft _ _ n c hspl
  by_cases hc : c ∈ done
  · obtain ⟨hput, hprecedes⟩ := hdone.mp hc
    have hthr := mem_puts hput
    rw [held, forest_shown_isSome] at hthr
    rw [up_of_parent_eq (mix_parent_of_mem (by simp [hc])), held_up, stage,
      if_pos ⟨hthr, hprecedes⟩]
  · rw [up_of_parent_eq (mix_parent_of_notMem (by simp [hc])), stage]
    split_ifs with hboth
    · have hnot : c ∉ puts keep before after := fun hput => hc (hdone.mpr ⟨hput, hboth.2⟩)
      have hsame : (held keep before).parent c = (held keep after).parent c := by
        by_contra hne
        exact hnot (mem_puts_of_ne hbef hboth.1 hne)
      rw [up_of_parent_eq hsame, held_up]
    · rw [held_up]

theorem untangled_iff_not_entangles :
    Forest.Schedule.Untangled (held keep before) (held keep after) (puts keep before after) ↔
      ¬Entangles keep before after := by
  have hacy : Acyclic (held keep before).up := by
    rw [held_up]
    exact (valid_shown_iff.mp hbef).2.2.mono fun _ _ => above_of_keeping
  rw [Forest.Schedule.untangled_iff hacy]
  simp only [held_up]
  constructor
  · rintro hno ⟨id, p, habove, hne, n, hwalk⟩
    have hput : id ∈ puts keep before after := by
      refine mem_puts_of_ne hbef (contains_of_above habove) fun heq => hne ?_
      rw [← habove, ← held_up, ← held_up]
      exact up_of_parent_eq heq
    obtain ⟨done, rest, hspl⟩ := append_of_mem hput
    refine hno done id rest p hspl habove hne n ?_
    rw [mix_up_eq_stage hroot hbef haft hspl]
    exact hwalk
  · intro hnot done n rest p hspl habove hne k hwalk
    rw [mix_up_eq_stage hroot hbef haft hspl] at hwalk
    exact hnot ⟨n, p, habove, hne, k, hwalk⟩

theorem ordered_iff_follows (hkept : (before.keeping keep).shown.Valid)
    (hkept' : (after.keeping keep).shown.Valid) :
    Forest.Schedule.Ordered (held keep before) (held keep after) (puts keep before after) ↔
      Follows keep before after := by
  obtain ⟨-, hparents, -⟩ := valid_shown_iff.mp hkept
  obtain ⟨-, hparents', -⟩ := valid_shown_iff.mp hkept'
  constructor
  · intro hordered id p habove hp hunseen
    have hput : id ∈ puts keep before after := by
      refine mem_puts_of_ne hbef (contains_of_above habove) fun heq => ?_
      have hold : (before.keeping keep).above id = some p := by
        rw [← held_up, up_of_parent_eq heq, held_up]
        exact habove
      rw [hparents id p hold] at hunseen
      cases hunseen
    obtain ⟨done, rest, hspl⟩ := append_of_mem hput
    have hup : (held keep after).up id = some p := by rw [held_up, habove]
    rcases hordered done id rest p hspl hup with hdone | hthr
    · exact ((mem_done_iff hroot haft hspl).mp hdone).2
    · rw [held, forest_shown_isSome, hunseen] at hthr
      cases hthr
  · intro hfol done n rest p hspl hup
    rw [held_up] at hup
    have hthr := hparents' n p hup
    cases hseen : (before.keeping keep).channels.contains p with
    | true =>
      refine .inr ?_
      rw [held, forest_shown_isSome]
      exact hseen
    | false =>
      have hgained : p ∈ puts keep before after := by
        refine mem_puts_of_ne hbef hthr fun heq => ?_
        have hsame := congrArg Option.isSome heq
        rw [held, held, forest_shown_isSome, forest_shown_isSome, hseen, hthr] at hsame
        cases hsame
      refine .inl ((mem_done_iff hroot haft hspl).mpr ⟨hgained, ?_⟩)
      cases hold : before.channels.contains p with
      | true => exact hfol n p hup hold hseen
      | false =>
        obtain ⟨hnroot, channel, hget, hpar⟩ :=
          above_eq_some_iff.mp (above_of_keeping hup)
        have hacy := (valid_shown_iff.mp haft).2.2
        have hne : p ≠ n := by
          rintro rfl
          exact hacy p 1 one_pos (by simpa [walk] using above_of_keeping hup)
        have hneeds : needs before after n = some p := by
          rw [needs, parentOf, hget, Option.map_some, hpar, Option.filter_some]
          simp [hne, hold]
        obtain ⟨parent, hfnd⟩ := contains_iff.mp hthr
        exact precedes_of_needs hroot hacy hneeds
          (contains_iff.mpr ⟨parent, (keeping_channel.mp hfnd).1⟩)

theorem bears_transition_iff (hkept : (before.keeping keep).shown.Valid)
    (hkept' : (after.keeping keep).shown.Valid) :
    (before.keeping keep).shown.Bears (transition keep before after) ↔
      Follows keep before after ∧ ¬Entangles keep before after := by
  have hschedule := @schedule keep before after (valid_shown_iff.mp hbef).2.2
  have hset : ∀ op ∈ transition keep before after,
      op.Settles (held keep before) (held keep after) := by
    intro op hop
    rw [transition_eq] at hop
    rcases mem_append.mp hop with hplacing | hrest
    · exact (settles_placing hplacing).1
    · rcases mem_append.mp hrest with hseating | hdrop
      · exact (settles_seating hseating).1
      · exact (settles_drop hdrop).1
  have hstart : (before.keeping keep).shown.forest =
      mix (held keep before) (held keep after) [] := by simp [mix, held]
  rw [ClientModel.bears_iff_passable hstart hset, sites_transition]
  have hpassable := hschedule.passable_iff
  rw [Forest.Schedule.elements] at hpassable
  rw [hpassable, ordered_iff_follows hroot hbef haft hkept hkept',
    untangled_iff_not_entangles hroot hbef haft]
  exact ⟨fun h => h.2.2, fun h => ⟨hkept, hkept', h⟩⟩

end Tree

theorem bears_replan_iff (hroot : after.RootFirst) :
    before.shown.Bears (replanOps before after) ↔
      before.shown.Valid ∧ after.shown.Valid ∧ ¬Entangles (fun _ => true) before after := by
  have hiff : before.shown.Valid → after.shown.Valid →
      (before.shown.Bears (replanOps before after) ↔
        ¬Entangles (fun _ => true) before after) := by
    intro hbef haft
    have hbears := @bears_transition_iff (fun _ => true) before after hroot hbef haft
      (by rwa [keeping_all]) (by rwa [keeping_all])
    rw [keeping_all, transition_all] at hbears
    rw [hbears, and_iff_right]
    intro id p _ hthr hunseen
    rw [keeping_all, hthr] at hunseen
    cases hunseen
  constructor
  · intro hbears
    have hlast := hbears.last
    rw [replan_converges] at hlast
    exact ⟨hbears.valid, hlast, (hiff hbears.valid hlast).mp hbears⟩
  · rintro ⟨hbef, haft, hnot⟩
    exact (hiff hbef haft).mpr hnot

end Plan

end MumbleRuntime
