import MumbleRuntime.PlanCell
import MumbleRuntime.Closure
import MumbleRuntime.Library.Forest
import Mathlib.Order.WithBot

/-!
# The order in which a plan goes through the channels

Creations are placed in passes over the ids: a channel waits for one more pass
each time the parent it needs has a larger id. Over a tree this puts them in the
order of how long they wait, then of their ids, and every channel after the
parent it needs. Removals go by depth, so over a tree a channel goes after those
under it.
-/

namespace MumbleRuntime
open Library Table ShardView List
open Option hiding mem_map

variable {id p : ChannelId}

namespace ShardView

def above (view : ShardView) (id : ChannelId) : Option ChannelId :=
  if id = rootChannel then none else view.parentOf id

theorem above_eq_some_iff {view : ShardView} :
    view.above id = some p ↔
      id ≠ rootChannel ∧ ∃ channel, view.channels.get? id = some channel ∧ channel.parent = p := by
  simp only [above, parentOf]
  split_ifs with hroot
  · simp [hroot]
  · simp [hroot, map_eq_some_iff]

theorem mem_of_above {view : ShardView} (h : view.above id = some p) :
    id ∈ view.channels.rows.map Channel.id := by
  obtain ⟨-, channel, hget, -⟩ := above_eq_some_iff.mp h
  exact mem_map.mpr ⟨channel, mem_of_get? hget, key_of_get? hget⟩

def RootFirst (view : ShardView) : Prop :=
  ∀ channel, view.channels.get? rootChannel = some channel → channel.parent = rootChannel

theorem above_ends {view : ShardView} (h : Acyclic view.above) (id : ChannelId) :
    walk view.above (view.channels.rows.length + 1) id = none := by
  have hends := h.ends (fun _ _ => mem_of_above) id
  rwa [length_map] at hends

end ShardView

variable {present : OrderedSet ChannelId}

namespace Plan

def needs (before after : ShardView) (id : ChannelId) : Option ChannelId :=
  (after.parentOf id).filter fun parent => parent ≠ id && !before.channels.contains parent

def waits (before after : ShardView) : ChannelId → ℕ :=
  toll (needs before after) (fun id parent => if id < parent then 1 else 0)
    (after.channels.rows.length + 1)

/-- A channel of the new view that the previous one lacks or has in another scope. -/
def arrives (before after : ShardView) (id : ChannelId) : Bool :=
  (after.channels.get? id).any fun new =>
    (before.channels.get? id).all fun old => old.scope ≠ new.scope

def passOf (before after : ShardView) (id : ChannelId) : WithTop ℕ :=
  if arrives before after id then WithTop.some (waits before after id) else ⊤

def precedes (before after : ShardView) (a b : ChannelId) : Prop :=
  passOf before after a < passOf before after b ∨
    passOf before after a = passOf before after b ∧ a < b

theorem precedes_irrefl (before after : ShardView) (a : ChannelId) :
    ¬precedes before after a a := by
  simp [precedes]

theorem precedes_asymm {before after : ShardView} {a b : ChannelId}
    (h : precedes before after a b) : ¬precedes before after b a := by
  rcases h with hlt | ⟨heq, hlt⟩
  · rintro (hgt | ⟨heq, -⟩)
    · exact lt_asymm hlt hgt
    · exact hlt.ne heq.symm
  · rintro (hgt | ⟨-, hgt⟩)
    · exact hgt.ne heq.symm
    · exact lt_asymm hlt hgt

/-- How long each of `created` waits when `held` is there from the start. -/
structure Waves (held : ChannelId → Bool) (created : List Channel) (wave : ChannelId → ℕ) :
    Prop where
  first : ∀ channel ∈ created, channel.parent = channel.id ∨ held channel.parent = true →
    wave channel.id = 0
  next : ∀ channel ∈ created, channel.parent ≠ channel.id → held channel.parent = false →
    (∃ parent ∈ created, parent.id = channel.parent) ∧
      wave channel.id = wave channel.parent + if channel.id < channel.parent then 1 else 0

namespace Waves

variable {held : ChannelId → Bool} {created : List Channel} {wave : ChannelId → ℕ}
  (h : Waves held created wave)

/-- A scan of a pass that is at `remaining`: what is present is what was held and
what had its turn. -/
structure Scan (held : ChannelId → Bool) (created : List Channel) (wave : ChannelId → ℕ) (i : ℕ)
    (present : OrderedSet ChannelId) (remaining : List Channel) : Prop where
  mem : ∀ channel ∈ remaining, channel ∈ created
  sorted : remaining.Pairwise fun a b => a.id < b.id
  late : ∀ channel ∈ remaining, i ≤ wave channel.id
  rest : ∀ channel ∈ created, i ≤ wave channel.id →
    channel ∈ remaining ∨ ∀ other ∈ remaining, channel.id < other.id
  present : ∀ id, present.contains id = true ↔
    held id = true ∨ ∃ channel ∈ created, channel.id = id ∧ channel ∉ remaining ∧ wave id ≤ i

include h in
theorem placed_iff {i : ℕ} {channel : Channel}
    {rest : List Channel} (hscan : Scan held created wave i present (channel :: rest)) :
    (channel.parent = channel.id ∨ present.contains channel.parent = true) ↔
      wave channel.id = i := by
  have hmem := hscan.mem channel mem_cons_self
  have hlate := hscan.late channel mem_cons_self
  have hsorted := pairwise_cons.mp hscan.sorted
  by_cases hfst : channel.parent = channel.id ∨ held channel.parent = true
  · have hzero := h.first channel hmem hfst
    refine iff_of_true (hfst.imp_right fun hheld => ?_) (by omega)
    exact (hscan.present _).mpr (.inl hheld)
  · push Not at hfst
    obtain ⟨⟨parent, hpar, hid⟩, hwave⟩ :=
      h.next channel hmem hfst.1 (Bool.eq_false_iff.mpr hfst.2)
    rw [or_iff_right hfst.1, hscan.present, or_iff_right hfst.2]
    constructor
    · rintro ⟨other, hoth, hotherId, hnot, hle⟩
      split_ifs at hwave with hlt
      · by_contra hne
        rcases hscan.rest other hoth (by rw [hotherId]; omega) with hin | haft
        · exact hnot hin
        · have hbelow := haft channel mem_cons_self
          rw [hotherId] at hbelow
          exact lt_asymm hlt hbelow
      · omega
    · intro heq
      refine ⟨parent, hpar, hid, ?_, by omega⟩
      intro hin
      rcases mem_cons.mp hin with rfl | hin
      · exact hfst.1 hid.symm
      · have habove := hsorted.1 parent hin
        have hparentLate := hscan.late parent (mem_cons_of_mem _ hin)
        rw [hid] at habove hparentLate
        rw [if_pos habove] at hwave
        omega

theorem Scan.tail {i : ℕ} {present present' : OrderedSet ChannelId} {channel : Channel}
    {rest : List Channel} (hscan : Scan held created wave i present (channel :: rest))
    (hpresent : ∀ id, present'.contains id = true ↔
      id = channel.id ∧ wave id = i ∨ present.contains id = true) :
    Scan held created wave i present' rest := by
  have hsorted := pairwise_cons.mp hscan.sorted
  have hlate := hscan.late channel mem_cons_self
  refine ⟨fun c hc => hscan.mem c (mem_cons_of_mem _ hc), hsorted.2,
    fun c hc => hscan.late c (mem_cons_of_mem _ hc), ?_, ?_⟩
  · intro c hc hle
    rcases hscan.rest c hc hle with hin | haft
    · rcases mem_cons.mp hin with rfl | hin
      · exact .inr hsorted.1
      · exact .inl hin
    · exact .inr fun other hoth => haft other (mem_cons_of_mem _ hoth)
  · intro id
    rw [hpresent, hscan.present]
    constructor
    · rintro (⟨rfl, hwave⟩ | hheld | ⟨c, hc, hid, hnot, hle⟩)
      · refine .inr ⟨channel, hscan.mem channel mem_cons_self, rfl, ?_, hwave.le⟩
        exact fun hin => lt_irrefl _ (hsorted.1 channel hin)
      · exact .inl hheld
      · exact .inr ⟨c, hc, hid, fun hin => hnot (mem_cons_of_mem _ hin), hle⟩
    · rintro (hheld | ⟨c, hc, hid, hnot, hle⟩)
      · exact .inr (.inl hheld)
      · by_cases heq : c = channel
        · subst heq
          rw [← hid] at hle ⊢
          exact .inl ⟨rfl, by omega⟩
        · refine .inr (.inr ⟨c, hc, hid, fun hin => ?_, hle⟩)
          exact (mem_cons.mp hin).elim heq hnot

include h in
theorem placeCreations_eq {i : ℕ} {remaining : List Channel}
    (hscan : Scan held created wave i present remaining) :
    (placeCreations present remaining).2 =
        (remaining.filter (fun c => wave c.id = i), remaining.filter fun c => wave c.id ≠ i) ∧
      Scan held created wave i (placeCreations present remaining).1 [] := by
  induction remaining generalizing present with
  | nil => exact ⟨rfl, hscan⟩
  | cons channel rest ih =>
    have hplc := h.placed_iff hscan
    by_cases hwave : wave channel.id = i
    · have hif : (channel.parent = channel.id || present.contains channel.parent) = true := by
        simpa using hplc.mpr hwave
      have hnext : Scan held created wave i (present.insert channel.id) rest := by
        refine hscan.tail fun id => ?_
        rw [OrderedSet.contains_insert, Bool.or_eq_true, decide_eq_true_eq]
        refine or_congr_left ⟨fun heq => ⟨heq, heq ▸ hwave⟩, fun hboth => hboth.1⟩
      obtain ⟨hlists, hend⟩ := ih hnext
      simp only [placeCreations, hif, if_true]
      refine ⟨?_, hend⟩
      rw [show (placeCreations (present.insert channel.id) rest).2.1 = _ from
        congrArg Prod.fst hlists, show (placeCreations (present.insert channel.id) rest).2.2 = _ from
        congrArg Prod.snd hlists]
      simp [hwave]
    · have hif : (channel.parent = channel.id || present.contains channel.parent) = false := by
        rw [Bool.eq_false_iff]
        intro htrue
        exact hwave (hplc.mp (by simpa using htrue))
      have hnext : Scan held created wave i present rest := by
        refine hscan.tail fun id => ?_
        rw [or_iff_right]
        rintro ⟨rfl, heq⟩
        exact hwave heq
      obtain ⟨hlists, hend⟩ := ih hnext
      simp only [placeCreations, hif, if_false, Bool.false_eq_true]
      refine ⟨?_, hend⟩
      rw [show (placeCreations present rest).2.1 = _ from congrArg Prod.fst hlists,
        show (placeCreations present rest).2.2 = _ from congrArg Prod.snd hlists]
      simp [hwave]

include h in
theorem exists_turn {i : ℕ} {channel : Channel} (hmem : channel ∈ created)
    (hwave : i ≤ wave channel.id) : ∃ other ∈ created, wave other.id = i := by
  by_cases heq : wave channel.id = i
  · exact ⟨channel, hmem, heq⟩
  · have hlat : ¬(channel.parent = channel.id ∨ held channel.parent = true) := by
      intro hfst
      have hzero := h.first channel hmem hfst
      omega
    push Not at hlat
    obtain ⟨⟨parent, hpar, hid⟩, hnext⟩ :=
      h.next channel hmem hlat.1 (Bool.eq_false_iff.mpr hlat.2)
    have hdown : wave parent.id < wave channel.id ∨
        wave parent.id = wave channel.id ∧ parent.id < channel.id := by
      rw [hid]
      split_ifs at hnext with hlt
      · exact .inl (by omega)
      · exact .inr ⟨by omega, lt_of_le_of_ne (not_lt.mp hlt) hlat.1⟩
    have hstill : i ≤ wave parent.id := by
      rw [hid]
      split_ifs at hnext <;> omega
    exact exists_turn hpar hstill
termination_by (wave channel.id, channel.id)
decreasing_by
  rcases hdown with hlt | ⟨heq', hlt⟩
  · exact Prod.Lex.left _ _ hlt
  · rw [heq']
    exact Prod.Lex.right _ hlt

def inTurn (wave : ChannelId → ℕ) (a b : Channel) : Prop :=
  wave a.id < wave b.id ∨ wave a.id = wave b.id ∧ a.id < b.id

include h in
theorem orderCreationsFrom_inTurn {fuel i : ℕ}
    {remaining : List Channel} (hscan : Scan held created wave i present remaining)
    (hall : ∀ channel ∈ created, i ≤ wave channel.id → channel ∈ remaining)
    (hfuel : remaining.length ≤ fuel) :
    (orderCreationsFrom fuel present remaining).Pairwise (inTurn wave) := by
  induction fuel generalizing i present remaining with
  | zero =>
    obtain rfl : remaining = [] := length_eq_zero_iff.mp (by omega)
    exact List.Pairwise.nil
  | succ fuel ih =>
    obtain ⟨hlists, hend⟩ := h.placeCreations_eq hscan
    rw [orderCreationsFrom]
    split
    · rename_i present' waiting heq
      rw [heq] at hlists
      obtain ⟨hnone, hwaiting⟩ := Prod.mk.inj hlists
      have hemp : remaining = [] := by
        refine eq_nil_iff_forall_not_mem.mpr fun channel hin => ?_
        obtain ⟨other, hoth, hturn⟩ :=
          h.exists_turn (hscan.mem channel hin) (hscan.late channel hin)
        have hplc : other ∈ remaining.filter (fun c => wave c.id = i) := by
          simpa [hturn] using hall other hoth hturn.ge
        rw [← hnone] at hplc
        cases hplc
      rw [hwaiting, hemp]
      exact List.Pairwise.nil
    · rename_i present' ordered waiting hne heq
      rw [heq] at hlists hend
      obtain ⟨rfl, rfl⟩ := Prod.mk.inj hlists
      have hlen : (remaining.filter fun c => wave c.id ≠ i).length < remaining.length := by
        refine length_filter_lt_length_iff_exists.mpr ?_
        obtain ⟨c, hc⟩ := exists_mem_of_ne_nil (remaining.filter fun c => wave c.id = i) hne
        exact ⟨c, mem_of_mem_filter hc, by simpa using (mem_filter.mp hc).2⟩
      have hnext : Scan held created wave (i + 1) present'
          (remaining.filter fun c => wave c.id ≠ i) := by
        refine ⟨fun c hc => hscan.mem c (mem_of_mem_filter hc), hscan.sorted.filter _,
          fun c hc => ?_, fun c hc hle => .inl ?_, fun id => ?_⟩
        · have hlate := hscan.late c (mem_of_mem_filter hc)
          have hpassed : wave c.id ≠ i := by simpa using (mem_filter.mp hc).2
          omega
        · refine mem_filter.mpr ⟨hall c hc (by omega), ?_⟩
          simp only [ne_eq, decide_not, Bool.not_eq_eq_eq_not, Bool.not_true, decide_eq_false_iff_not]
          omega
        · rw [hend.present]
          refine or_congr_right (exists_congr fun c => and_congr_right fun hc =>
            and_congr_right fun hid => ?_)
          subst hid
          constructor
          · rintro ⟨-, hle⟩
            refine ⟨fun hin => ?_, by omega⟩
            have hlate := hscan.late c (mem_of_mem_filter hin)
            have hpassed : wave c.id ≠ i := by simpa using (mem_filter.mp hin).2
            omega
          · rintro ⟨hnot, hle⟩
            refine ⟨not_mem_nil, ?_⟩
            by_contra hgt
            refine hnot (mem_filter.mpr ⟨hall c hc (by omega), ?_⟩)
            simp only [ne_eq, decide_not, Bool.not_eq_eq_eq_not, Bool.not_true,
              decide_eq_false_iff_not]
            omega
      refine pairwise_append.mpr ⟨?_, ih hnext ?_ (by omega), ?_⟩
      · refine (hscan.sorted.filter _).imp_of_mem fun ha hb hlt => .inr ⟨?_, hlt⟩
        rw [of_decide_eq_true (mem_filter.mp ha).2, of_decide_eq_true (mem_filter.mp hb).2]
      · intro c hc hle
        rcases hnext.rest c hc hle with hin | haft
        · exact hin
        · refine mem_filter.mpr ⟨hall c hc (by omega), ?_⟩
          simp only [ne_eq, decide_not, Bool.not_eq_eq_eq_not, Bool.not_true,
            decide_eq_false_iff_not]
          omega
      · intro a ha b hb
        have hb' := (orderCreationsFrom_perm _ _ _).mem_iff.mp hb
        have hlate := hnext.late b hb'
        have hturn : wave a.id = i := by simpa using (mem_filter.mp ha).2
        exact .inl (by omega)

end Waves

theorem mem_created_iff {before after : ShardView} {channel : Channel} :
    channel ∈ created before after ↔
      after.channels.get? channel.id = some channel ∧ arrives before after channel.id = true := by
  rw [created, mem_filterMap]
  constructor
  · rintro ⟨new, hnew, hpick⟩
    have hget := get?_of_mem hnew
    cases hold : before.channels.get? new.id with
    | none =>
      simp only [hold, some.injEq] at hpick
      subst hpick
      exact ⟨hget, by simp [arrives, hget, hold]⟩
    | some old =>
      simp only [hold] at hpick
      split_ifs at hpick with hsc
      simp only [some.injEq] at hpick
      subst hpick
      exact ⟨hget, by simp [arrives, hget, hold, hsc]⟩
  · rintro ⟨hget, harrives⟩
    refine ⟨channel, mem_of_get? hget, ?_⟩
    cases hold : before.channels.get? channel.id with
    | none => rfl
    | some old =>
      have hsc : old.scope ≠ channel.scope := by simpa [arrives, hget, hold] using harrives
      simp [hsc]

theorem created_sorted (before after : ShardView) :
    (created before after).Pairwise fun a b => a.id < b.id := by
  refine pairwise_filterMap.mpr (after.channels.sorted.imp ?_)
  intro a b hlt a' ha b' hb
  have hfst : a = a' := by
    split at ha
    · split_ifs at ha
      exact some.inj ha
    · exact some.inj ha
  have hsec : b = b' := by
    split at hb
    · split_ifs at hb
      exact some.inj hb
    · exact some.inj hb
  rwa [← hfst, ← hsec]

section Tree

variable {before after : ShardView} (hroot : after.RootFirst) (hacy : Acyclic after.above)

include hroot

theorem above_of_needs (h : needs before after id = some p) : after.above id = some p := by
  obtain ⟨hpar, hcond⟩ := filter_eq_some_iff.mp h
  obtain ⟨channel, hget, rfl⟩ := map_eq_some_iff.mp hpar
  refine above_eq_some_iff.mpr ⟨?_, channel, hget, rfl⟩
  rintro rfl
  rw [hroot channel hget] at hcond
  simp at hcond

include hacy

theorem waits_of_needs (h : needs before after id = some p) :
    waits before after id = waits before after p + if id < p then 1 else 0 := by
  have habove : ∀ k j, needs before after k = some j → after.above k = some j :=
    fun _ _ hk => above_of_needs hroot hk
  have hends := (hacy.mono habove).ends (fun k j hk => mem_of_above (habove k j hk)) id
  rw [length_map] at hends
  have hend : walk (needs before after) after.channels.rows.length p = none := by
    simpa only [walk, h, bind_some] using hends
  rw [waits, toll_of_some h, toll_succ hend, Nat.add_comm]

theorem precedes_of_needs (h : needs before after id = some p)
    (hp : after.channels.contains p = true) : precedes before after p id := by
  have hwaits := waits_of_needs hroot hacy h
  have hne : p ≠ id := by
    rintro rfl
    exact hacy p 1 one_pos (by simpa [walk] using above_of_needs hroot h)
  obtain ⟨parent, hpar⟩ := contains_iff.mp hp
  obtain ⟨-, hcond⟩ := filter_eq_some_iff.mp h
  have hold : before.channels.get? p = none := by
    rw [← contains_eq_false_iff]
    simpa [hne] using hcond
  have harrives : arrives before after p = true := by simp [arrives, hpar, hold]
  simp only [precedes, passOf, harrives, if_true]
  split_ifs with hid
  · split_ifs at hwaits with hlt
    · exact .inl (WithTop.coe_lt_coe.mpr (by omega))
    · refine .inr ⟨by rw [hwaits, Nat.add_zero], lt_of_le_of_ne (not_lt.mp hlt) hne⟩
  · exact .inl (WithTop.coe_lt_top _)

variable (hpar : ∀ id channel, after.channels.get? id = some channel →
  after.channels.contains channel.parent = true)

include hpar

theorem waves : Waves before.channels.contains (created before after) (waits before after) := by
  refine ⟨fun channel hmem hfst => ?_, fun channel hmem hne hheld => ?_⟩
  · obtain ⟨hget, -⟩ := mem_created_iff.mp hmem
    refine toll_of_none ?_ _
    rw [needs, parentOf, hget, map_some, filter_some]
    rcases hfst with hself | hheld
    · simp [hself]
    · simp [hheld]
  · obtain ⟨hget, -⟩ := mem_created_iff.mp hmem
    obtain ⟨parent, hfnd⟩ := contains_iff.mp (hpar _ _ hget)
    refine ⟨⟨parent, mem_created_iff.mpr ⟨?_, ?_⟩, key_of_get? hfnd⟩, waits_of_needs hroot hacy ?_⟩
    · rw [key_of_get? hfnd]
      exact hfnd
    · rw [key_of_get? hfnd]
      simp [arrives, hfnd, contains_eq_false_iff.mp hheld]
    · rw [needs, parentOf, hget, map_some, filter_some]
      simp [hne, hheld]

theorem orderCreations_sorted :
    (orderCreations (created before after) before.channels).Pairwise
      fun a b => precedes before after a.id b.id := by
  have hwaves : Waves before.channels.contains (created before after) (waits before after) :=
    waves hroot hacy hpar
  have hpresent : ∀ id, (ofList (before.channels.rows.map Channel.id) :
      OrderedSet ChannelId).contains id = true ↔ before.channels.contains id = true := by
    intro id
    rw [ofList, OrderedSet.contains_foldl_insert]
    simp only [OrderedSet.contains_empty, Bool.or_false, decide_eq_true_eq, mem_map]
    constructor
    · rintro ⟨channel, hmem, rfl⟩
      exact contains_iff.mpr ⟨channel, get?_of_mem hmem⟩
    · intro hctn
      obtain ⟨channel, hget⟩ := contains_iff.mp hctn
      exact ⟨channel, mem_of_get? hget, key_of_get? hget⟩
  have hscan : Waves.Scan before.channels.contains (created before after) (waits before after) 0
      (ofList (before.channels.rows.map Channel.id)) (created before after) := by
    refine ⟨fun _ hc => hc, created_sorted before after, fun _ _ => Nat.zero_le _,
      fun _ hc _ => .inl hc, fun id => ?_⟩
    rw [hpresent]
    refine ⟨.inl, ?_⟩
    rintro (hheld | ⟨channel, hmem, -, hnot, -⟩)
    · exact hheld
    · exact absurd hmem hnot
  refine (hwaves.orderCreationsFrom_inTurn hscan (fun _ hc _ => hc) le_rfl).imp_of_mem ?_
  intro a b ha hb hturn
  have harrives : ∀ c ∈ orderCreationsFrom (created before after).length
      (ofList (before.channels.rows.map Channel.id)) (created before after),
      arrives before after c.id = true :=
    fun c hc => (mem_created_iff.mp ((orderCreationsFrom_perm _ _ _).mem_iff.mp hc)).2
  simp only [precedes, passOf, harrives a ha, harrives b hb, if_true]
  rcases hturn with hlt | ⟨heq, hlt⟩
  · exact .inl (WithTop.coe_lt_coe.mpr hlt)
  · exact .inr ⟨by rw [heq], hlt⟩

end Tree

section Depth

variable {view : ShardView} (hacy : Acyclic view.above)

include hacy

theorem depthFrom_eq_toll (fuel : ℕ) {met : List ChannelId} {current : ChannelId}
    (hmet : ∀ id ∈ met, ∃ n, 0 < n ∧ walk view.above n id = some current) :
    depthFrom view.channels fuel met current = toll view.above (fun _ _ => 1) fuel current := by
  induction fuel generalizing met current with
  | zero => rfl
  | succ fuel ih =>
    have hnew : current ∉ met := by
      intro hin
      obtain ⟨n, hn, hcircle⟩ := hmet current hin
      exact hacy current n hn hcircle
    by_cases hroot : current = rootChannel
    · rw [toll_of_none (by simp [above, hroot])]
      simp [depthFrom, hroot]
    · cases hget : view.channels.get? current with
      | none =>
        rw [toll_of_none (by simp [above, hroot, parentOf, hget])]
        simp [depthFrom, hget]
      | some channel =>
        have habove : view.above current = some channel.parent :=
          above_eq_some_iff.mpr ⟨hroot, channel, hget, rfl⟩
        have hnext : ∀ id ∈ current :: met, ∃ n, 0 < n ∧
            walk view.above n id = some channel.parent := by
          intro id hid
          rcases mem_cons.mp hid with rfl | hin
          · exact ⟨1, one_pos, by simp [walk, habove]⟩
          · obtain ⟨n, -, hwalk⟩ := hmet id hin
            exact ⟨n + 1, n.succ_pos, by rw [walk_succ, hwalk]; exact habove⟩
        rw [toll_of_some habove, ← ih hnext, Nat.add_comm 1]
        simp [depthFrom, hroot, hnew, hget]

theorem depthIn_of_above (h : view.above id = some p) : depthIn view id = depthIn view p + 1 := by
  have hends := above_ends hacy id
  have hend : walk view.above view.channels.rows.length p = none := by
    simpa only [walk, h, bind_some] using hends
  rw [depthIn, depthIn, depthFrom_eq_toll hacy _ (by simp), depthFrom_eq_toll hacy _ (by simp),
    toll_of_some h, toll_succ hend, Nat.add_comm]

end Depth

theorem deeperFirst_total (depth : ChannelId → ℕ) (a b : ChannelId) :
    deeperFirst depth a b ∨ deeperFirst depth b a := by
  rcases lt_trichotomy (depth a) (depth b) with hlt | heq | hgt
  · exact .inr (.inl hlt)
  · rcases le_total a b with hle | hle
    · exact .inl (.inr ⟨heq.symm, hle⟩)
    · exact .inr (.inr ⟨heq, hle⟩)
  · exact .inl (.inl hgt)

theorem deeperFirst_trans {depth : ChannelId → ℕ} {a b c : ChannelId}
    (hab : deeperFirst depth a b) (hbc : deeperFirst depth b c) : deeperFirst depth a c := by
  rcases hab with hab | ⟨hab, hle⟩
  · rcases hbc with hbc | ⟨hbc, -⟩
    · exact .inl (hbc.trans hab)
    · exact .inl (hbc ▸ hab)
  · rcases hbc with hbc | ⟨hbc, hle'⟩
    · exact .inl (hab ▸ hbc)
    · exact .inr ⟨hbc.trans hab, hle.trans hle'⟩

theorem insertionSort_deeperFirst {α : Type*} (depth : ChannelId → ℕ) (key : α → ChannelId)
    (removed : List α) :
    (removed.insertionSort fun left right => deeperFirst depth (key left) (key right)).Pairwise
      fun left right => deeperFirst depth (key left) (key right) := by
  have htotal : Std.Total fun left right : α => deeperFirst depth (key left) (key right) :=
    ⟨fun _ _ => deeperFirst_total depth _ _⟩
  have htrans : IsTrans α fun left right => deeperFirst depth (key left) (key right) :=
    ⟨fun _ _ _ => deeperFirst_trans⟩
  exact pairwise_insertionSort _ _

theorem orderRemovals_sorted (removed : List (ChannelId × Scope)) (before : ShardView) :
    (orderRemovals removed before).Pairwise
      fun left right => deeperFirst (depthIn before) left.1 right.1 :=
  insertionSort_deeperFirst (depthIn before) Prod.fst removed

end Plan

end MumbleRuntime
