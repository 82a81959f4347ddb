import Mathlib.Algebra.BigOperators.Fin
import Mathlib.Algebra.Group.Fin.Basic
import Mathlib.Algebra.Group.Units.Equiv
import MumbleRuntime.Library.Transition
import MumbleRuntime.Limits

/-!
# The bandwidth window

Along a run of calls, slot by slot, the ring holds what was billed in each of the last ten
buckets. The figure it gives is what the packets of the last second were billed, to a
tenth of a second. This needs that no packet arrives so long after the current bucket
started that the saturated number of steps leaves the ring just short of the present.
-/

namespace MumbleRuntime

open Library (Reaches)
open List

/-- A budget, the time of the last call on it, and the packets it has let through: when,
and how large with the overhead. -/
structure Meter where
  budget : VoiceBudget
  clock : ℕ
  packets : List (ℕ × ℕ)

inductive MeterCall where
  | allow (delay bytes : ℕ)
  | bandwidth (delay : ℕ)

namespace Meter

def new (start : ℕ) : Meter := ⟨.new start, start, []⟩

def step (meter : Meter) : MeterCall → Option Meter
  | .allow delay bytes =>
    let now := meter.clock + delay
    some ⟨(meter.budget.allow now bytes).2, now,
      if (meter.budget.allow now bytes).1 then meter.packets ++ [(now, bytes + packetOverhead)]
      else meter.packets⟩
  | .bandwidth delay =>
    some ⟨(meter.budget.bandwidth (meter.clock + delay)).2, meter.clock + delay, meter.packets⟩

end Meter

/-- The number of steps is saturated, and `now` still lies within a window of where that
many buckets lead. -/
def VoiceBudget.Overdue (budget : VoiceBudget) (now : ℕ) : Prop :=
  u32Max < budget.steps now ∧ now - (budget.bucketStarted + bucketSpan * u32Max) ≤ window

/-- No packet arrives while the ring is overdue. -/
def Punctual (meter : Meter) : MeterCall → Prop
  | .allow delay _ => ¬meter.budget.Overdue (meter.clock + delay)
  | .bandwidth _ => True

/-- The figure is the saturated sum of packets that include those of the last 900 ms and
none from 1000 ms ago or before. -/
def Windowed (packets : List (ℕ × ℕ)) (now figure : ℕ) : Prop :=
  ∃ since, figure = min ((packets.filter (since ≤ ·.1)).map Prod.snd).sum u32Max ∧
    ∀ packet ∈ packets, (now ≤ packet.1 + fromMillis 900 → since ≤ packet.1) ∧
      (packet.1 + fromMillis 1000 ≤ now → packet.1 < since)

/-! ### Ages and slots -/

def age (started time : ℕ) : ℕ := (started + bucketSpan - 1 - time) / bucketSpan

def billedAt (started : ℕ) (packets : List (ℕ × ℕ)) (slot : ℕ) : ℕ :=
  ((packets.filter (age started ·.1 = slot)).map Prod.snd).sum

section Ages

variable {started time steps slot : ℕ} {packets : List (ℕ × ℕ)}

theorem bucketSpan_eq : bucketSpan = 100000000 := rfl

theorem age_shift (hearly : time < started + bucketSpan) :
    age (started + bucketSpan * steps) time = age started time + steps := by
  have hspl : started + bucketSpan * steps + bucketSpan - 1 - time =
      started + bucketSpan - 1 - time + bucketSpan * steps := by omega
  rw [age, hspl, Nat.add_mul_div_left _ _ (by decide)]
  rfl

theorem age_lt : age started time < 10 ↔ started ≤ time + bucketSpan * 9 := by
  rw [age, Nat.div_lt_iff_lt_mul (by decide), bucketSpan_eq]
  omega

theorem billedAt_eq_zero (h : ∀ packet ∈ packets, age started packet.1 ≠ slot) :
    billedAt started packets slot = 0 := by
  rw [billedAt, filter_eq_nil_iff.mpr (by simpa using h)]
  rfl

theorem billedAt_shift (hearly : ∀ packet ∈ packets, packet.1 < started + bucketSpan) :
    billedAt (started + bucketSpan * steps) packets (slot + steps) = billedAt started packets slot := by
  unfold billedAt
  congr 2
  refine filter_congr fun packet hpacket => ?_
  rw [age_shift (hearly packet hpacket), decide_eq_decide]
  omega

theorem sum_billedAt (bucket : Fin 10) :
    ∑ slot : Fin 10, billedAt started packets (bucket - slot).val =
      ((packets.filter (started - bucketSpan * 9 ≤ ·.1)).map Prod.snd).sum := by
  have hturn := Equiv.sum_comp (Equiv.subLeft bucket) fun slot => billedAt started packets slot.val
  simp only [Equiv.subLeft_apply] at hturn
  rw [hturn]
  clear hturn
  induction packets with
  | nil => rfl
  | cons packet rest ih =>
    have hone : ∑ slot : Fin 10, (if age started packet.1 = slot.val then packet.2 else 0) =
        if started - bucketSpan * 9 ≤ packet.1 then packet.2 else 0 := by
      rw [Fin.sum_univ_eq_sum_range fun slot => if age started packet.1 = slot then packet.2 else 0,
        Finset.sum_ite_eq]
      simp only [Finset.mem_range, age_lt, Nat.sub_le_iff_le_add]
    have hcons : ∀ slot, billedAt started (packet :: rest) slot =
        (if age started packet.1 = slot then packet.2 else 0) + billedAt started rest slot := by
      intro slot
      rw [billedAt, billedAt, filter_cons]
      simp only [decide_eq_true_eq]
      split_ifs <;> simp
    simp only [hcons, Finset.sum_add_distrib, hone, ih, filter_cons, decide_eq_true_eq]
    split_ifs <;> simp

theorem foldl_saturating {α : Type*} {part whole : α → ℕ}
    (hpart : ∀ a, part a = min (whole a) u32Max) (l : List α) (total : ℕ) :
    l.foldl (fun total a => min (total + part a) u32Max) (min total u32Max) =
      min (total + (l.map whole).sum) u32Max := by
  induction l generalizing total with
  | nil => rfl
  | cons a rest ih =>
    have hnext : min (min total u32Max + part a) u32Max = min (total + whole a) u32Max := by
      rw [hpart]
      omega
    rw [foldl_cons, hnext, ih, map_cons, sum_cons, Nat.add_assoc]

theorem sub_val (bucket slot : Fin 10) :
    (bucket - slot).val = (bucket.val + 10 - slot.val) % 10 := by
  rw [Fin.sub_def]
  dsimp only
  omega

theorem add_val (bucket : Fin 10) (steps : ℕ) :
    (bucket + Fin.ofNat 10 steps).val = (bucket.val + steps) % 10 := by
  rw [Fin.val_add, Fin.val_ofNat]
  omega

theorem foldl_clear (billed : Fin 10 → ℕ) (bucket slot : Fin 10) (hsteps : steps < 10) :
    (range steps).foldl
        (fun billed step => Function.update billed (bucket + Fin.ofNat 10 (step + 1)) 0) billed slot =
      if (bucket - slot).val + steps < 10 then billed slot else 0 := by
  induction steps with
  | zero => exact (if_pos (bucket - slot).isLt).symm
  | succ steps ih =>
    rw [range_succ, foldl_append, foldl_cons, foldl_nil, Function.update_apply,
      ih (Nat.lt_of_succ_lt hsteps)]
    have hslot : slot = bucket + Fin.ofNat 10 (steps + 1) ↔ (bucket - slot).val + steps = 9 := by
      rw [Fin.ext_iff, add_val, sub_val]
      omega
    split_ifs <;> first | rfl | omega

end Ages

/-! ### The ring along a run -/

structure VoiceBudget.Metered (budget : VoiceBudget) (packets : List (ℕ × ℕ)) : Prop where
  early : ∀ packet ∈ packets, packet.1 < budget.bucketStarted + bucketSpan
  billed : ∀ slot, budget.billed slot =
    min (billedAt budget.bucketStarted packets (budget.bucket - slot).val) u32Max

namespace VoiceBudget

variable {budget : VoiceBudget} {packets : List (ℕ × ℕ)} {now : ℕ}

theorem steps_eq : budget.steps now = (now - budget.bucketStarted) / bucketSpan := by
  simp only [steps, asMillis, bucketSpan, fromMillis]
  omega

theorem moved_le (hstarted : budget.bucketStarted ≤ now) : budget.moved now ≤ now := by
  have hsteps := Nat.mul_div_le (now - budget.bucketStarted) bucketSpan
  have hmin := Nat.mul_le_mul_left bucketSpan (min_le_left (budget.steps now) u32Max)
  rw [← steps_eq] at hsteps
  unfold moved
  omega

theorem anchor_cases : budget.anchor now = now ∧ budget.moved now + window < now ∨
    budget.anchor now = budget.moved now ∧ now ≤ budget.moved now + window := by
  unfold anchor
  split_ifs <;> omega

theorem lt_anchor (hpunctual : ¬budget.Overdue now) : now < budget.anchor now + bucketSpan := by
  have hsteps := @steps_eq budget now
  have hanchor := @anchor_cases budget now
  rw [Overdue, not_and_or, not_lt, not_le] at hpunctual
  simp only [moved, bucketSpan_eq, u32Max] at hsteps hanchor hpunctual ⊢
  omega

theorem roll_bucketStarted : (budget.roll now).bucketStarted =
    if budget.steps now = 0 then budget.bucketStarted else budget.anchor now := by
  unfold roll
  split_ifs <;> rfl

/-- The ring is at `now`, or has left every packet behind. -/
theorem roll_near (hstarted : budget.bucketStarted ≤ now) :
    (budget.roll now).bucketStarted ≤ now ∧
      (now < (budget.roll now).bucketStarted + bucketSpan ∨ budget.Overdue now ∧
        budget.bucketStarted + bucketSpan * 10 ≤ (budget.roll now).bucketStarted) := by
  have hsteps := @steps_eq budget now
  rw [roll_bucketStarted]
  split_ifs with hnone
  · rw [hnone, eq_comm, Nat.div_eq_zero_iff] at hsteps
    exact ⟨hstarted, .inl (by have := bucketSpan_eq; omega)⟩
  · have hanchor := @anchor_cases budget now
    have hmoved := moved_le hstarted
    refine ⟨by omega, ?_⟩
    by_cases hoverdue : budget.Overdue now
    · have hmore := Nat.mul_le_mul_left bucketSpan (show 10 ≤ u32Max by decide)
      rw [moved, min_eq_right hoverdue.1.le] at hanchor
      exact .inr ⟨hoverdue, by omega⟩
    · exact .inl (lt_anchor hoverdue)

theorem Metered.roll (h : budget.Metered packets) : (budget.roll now).Metered packets := by
  have hanchor : budget.bucketStarted + bucketSpan * min (budget.steps now) u32Max ≤ budget.anchor now := by
    have hcases := @anchor_cases budget now
    rw [moved] at hcases
    omega
  have hearly : ∀ packet ∈ packets, packet.1 < budget.anchor now + bucketSpan := fun packet hpacket =>
    (h.early packet hpacket).trans_le (by omega)
  unfold VoiceBudget.roll
  split_ifs with hnone hmany
  · exact h
  · have hmore := Nat.mul_le_mul_left bucketSpan
      (show 10 ≤ min (budget.steps now) u32Max from le_min hmany (by decide))
    refine ⟨hearly, fun slot => ?_⟩
    rw [billedAt_eq_zero]
    · rfl
    · intro packet hpacket hage
      have hold := h.early packet hpacket
      have hlt := age_lt.mp (hage ▸ (0 - slot : Fin 10).isLt)
      dsimp only at hlt
      omega
  · have hless : budget.steps now < 10 := not_le.mp hmany
    have heq : budget.anchor now = budget.bucketStarted + bucketSpan * budget.steps now := by
      have hsteps := @steps_eq budget now
      have hcases := @anchor_cases budget now
      rw [moved, min_eq_left (hless.le.trans (by decide)), show window = 1000000000 from rfl] at hcases
      rw [bucketSpan_eq] at hsteps hcases ⊢
      omega
    refine ⟨hearly, fun slot => ?_⟩
    dsimp only
    rw [foldl_clear _ _ _ hless, heq, sub_val (budget.bucket + _), add_val]
    split_ifs with hkept
    · rw [show ((budget.bucket.val + budget.steps now) % 10 + 10 - slot.val) % 10 =
        (budget.bucket - slot).val + budget.steps now by omega, billedAt_shift h.early, h.billed]
    · rw [billedAt_eq_zero, Nat.zero_min]
      intro packet hpacket hage
      rw [age_shift (h.early packet hpacket)] at hage
      omega

variable (h : budget.Metered packets) (hstarted : budget.bucketStarted ≤ now)

include h hstarted in
theorem Metered.add (hnow : now < budget.bucketStarted + bucketSpan) (bytes : ℕ) :
    { budget with
      billed := Function.update budget.billed budget.bucket
        (min (budget.billed budget.bucket + billedSize bytes) u32Max)
      lastActive := now }.Metered (packets ++ [(now, bytes + packetOverhead)]) := by
  have hage : age budget.bucketStarted now = 0 := by
    rw [age, Nat.div_eq_zero_iff, bucketSpan_eq]
    omega
  refine ⟨?_, fun slot => ?_⟩
  · rintro packet hpacket
    rcases mem_append.mp hpacket with hold | hnew
    · exact h.early packet hold
    · rw [mem_singleton.mp hnew]
      exact hnow
  · have happend : ∀ slot, billedAt budget.bucketStarted (packets ++ [(now, bytes + packetOverhead)]) slot =
        billedAt budget.bucketStarted packets slot + if slot = 0 then bytes + packetOverhead else 0 := by
      intro slot
      rw [billedAt, filter_append, map_append, sum_append, filter_cons, hage]
      by_cases hslot : slot = 0
      · simp [hslot, billedAt]
      · simp [hslot, Ne.symm hslot, billedAt]
    dsimp only
    rw [happend]
    by_cases hslot : slot = budget.bucket
    · subst hslot
      rw [Function.update_self, h.billed, Fin.sub_self, billedSize]
      simp only [Fin.val_zero, if_true]
      generalize u32Max = limit
      omega
    · have hoth : (budget.bucket - slot).val ≠ 0 := by
        omega
      rw [Function.update_of_ne hslot, h.billed, if_neg hoth, Nat.add_zero]

theorem Metered.refill (h : budget.Metered packets) : (budget.refill now).Metered packets := by
  unfold VoiceBudget.refill
  split_ifs
  · exact h
  · exact ⟨h.early, h.billed⟩

theorem refill_bucketStarted : (budget.refill now).bucketStarted = budget.bucketStarted := by
  unfold refill
  split_ifs <;> rfl

include h hstarted in
theorem Metered.allow (hpunctual : ¬budget.Overdue now) (bytes : ℕ) :
    (budget.allow now bytes).2.Metered
        (if (budget.allow now bytes).1 then packets ++ [(now, bytes + packetOverhead)] else packets) ∧
      (budget.allow now bytes).2.bucketStarted ≤ now := by
  have hsame := @refill_bucketStarted budget now
  have hrefilled : (budget.refill now).Metered packets := h.refill
  unfold VoiceBudget.allow
  generalize budget.refill now = refilled at hsame hrefilled
  by_cases hnone : refilled.tokens = 0
  · simp only [hnone, if_true]
    exact ⟨hrefilled, hsame.trans_le hstarted⟩
  · have htkn : { refilled with tokens := refilled.tokens - 1 }.Metered packets :=
      ⟨hrefilled.early, hrefilled.billed⟩
    obtain ⟨hle, hnear⟩ := @roll_near { refilled with tokens := refilled.tokens - 1 } now
      (hsame.trans_le hstarted)
    have hdue : ¬({ refilled with tokens := refilled.tokens - 1 } : VoiceBudget).Overdue now := by
      simpa only [Overdue, steps, hsame] using hpunctual
    simp only [hnone, if_false, if_true]
    exact ⟨htkn.roll.add hle (hnear.resolve_right fun hover => hdue hover.1) bytes, hle⟩

include h hstarted in
theorem Metered.windowed : Windowed packets now (budget.bandwidth now).1 := by
  have hrolled : (budget.roll now).Metered packets := h.roll
  obtain ⟨hle, hnear⟩ := roll_near hstarted
  refine ⟨(budget.roll now).bucketStarted - bucketSpan * 9, ?_, fun packet hpacket => ⟨?_, ?_⟩⟩
  · have hfold := foldl_saturating hrolled.billed (finRange 10) 0
    rw [Nat.zero_add, ← Fin.sum_univ_def, sum_billedAt] at hfold
    exact hfold
  · intro hrecent
    simp only [bucketSpan, fromMillis] at hrecent ⊢
    omega
  · intro hold
    have hearly := h.early packet hpacket
    simp only [bucketSpan, fromMillis] at hold hnear hearly ⊢
    omega

end VoiceBudget

theorem Meter.metered {start : ℕ} {meter : Meter}
    (h : Reaches Meter.step Punctual (.new start) meter) :
    meter.budget.Metered meter.packets ∧ meter.budget.bucketStarted ≤ meter.clock := by
  refine h.invariant (P := fun meter => meter.budget.Metered meter.packets ∧
    meter.budget.bucketStarted ≤ meter.clock)
    ⟨⟨by simp [Meter.new], fun slot => rfl⟩, le_refl start⟩ fun meter call next hmeter hpunctual hstep => ?_
  obtain ⟨hmetered, hstarted⟩ := hmeter
  cases call with
  | allow delay bytes =>
    cases hstep
    exact hmetered.allow (hstarted.trans (Nat.le_add_right _ _)) hpunctual bytes
  | bandwidth delay =>
    cases hstep
    exact ⟨hmetered.roll, (VoiceBudget.roll_near (hstarted.trans (Nat.le_add_right _ _))).1⟩

/-- In every run in which no packet arrives while the ring is overdue, the figure at every
later time is that of the packets of the last second. -/
theorem bandwidth_windowed {start : ℕ} {meter : Meter}
    (h : Reaches Meter.step Punctual (.new start) meter) (delay : ℕ) :
    Windowed meter.packets (meter.clock + delay)
      (meter.budget.bandwidth (meter.clock + delay)).1 :=
  (Meter.metered h).1.windowed ((Meter.metered h).2.trans (Nat.le_add_right _ _))

/-- A packet of ten bytes is in the figure 850 milliseconds after it. -/
theorem bandwidth_windowed_packet :
    let meter : Meter := ((Meter.new 0).step (.allow (fromMillis 50) 10)).getD (.new 0)
    Windowed meter.packets (meter.clock + fromMillis 850)
        (meter.budget.bandwidth (meter.clock + fromMillis 850)).1 ∧
      (meter.budget.bandwidth (meter.clock + fromMillis 850)).1 = 42 :=
  ⟨bandwidth_windowed (.step (a := .allow (fromMillis 50) 10) .start
      (by unfold Punctual VoiceBudget.Overdue; decide +kernel) rfl) _,
    by decide +kernel⟩

/-- After a silence of 2 ^ 32 - 1 buckets and 600 milliseconds, a packet is forgotten 400
milliseconds after it was let through. -/
theorem packet_forgotten :
    let meter : Meter := ((Meter.new 0).step
      (.allow (fromMillis ((2 ^ 32 - 1) * 100 + 600)) 0)).getD (.new 0)
    Reaches Meter.step (fun _ _ => True) (.new 0) meter ∧
      ¬Windowed meter.packets (meter.clock + fromMillis 400)
        (meter.budget.bandwidth (meter.clock + fromMillis 400)).1 := by
  intro meter
  refine ⟨.step (a := .allow (fromMillis ((2 ^ 32 - 1) * 100 + 600)) 0) .start trivial rfl, ?_⟩
  rintro ⟨since, hfigure, hall⟩
  have hpackets : meter.packets = [(fromMillis ((2 ^ 32 - 1) * 100 + 600), 32)] := by decide +kernel
  have hclock : meter.clock = fromMillis ((2 ^ 32 - 1) * 100 + 600) := by decide +kernel
  have hnone : (meter.budget.bandwidth (meter.clock + fromMillis 400)).1 = 0 := by decide +kernel
  rw [hpackets] at hall hfigure
  have hrecent := (hall _ (List.mem_singleton_self _)).1 (by rw [hclock]; decide)
  rw [hnone, List.filter_cons_of_pos (by simpa using hrecent)] at hfigure
  simp [u32Max] at hfigure

end MumbleRuntime
