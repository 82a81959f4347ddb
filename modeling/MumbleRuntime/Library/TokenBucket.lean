import Mathlib.Data.List.Count
import Mathlib.Tactic.Ring

/-!
# Buckets that fill with time

A bucket holds at most `burst` tokens. A call earns tokens for the time since the
bucket was last filled, and fills it if it earned any; then it takes a token if there
is one. Calls are given by the delays between them. If a token takes `period` to earn,
the calls of any interval that find one are at most the burst and the tokens of the
interval, rounded up. What is earned in all is the time divided by the period only if
what the fillings leave over never makes up a token.
-/

namespace MumbleRuntime.Library

open List Nat

structure Bucket where
  tokens : ℕ
  idle : ℕ

namespace Bucket

section Serving

variable (burst : ℕ) (earn : ℕ → ℕ)

def fill (bucket : Bucket) (delay : ℕ) : Bucket :=
  if earn (bucket.idle + delay) = 0 then { bucket with idle := bucket.idle + delay }
  else ⟨min (bucket.tokens + earn (bucket.idle + delay)) burst, 0⟩

def take (bucket : Bucket) : Bucket := { bucket with tokens := bucket.tokens - 1 }

/-- The times of the calls that find a token. -/
def served : Bucket → ℕ → List ℕ → List ℕ
  | _, _, [] => []
  | bucket, clock, delay :: rest =>
    let later := (bucket.fill burst earn delay).take.served (clock + delay) rest
    if (bucket.fill burst earn delay).tokens = 0 then later else (clock + delay) :: later

variable {burst earn} {bucket : Bucket} {clock delay : ℕ} {delays : List ℕ}

theorem served_cons : bucket.served burst earn clock (delay :: delays) =
    if (bucket.fill burst earn delay).tokens = 0 then
      (bucket.fill burst earn delay).take.served burst earn (clock + delay) delays
    else (clock + delay) :: (bucket.fill burst earn delay).take.served burst earn (clock + delay) delays :=
  rfl

theorem le_of_mem_served {time : ℕ} (h : time ∈ bucket.served burst earn clock delays) :
    clock ≤ time := by
  induction delays generalizing bucket clock with
  | nil => cases h
  | cons delay rest ih =>
    rw [served_cons] at h
    split_ifs at h with hnone
    · exact (le_add_right _ _).trans (ih h)
    · rcases mem_cons.mp h with rfl | hrest
      · exact le_add_right _ _
      · exact (le_add_right _ _).trans (ih hrest)

theorem countP_served_le (test : ℕ → Bool) :
    (bucket.served burst earn clock (delay :: delays)).countP test +
        (bucket.fill burst earn delay).take.tokens ≤
      ((bucket.fill burst earn delay).take.served burst earn (clock + delay) delays).countP test +
        (bucket.fill burst earn delay).tokens := by
  have htake : (bucket.fill burst earn delay).take.tokens = (bucket.fill burst earn delay).tokens - 1 :=
    rfl
  rw [served_cons]
  split_ifs with hnone
  · omega
  · rw [countP_cons]
    split_ifs <;> omega

theorem countP_of_late {stop : ℕ} (hlate : stop < clock) {test : ℕ → Bool}
    (htest : ∀ time, test time = true → time ≤ stop) :
    (bucket.served burst earn clock delays).countP test = 0 :=
  countP_eq_zero.mpr fun time htime htrue =>
    absurd (htest time htrue) (not_le.mpr (hlate.trans_le (le_of_mem_served htime)))

/-- A bucket that will earn nothing more serves no more calls than it has tokens. -/
theorem countP_of_dry (hdry : ∀ elapsed, bucket.idle ≤ elapsed → earn elapsed = 0)
    (test : ℕ → Bool) : (bucket.served burst earn clock delays).countP test ≤ bucket.tokens := by
  induction delays generalizing bucket clock with
  | nil => exact zero_le _
  | cons delay rest ih =>
    have hsame : bucket.fill burst earn delay = { bucket with idle := bucket.idle + delay } :=
      if_pos (hdry _ (le_add_right _ _))
    have hcnt := @countP_served_le burst earn bucket clock delay rest test
    have hrest := @ih (bucket.fill burst earn delay).take (clock + delay)
      (by rw [hsame]; exact fun elapsed hle => hdry elapsed ((le_add_right _ _).trans hle))
    rw [hsame] at hcnt hrest
    exact le_of_add_le_add_right (hcnt.trans (by simp only; omega))

variable {period : ℕ} (hearn : ∀ elapsed, period * earn elapsed ≤ elapsed)

include hearn

theorem fill_potential :
    period * (bucket.fill burst earn delay).tokens + (bucket.fill burst earn delay).idle ≤
      period * bucket.tokens + (bucket.idle + delay) := by
  have hrate := hearn (bucket.idle + delay)
  unfold fill
  split_ifs with hnone
  · exact le_refl _
  · have hle := mul_le_mul_left period
      (min_le_left (bucket.tokens + earn (bucket.idle + delay)) burst)
    rw [mul_add] at hle
    dsimp only
    omega

/-- Up to a time the calls served cost what is there and what is earned by then. -/
theorem count_until {stop : ℕ} (hstop : clock ≤ stop) :
    period * (bucket.served burst earn clock delays).countP (· ≤ stop) ≤
      period * bucket.tokens + bucket.idle + (stop - clock) := by
  induction delays generalizing bucket clock with
  | nil => exact zero_le _
  | cons delay rest ih =>
    have hcnt := mul_le_mul_left period
      (@countP_served_le burst earn bucket clock delay rest (· ≤ stop))
    rw [mul_add, mul_add] at hcnt
    by_cases hlate : clock + delay ≤ stop
    · have hfill := @fill_potential burst earn bucket delay period hearn
      have hrest := @ih (bucket.fill burst earn delay).take _ hlate
      have hidle : (bucket.fill burst earn delay).take.idle = (bucket.fill burst earn delay).idle := rfl
      omega
    · have hzero : (bucket.served burst earn clock (delay :: rest)).countP (· ≤ stop) = 0 := by
        rw [served_cons]
        have hlat := @countP_of_late burst earn (bucket.fill burst earn delay).take (clock + delay)
          rest stop (by omega) (· ≤ stop) (by simp)
        split_ifs
        · exact hlat
        · rw [countP_cons, hlat, if_neg (by simpa using hlate)]
      rw [hzero]
      exact zero_le _

/-- The calls served in an interval cost less than the burst, the interval and one token. -/
theorem count_within
    (hdry : ∀ elapsed, earn elapsed = 0 → elapsed < period ∨
      ∀ longer, elapsed ≤ longer → earn longer = 0)
    (hperiod : 0 < period) (hburst : bucket.tokens ≤ burst) (since span : ℕ) :
    period * (bucket.served burst earn clock delays).countP
        (fun time => since ≤ time ∧ time ≤ since + span) < period * burst + span + period := by
  induction delays generalizing bucket clock with
  | nil =>
    simp only [served, countP_nil]
    omega
  | cons delay rest ih =>
    have hfull : (bucket.fill burst earn delay).tokens ≤ burst := by
      unfold fill
      split_ifs
      · exact hburst
      · exact min_le_right _ _
    by_cases hearly : clock + delay < since
    · have hrest := @ih (bucket.fill burst earn delay).take (clock + delay)
        ((sub_le _ _).trans hfull)
      rw [served_cons]
      split_ifs
      · exact hrest
      · rwa [countP_cons_of_neg (by simp only [decide_eq_true_eq]; omega)]
    have hcnt := mul_le_mul_left period (@countP_served_le burst earn bucket clock delay rest
      (fun time => since ≤ time ∧ time ≤ since + span))
    have hfull' := mul_le_mul_left period hfull
    rw [mul_add, mul_add] at hcnt
    have hidle : (bucket.fill burst earn delay).take.idle < period ∨
        ∀ longer, (bucket.fill burst earn delay).take.idle ≤ longer → earn longer = 0 := by
      simp only [fill, take]
      split_ifs with hnone
      · exact hdry _ hnone
      · exact .inl hperiod
    rcases hidle with hidle | hnever
    · by_cases hlate : clock + delay ≤ since + span
      · have hrest := @count_until burst earn (bucket.fill burst earn delay).take (clock + delay) rest
          period hearn _ hlate
        have huntil := mul_le_mul_left period (countP_mono_left
          (l := (bucket.fill burst earn delay).take.served burst earn (clock + delay) rest)
          (p := fun time => since ≤ time ∧ time ≤ since + span) (q := (· ≤ since + span))
          fun time _ htime => by simp only [decide_eq_true_eq] at htime ⊢; exact htime.2)
        omega
      · have hlat := @countP_of_late burst earn (bucket.fill burst earn delay).take (clock + delay)
          rest (since + span) (by omega) (fun time => since ≤ time ∧ time ≤ since + span)
          fun time htime => by simp only [decide_eq_true_eq] at htime; exact htime.2
        rw [hlat] at hcnt
        omega
    · have hrest := mul_le_mul_left period (@countP_of_dry burst earn _ (clock + delay) rest hnever
        (fun time => since ≤ time ∧ time ≤ since + span))
      omega

end Serving

def earnings (earn : ℕ → ℕ) : ℕ → List ℕ → ℕ
  | _, [] => 0
  | idle, delay :: rest =>
    earn (idle + delay) + earnings earn (if earn (idle + delay) = 0 then idle + delay else 0) rest

/-- The times between fillings that come with the first call that has earned a token. -/
def gaps (period : ℕ) : ℕ → List ℕ → List ℕ
  | _, [] => []
  | idle, delay :: rest =>
    if idle + delay < period then gaps period (idle + delay) rest
    else (idle + delay) :: gaps period 0 rest

def leftover (period : ℕ) : ℕ → List ℕ → ℕ
  | idle, [] => idle
  | idle, delay :: rest =>
    if idle + delay < period then leftover period (idle + delay) rest
    else (idle + delay) % period + leftover period 0 rest

/-- Tokens are counted exactly up to `limit`; from there on some are lost. -/
structure Counts (earn : ℕ → ℕ) (period limit : ℕ) : Prop where
  period_pos : 0 < period
  period_le : period ≤ limit
  exact : ∀ elapsed < limit, earn elapsed = elapsed / period
  short : ∀ elapsed, limit ≤ elapsed → period * (earn elapsed + 1) ≤ elapsed
  dry : ∀ elapsed longer, limit ≤ elapsed → elapsed ≤ longer → earn elapsed = 0 → earn longer = 0

namespace Counts

variable {earn : ℕ → ℕ} {period limit : ℕ} (h : Counts earn period limit)

include h

theorem rate (elapsed : ℕ) : period * earn elapsed ≤ elapsed := by
  by_cases hlimit : elapsed < limit
  · rw [h.exact elapsed hlimit]
    exact mul_div_le _ _
  · exact (mul_le_mul_left _ (le_succ _)).trans (h.short elapsed (not_lt.mp hlimit))

theorem earn_of_short {elapsed : ℕ} (hshort : elapsed < period) : earn elapsed = 0 := by
  rw [h.exact _ (hshort.trans_le h.period_le), div_eq_of_lt hshort]

theorem earn_of_long {elapsed : ℕ} (hlong : ¬elapsed < period) (hlimit : elapsed < limit) :
    earn elapsed ≠ 0 := by
  rw [h.exact _ hlimit]
  exact (div_pos (not_lt.mp hlong) h.period_pos).ne'

variable {idle : ℕ} {delays : List ℕ}

theorem earnings_le : period * earnings earn idle delays ≤ idle + delays.sum := by
  induction delays generalizing idle with
  | nil => exact zero_le _
  | cons delay rest ih =>
    have hrate := h.rate (idle + delay)
    have hrest := @ih (if earn (idle + delay) = 0 then idle + delay else 0)
    simp only [earnings, sum_cons, mul_add]
    split_ifs at hrest ⊢ with hnone
    · rw [hnone]
      omega
    · omega

theorem earnings_lt {gap : ℕ} (hgap : gap ∈ gaps period idle delays) (hlimit : limit ≤ gap) :
    period * (earnings earn idle delays + 1) ≤ idle + delays.sum := by
  induction delays generalizing idle with
  | nil => cases hgap
  | cons delay rest ih =>
    rw [gaps] at hgap
    rw [sum_cons, ← add_assoc]
    split_ifs at hgap with hshort
    · simp only [earnings, h.earn_of_short hshort, if_true, zero_add]
      exact ih hgap
    by_cases hlong : idle + delay < limit
    · have hrate := h.rate (idle + delay)
      have hrest := ih ((mem_cons.mp hgap).resolve_left (by omega))
      simp only [earnings, h.earn_of_long hshort hlong, if_false, mul_add] at hrest ⊢
      omega
    · have hshort' := h.short _ (not_lt.mp hlong)
      by_cases hnone : earn (idle + delay) = 0
      · have hzero : ∀ idle' delays', idle + delay ≤ idle' → earnings earn idle' delays' = 0 := by
          intro idle' delays' hle
          induction delays' generalizing idle' with
          | nil => rfl
          | cons next later ih' =>
            have hnext := h.dry _ (idle' + next) (not_lt.mp hlong) (by omega) hnone
            simp only [earnings, hnext, if_true, zero_add]
            exact ih' _ (by omega)
        simp only [earnings, hnone, if_true, hzero _ _ (le_refl _)] at hshort' ⊢
        omega
      · have hrest := @earnings_le earn period limit h 0 rest
        simp only [earnings, hnone, if_false, mul_add] at hshort' ⊢
        omega

theorem time_eq (hgaps : ∀ gap ∈ gaps period idle delays, gap < limit) :
    idle + delays.sum = period * earnings earn idle delays + leftover period idle delays := by
  induction delays generalizing idle with
  | nil => simp [earnings, leftover]
  | cons delay rest ih =>
    rw [sum_cons, ← add_assoc]
    by_cases hshort : idle + delay < period
    · simp only [gaps, hshort, if_true] at hgaps
      simp only [earnings, leftover, hshort, h.earn_of_short hshort, if_true, zero_add]
      exact ih hgaps
    · simp only [gaps, hshort, if_false, forall_mem_cons] at hgaps
      have hrest := ih hgaps.2
      have hdiv := div_add_mod (idle + delay) period
      simp only [earnings, leftover, hshort, h.earn_of_long hshort hgaps.1, if_false, mul_add]
      rw [h.exact _ hgaps.1]
      omega

/-- What was earned is the time divided by the period exactly if no time between fillings
passes the limit and what they leave over does not make up a token. -/
theorem earnings_iff : earnings earn 0 delays = delays.sum / period ↔
    (∀ gap ∈ gaps period 0 delays, gap < limit) ∧ leftover period 0 delays < period := by
  by_cases hgaps : ∀ gap ∈ gaps period 0 delays, gap < limit
  · have htime := h.time_eq hgaps
    rw [zero_add] at htime
    rw [htime, Nat.mul_add_div h.period_pos, left_eq_add, Nat.div_eq_zero_iff]
    exact ⟨fun hless => ⟨hgaps, hless.resolve_left h.period_pos.ne'⟩, fun hless => .inr hless.2⟩
  · refine ⟨fun heq => ?_, fun hboth => absurd hboth.1 hgaps⟩
    push Not at hgaps
    obtain ⟨gap, hgap, hlimit⟩ := hgaps
    have hless := h.earnings_lt hgap hlimit
    rw [zero_add, mul_comm, ← le_div_iff_mul_le h.period_pos] at hless
    omega

end Counts

/-! ### What fills and takes as a bucket does -/

section Driving

variable {σ κ : Type*} (allow : σ → ℕ → κ → Bool × σ)

/-- The times of the calls that were let through. Each call comes some time after the one
before it. -/
def admitted : σ → ℕ → List (ℕ × κ) → List ℕ
  | _, _, [] => []
  | state, clock, (delay, call) :: rest =>
    let later := admitted (allow state (clock + delay) call).2 (clock + delay) rest
    if (allow state (clock + delay) call).1 then (clock + delay) :: later else later

def earned (worth : σ → ℕ → ℕ) : σ → ℕ → List (ℕ × κ) → ℕ
  | _, _, [] => 0
  | state, clock, (delay, call) :: rest =>
    worth state (clock + delay) +
      earned worth (allow state (clock + delay) call).2 (clock + delay) rest

def Drives (burst : ℕ) (earn : ℕ → ℕ) (bucketAt : σ → ℕ → Bucket) (valid : σ → ℕ → Prop) : Prop :=
  ∀ state clock delay call, valid state clock →
    valid (allow state (clock + delay) call).2 (clock + delay) ∧
      bucketAt (allow state (clock + delay) call).2 (clock + delay) =
        ((bucketAt state clock).fill burst earn delay).take ∧
      ((allow state (clock + delay) call).1 = true ↔
        ((bucketAt state clock).fill burst earn delay).tokens ≠ 0)

variable {allow} {burst : ℕ} {earn : ℕ → ℕ} {bucketAt : σ → ℕ → Bucket} {valid : σ → ℕ → Prop}
  {state : σ} {clock : ℕ} {calls : List (ℕ × κ)}

theorem Drives.admitted_eq (h : Drives allow burst earn bucketAt valid)
    (hvalid : valid state clock) :
    admitted allow state clock calls =
      (bucketAt state clock).served burst earn clock (calls.map Prod.fst) := by
  induction calls generalizing state clock with
  | nil => rfl
  | cons call rest ih =>
    obtain ⟨hnext, hbucket, htkn⟩ := h state clock call.1 call.2 hvalid
    rw [map_cons, served_cons, admitted, ih hnext, hbucket]
    by_cases hnone : ((bucketAt state clock).fill burst earn call.1).tokens = 0
    · rw [if_pos hnone, if_neg (by simpa [htkn] using hnone)]
    · rw [if_neg hnone, if_pos (htkn.mpr hnone)]

theorem Drives.earned_eq {worth : σ → ℕ → ℕ} (h : Drives allow burst earn bucketAt valid)
    (hworth : ∀ state clock delay, valid state clock →
      worth state (clock + delay) = earn ((bucketAt state clock).idle + delay))
    (hvalid : valid state clock) :
    earned allow worth state clock calls =
      earnings earn (bucketAt state clock).idle (calls.map Prod.fst) := by
  induction calls generalizing state clock with
  | nil => rfl
  | cons call rest ih =>
    obtain ⟨hnext, hbucket, -⟩ := h state clock call.1 call.2 hvalid
    rw [map_cons, earnings, earned, ih hnext, hbucket, hworth state clock _ hvalid]
    simp only [take, fill]
    split_ifs <;> rfl

end Driving

end Bucket

end MumbleRuntime.Library
