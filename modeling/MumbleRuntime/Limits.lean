import Mathlib.Algebra.Order.Floor.Semiring
import Mathlib.Data.Rat.Floor
import Mathlib.Tactic.Linarith
import MumbleRuntime.Library.TokenBucket

/-!
# The data plane's limits

The voice and the text budget of a connection: a token bucket in front of each, and for
voice the ring of buckets that measures throughput. Instants and durations are
nanoseconds. The budgets let through no more than their burst and rate allow, and they
earn what the elapsed time is worth as long as nothing is left over when they refill.
-/

namespace MumbleRuntime

open Library (Bucket)

def u32Max : ℕ := 2 ^ 32 - 1

/-- `Duration::as_millis`. -/
def asMillis (duration : ℕ) : ℕ := duration / 1000000

/-- `Duration::from_millis`. -/
def fromMillis (millis : ℕ) : ℕ := millis * 1000000

def packetsPerSecond : ℕ := 200
def burst : ℕ := 400
def packetOverhead : ℕ := 20 + 8 + 4
def bandwidthBuckets : ℕ := 10
def bucketSpan : ℕ := fromMillis 100
def window : ℕ := fromMillis 1000
def messagesPerSecond : ℕ := 1
def messageBurst : ℕ := 5

/-- One connection's voice traffic account. -/
structure VoiceBudget where
  tokens : ℕ
  lastRefill : ℕ
  billed : Fin 10 → ℕ
  bucket : Fin 10
  bucketStarted : ℕ
  lastActive : ℕ

namespace VoiceBudget

def new (now : ℕ) : VoiceBudget := ⟨burst, now, fun _ => 0, 0, now, now⟩

/-- The tokens `elapsed` is worth; nothing is added when there are none. -/
def earned (elapsed : ℕ) : ℕ :=
  if elapsed < fromMillis 1 then 0
  else min (asMillis elapsed * packetsPerSecond / 1000) u32Max

def earnedAt (budget : VoiceBudget) (now : ℕ) : ℕ := earned (now - budget.lastRefill)

def refill (budget : VoiceBudget) (now : ℕ) : VoiceBudget :=
  if budget.earnedAt now = 0 then budget
  else { budget with
    tokens := min (min (budget.tokens + budget.earnedAt now) u32Max) burst
    lastRefill := now }

/-- How many buckets `now` lies past the current one. -/
def steps (budget : VoiceBudget) (now : ℕ) : ℕ :=
  asMillis (now - budget.bucketStarted) / asMillis bucketSpan

def moved (budget : VoiceBudget) (now : ℕ) : ℕ :=
  budget.bucketStarted + bucketSpan * min (budget.steps now) u32Max

def anchor (budget : VoiceBudget) (now : ℕ) : ℕ :=
  if window < now - budget.moved now then now else budget.moved now

def roll (budget : VoiceBudget) (now : ℕ) : VoiceBudget :=
  if budget.steps now = 0 then budget
  else if bandwidthBuckets ≤ budget.steps now then
    { budget with billed := fun _ => 0, bucket := 0, bucketStarted := budget.anchor now }
  else
    { budget with
      billed := (List.range (budget.steps now)).foldl
        (fun billed step => Function.update billed (budget.bucket + Fin.ofNat 10 (step + 1)) 0)
        budget.billed
      bucket := budget.bucket + Fin.ofNat 10 (budget.steps now)
      bucketStarted := budget.anchor now }

def billedSize (bytes : ℕ) : ℕ := min (bytes + packetOverhead) u32Max

def allow (budget : VoiceBudget) (now bytes : ℕ) : Bool × VoiceBudget :=
  let budget := budget.refill now
  if budget.tokens = 0 then (false, budget)
  else
    let budget := { budget with tokens := budget.tokens - 1 }.roll now
    (true, { budget with
      billed := Function.update budget.billed budget.bucket
        (min (budget.billed budget.bucket + billedSize bytes) u32Max)
      lastActive := now })

def touch (budget : VoiceBudget) (now : ℕ) : VoiceBudget := { budget with lastActive := now }

def bandwidth (budget : VoiceBudget) (now : ℕ) : ℕ × VoiceBudget :=
  let budget := budget.roll now
  ((List.finRange 10).foldl (fun total slot => min (total + budget.billed slot) u32Max) 0, budget)

def idle (budget : VoiceBudget) (now : ℕ) : ℕ := now - budget.lastActive

end VoiceBudget

structure TextBudget where
  tokens : ℕ
  lastRefill : ℕ

namespace TextBudget

def new (now : ℕ) : TextBudget := ⟨messageBurst, now⟩

/-- The tokens `elapsed` is worth; a number too large to hold counts as none. -/
def earned (elapsed : ℕ) : ℕ :=
  let earned := asMillis elapsed * messagesPerSecond / 1000
  if earned ≤ u32Max then earned else 0

def earnedAt (budget : TextBudget) (now : ℕ) : ℕ := earned (now - budget.lastRefill)

def refill (budget : TextBudget) (now : ℕ) : TextBudget :=
  if 0 < budget.earnedAt now then
    ⟨min (min (budget.tokens + budget.earnedAt now) u32Max) messageBurst, now⟩
  else budget

def allow (budget : TextBudget) (now : ℕ) : Bool × TextBudget :=
  if (budget.refill now).tokens = 0 then (false, budget.refill now)
  else (true, { budget.refill now with tokens := (budget.refill now).tokens - 1 })

def allowMessage (budget : TextBudget) (now : ℕ) (_ : Unit) : Bool × TextBudget := budget.allow now

end TextBudget

/-! ### The budgets as buckets -/

theorem min_min_burst {total cap : ℕ} (hcap : cap ≤ u32Max) : min
    (min total u32Max) cap = min total cap := by
  omega

namespace VoiceBudget

variable {budget : VoiceBudget} {clock : ℕ}

theorem roll_tokens {now : ℕ} : (budget.roll now).tokens = budget.tokens := by
  unfold roll
  split_ifs <;> rfl

theorem roll_lastRefill {now : ℕ} : (budget.roll now).lastRefill = budget.lastRefill := by
  unfold roll
  split_ifs <;> rfl

def asBucket (budget : VoiceBudget) (clock : ℕ) : Bucket := ⟨budget.tokens, clock - budget.lastRefill⟩

def Refilled (budget : VoiceBudget) (clock : ℕ) : Prop := budget.lastRefill ≤ clock

theorem new_refilled (start : ℕ) : (new start).Refilled start := le_refl start

theorem earnedAt_eq (budget : VoiceBudget) (clock delay : ℕ) (hclock : budget.Refilled clock) :
    budget.earnedAt (clock + delay) = earned ((budget.asBucket clock).idle + delay) :=
  congrArg earned (Nat.sub_add_comm hclock)

theorem refill_asBucket (delay : ℕ) (hclock : budget.Refilled clock) :
    (budget.refill (clock + delay)).Refilled (clock + delay) ∧
      (budget.refill (clock + delay)).asBucket (clock + delay) =
        (budget.asBucket clock).fill burst earned delay := by
  have hidle : (budget.asBucket clock).idle + delay = clock + delay - budget.lastRefill :=
    (Nat.sub_add_comm hclock).symm
  simp only [refill, Bucket.fill, earnedAt_eq budget clock delay hclock]
  split_ifs with hnone
  · exact ⟨hclock.trans (Nat.le_add_right _ _), by rw [hidle]; rfl⟩
  · simp only [Refilled, asBucket, min_min_burst (show burst ≤ u32Max by decide), Nat.sub_self]
    exact ⟨le_refl _, trivial⟩

theorem allow_drives : Bucket.Drives allow burst earned asBucket Refilled := by
  intro budget clock delay bytes hclock
  obtain ⟨hle, heq⟩ := refill_asBucket delay hclock
  have htokens : ((budget.asBucket clock).fill burst earned delay).tokens =
      (budget.refill (clock + delay)).tokens := congrArg Bucket.tokens heq.symm
  rw [htokens, ← heq, allow]
  split_ifs with hnone
  · exact ⟨hle, by simp only [asBucket, Bucket.take, hnone], by simp [hnone]⟩
  · simp only [Refilled, asBucket, Bucket.take, roll_tokens, roll_lastRefill] at hle ⊢
    exact ⟨hle, trivial, by simp [hnone]⟩

theorem earned_eq (elapsed : ℕ) : earned elapsed = min (elapsed / 5000000) (2 ^ 32 - 1) := by
  unfold earned
  split_ifs with hshort
  · rw [Nat.div_eq_of_lt (hshort.trans (by decide)), Nat.zero_min]
  · simp only [asMillis, packetsPerSecond, u32Max]
    omega

theorem earned_fromMillis (millis : ℕ) :
    earned (fromMillis millis) = min (millis / 5) (2 ^ 32 - 1) := by
  rw [earned_eq, fromMillis, Nat.mul_div_mul_right millis 5 (by decide : 0 < 1000000)]

theorem earned_counts :
    Bucket.Counts (fun millis => earned (fromMillis millis)) 5 (5 * 2 ^ 32) := by
  refine ⟨by decide, by decide, ?_, ?_, ?_⟩ <;> simp only [earned_fromMillis] <;> intros <;> omega

end VoiceBudget

namespace TextBudget

variable {budget : TextBudget} {clock : ℕ}

def asBucket (budget : TextBudget) (clock : ℕ) : Bucket := ⟨budget.tokens, clock - budget.lastRefill⟩

def Refilled (budget : TextBudget) (clock : ℕ) : Prop := budget.lastRefill ≤ clock

theorem new_refilled (start : ℕ) : (new start).Refilled start := le_refl start

theorem earnedAt_eq (budget : TextBudget) (clock delay : ℕ) (hclock : budget.Refilled clock) :
    budget.earnedAt (clock + delay) = earned ((budget.asBucket clock).idle + delay) :=
  congrArg earned (Nat.sub_add_comm hclock)

theorem refill_asBucket (delay : ℕ) (hclock : budget.Refilled clock) :
    (budget.refill (clock + delay)).Refilled (clock + delay) ∧
      (budget.refill (clock + delay)).asBucket (clock + delay) =
        (budget.asBucket clock).fill messageBurst earned delay := by
  have hidle : (budget.asBucket clock).idle + delay = clock + delay - budget.lastRefill :=
    (Nat.sub_add_comm hclock).symm
  simp only [refill, Bucket.fill, earnedAt_eq budget clock delay hclock, Nat.pos_iff_ne_zero, ne_eq,
    ite_not]
  split_ifs with hnone
  · exact ⟨hclock.trans (Nat.le_add_right _ _), by rw [hidle]; rfl⟩
  · simp only [Refilled, asBucket, min_min_burst (show messageBurst ≤ u32Max by decide), Nat.sub_self]
    exact ⟨le_refl _, trivial⟩

theorem allowMessage_drives : Bucket.Drives allowMessage messageBurst earned asBucket Refilled := by
  intro budget clock delay _ hclock
  obtain ⟨hle, heq⟩ := refill_asBucket delay hclock
  have htokens : ((budget.asBucket clock).fill messageBurst earned delay).tokens =
      (budget.refill (clock + delay)).tokens := congrArg Bucket.tokens heq.symm
  rw [htokens, ← heq, allowMessage, allow]
  split_ifs with hnone
  · exact ⟨hle, by simp only [asBucket, Bucket.take, hnone], by simp [hnone]⟩
  · exact ⟨hle, rfl, by simp [hnone]⟩

theorem earned_eq (elapsed : ℕ) : earned elapsed =
    if elapsed / 1000000000 ≤ 2 ^ 32 - 1 then elapsed / 1000000000 else 0 := by
  have hseconds : asMillis elapsed * messagesPerSecond / 1000 = elapsed / 1000000000 := by
    simp only [asMillis, messagesPerSecond]
    omega
  rw [earned, hseconds]
  rfl

theorem earned_fromMillis (millis : ℕ) : earned (fromMillis millis) =
    if millis / 1000 ≤ 2 ^ 32 - 1 then millis / 1000 else 0 := by
  rw [earned_eq, fromMillis, Nat.mul_div_mul_right millis 1000 (by decide : 0 < 1000000)]

theorem earned_counts :
    Bucket.Counts (fun millis => earned (fromMillis millis)) 1000 (1000 * 2 ^ 32) := by
  refine ⟨by decide, by decide, ?_, ?_, ?_⟩ <;> simp only [earned_fromMillis]
  · exact fun elapsed hlimit => if_pos (by omega)
  · intro elapsed hlimit
    rw [if_neg (by omega)]
    omega
  · exact fun elapsed longer hlimit hle _ => if_neg (by omega)

end TextBudget

/-! ### What is let through, and what is earned -/

theorem count_le_ceil {period count burst span : ℕ} (hperiod : 0 < period)
    (hcnt : period * count < period * burst + span + period) :
    count ≤ burst + ⌈(span : ℚ) / period⌉₊ := by
  have hceil := Nat.le_ceil ((span : ℚ) / period)
  rw [div_le_iff₀ (by exact_mod_cast hperiod)] at hceil
  have hspan : span ≤ ⌈(span : ℚ) / period⌉₊ * period := by exact_mod_cast hceil
  refine Nat.le_of_lt_succ (lt_of_mul_lt_mul_left ?_ (Nat.zero_le period))
  calc period * count < period * burst + span + period := hcnt
    _ ≤ period * burst + ⌈(span : ℚ) / period⌉₊ * period + period := by omega
    _ = period * (burst + ⌈(span : ℚ) / period⌉₊ + 1) := by ring

/-- Of the calls on a fresh budget, those of any interval of length `span` that are let
through are at most the burst and the rate times its seconds, rounded up. -/
theorem admitted_countP_le (start since span : ℕ) :
    (∀ calls, (Bucket.admitted VoiceBudget.allow (.new start) start calls).countP
        (fun time => since ≤ time ∧ time ≤ since + span) ≤
      400 + ⌈200 * ((span : ℚ) / 1000000000)⌉₊) ∧
    ∀ calls, (Bucket.admitted TextBudget.allowMessage (.new start) start calls).countP
        (fun time => since ≤ time ∧ time ≤ since + span) ≤
      5 + ⌈(span : ℚ) / 1000000000⌉₊ := by
  refine ⟨fun calls => ?_, fun calls => ?_⟩
  · have hrate : 200 * ((span : ℚ) / 1000000000) = (span : ℚ) / (5000000 : ℕ) := by
      push_cast
      ring
    have hperiod : 0 < 5000000 := by decide
    rw [VoiceBudget.allow_drives.admitted_eq (VoiceBudget.new_refilled start), hrate]
    refine count_le_ceil hperiod (Bucket.count_within (fun elapsed => ?_)
      (fun elapsed hnone => .inl ?_) hperiod ?_ since span)
    · rw [VoiceBudget.earned_eq]
      omega
    · rw [VoiceBudget.earned_eq] at hnone
      omega
    · exact le_refl burst
  · have hrate : (span : ℚ) / 1000000000 = (span : ℚ) / (1000000000 : ℕ) := by
      push_cast
      rfl
    have hperiod : 0 < 1000000000 := by decide
    rw [TextBudget.allowMessage_drives.admitted_eq (TextBudget.new_refilled start), hrate]
    refine count_le_ceil hperiod (Bucket.count_within (fun elapsed => ?_)
      (fun elapsed hnone => ?_) hperiod ?_ since span)
    · rw [TextBudget.earned_eq]
      split_ifs <;> omega
    · rw [TextBudget.earned_eq] at hnone
      split_ifs at hnone with hlarge
      · exact .inl (by omega)
      · exact .inr fun longer hle => (TextBudget.earned_eq longer).trans (if_neg (by omega))
    · exact le_refl messageBurst

def atMillis {κ : Type*} (calls : List (ℕ × κ)) : List (ℕ × κ) :=
  calls.map fun call => (fromMillis call.1, call.2)

theorem earnings_atMillis {κ : Type*} {earn : ℕ → ℕ} {idle : ℕ} {calls : List (ℕ × κ)} :
    Bucket.earnings earn (fromMillis idle) ((atMillis calls).map Prod.fst) =
      Bucket.earnings (fun millis => earn (fromMillis millis)) idle (calls.map Prod.fst) := by
  induction calls generalizing idle with
  | nil => rfl
  | cons call rest ih =>
    have hsum : fromMillis idle + fromMillis call.1 = fromMillis (idle + call.1) :=
      (Nat.add_mul _ _ _).symm
    have hnext := @ih (if earn (fromMillis (idle + call.1)) = 0 then idle + call.1 else 0)
    simp only [atMillis, List.map_cons, Bucket.earnings, hsum] at hnext ⊢
    rw [← hnext]
    split_ifs <;> rfl

/-- With calls whole milliseconds apart, what was earned is what the elapsed time is worth
exactly if no time between refills is too long to count, and what each refill leaves over,
with the time since the last one, does not make up a token. -/
theorem earned_iff (start : ℕ) :
    (∀ calls, Bucket.earned VoiceBudget.allow VoiceBudget.earnedAt (.new start) start (atMillis calls) =
          200 * (calls.map Prod.fst).sum / 1000 ↔
        (∀ gap ∈ Bucket.gaps 5 0 (calls.map Prod.fst), gap < 5 * 2 ^ 32) ∧
          Bucket.leftover 5 0 (calls.map Prod.fst) < 5) ∧
    ∀ calls, Bucket.earned TextBudget.allowMessage TextBudget.earnedAt (.new start) start
          (atMillis calls) = (calls.map Prod.fst).sum / 1000 ↔
        (∀ gap ∈ Bucket.gaps 1000 0 (calls.map Prod.fst), gap < 1000 * 2 ^ 32) ∧
          Bucket.leftover 1000 0 (calls.map Prod.fst) < 1000 := by
  have hidle : start - start = fromMillis 0 := Nat.sub_self start
  refine ⟨fun calls => ?_, fun calls => ?_⟩
  · have hrate : 200 * (calls.map Prod.fst).sum / 1000 = (calls.map Prod.fst).sum / 5 := by omega
    rw [VoiceBudget.allow_drives.earned_eq VoiceBudget.earnedAt_eq
      (VoiceBudget.new_refilled start), hrate]
    change Bucket.earnings _ (start - start) _ = _ ↔ _
    rw [hidle, earnings_atMillis]
    exact VoiceBudget.earned_counts.earnings_iff
  · rw [TextBudget.allowMessage_drives.earned_eq TextBudget.earnedAt_eq
      (TextBudget.new_refilled start)]
    change Bucket.earnings _ (start - start) _ = _ ↔ _
    rw [hidle, earnings_atMillis]
    exact TextBudget.earned_counts.earnings_iff

/-- Two packets nine milliseconds apart earn two tokens of the three that eighteen
milliseconds are worth; two messages 1900 milliseconds apart lose one likewise. -/
theorem remainder_lost :
    Bucket.earned VoiceBudget.allow VoiceBudget.earnedAt (.new 0) 0 (atMillis [(9, 0), (9, 0)]) ≠
        200 * (9 + 9) / 1000 ∧
      Bucket.earned TextBudget.allowMessage TextBudget.earnedAt (.new 0) 0
        (atMillis [(1900, ()), (1900, ())]) ≠ (1900 + 1900) / 1000 := by
  decide +kernel

end MumbleRuntime
