import MumbleRuntime.Recovery

/-!
# What the crypt counters count

Every accepted packet is counted once, and those behind one accepted before them are
counted as late. `apply_stat` takes nothing from a counter that stands at one, so the
counter of lost packets may stay one above the number of those still missing.
-/

namespace MumbleRuntime.Crypto
open Library Block List CryptState

/-- The packets that come behind one accepted before them. -/
def tardy (top : ℕ) : List ℕ → ℕ
  | [] => 0
  | number :: rest => (if number < top then 1 else 0) + tardy (max top (number + 1)) rest

structure Tallies (state : CryptState) (accepted : List ℕ) : Prop where
  good_eq : state.good.toNat = accepted.length
  late_eq : state.late.toNat = tardy 0 accepted
  lost_ge : highest accepted ≤ accepted.length + state.lost.toNat
  lost_le : accepted.length + state.lost.toNat ≤ highest accepted + 1

variable {state : CryptState} {accepted : List ℕ} {number : ℕ} {counter : UInt32}

theorem highest_concat : highest (accepted ++ [number]) = max (highest accepted) (number + 1) :=
  foldl_append

theorem tardy_concat (top : ℕ) : tardy top (accepted ++ [number]) = tardy top accepted +
    if number < accepted.foldl (fun top number => max top (number + 1)) top then 1 else 0 := by
  induction accepted generalizing top with
  | nil => exact Nat.add_comm _ 0
  | cons first rest ih => rw [cons_append, tardy, tardy, ih, foldl_cons, Nat.add_assoc]

theorem tardy_le (top : ℕ) : tardy top accepted ≤ accepted.length := by
  induction accepted generalizing top with
  | nil => exact Nat.zero_le _
  | cons number rest ih =>
    have hrest := ih (max top (number + 1))
    rw [tardy, length_cons]
    split_ifs <;> omega

theorem lt_highest (h : number ∈ accepted) : number < highest accepted := by
  induction accepted using reverseRecOn with
  | nil => cases h
  | append_singleton accepted last ih =>
    rw [highest_concat]
    rcases mem_append.mp h with h | h
    · exact lt_max_of_lt_left (ih h)
    · exact lt_max_of_lt_right (Nat.lt_succ_of_le (mem_singleton.mp h).le)

theorem length_le_highest (h : accepted.Nodup) : accepted.length ≤ highest accepted := by
  have hsub := h.subperm fun _ hmem => mem_range.mpr (lt_highest hmem)
  simpa using hsub.length_le

theorem applyStat_up {n : ℕ} (h : counter.toNat + n < 2 ^ 32) :
    (applyStat counter n).toNat = counter.toNat + n := by
  cases n with
  | zero => simp [applyStat]
  | succ n =>
    rw [applyStat, if_pos (by omega), UInt32.toNat_add, UInt32.toNat_ofNat']
    omega

-- The counter is compared as an `i32`.
theorem applyStat_down (h : counter.toNat < 2 ^ 31) :
    (applyStat counter (-1)).toNat =
      if 1 < counter.toNat then counter.toNat - 1 else counter.toNat := by
  have hint : counter.toInt32.toInt = counter.toNat :=
    BitVec.toInt_eq_toNat_of_lt (by simpa using by omega)
  rw [applyStat, if_neg (by omega), hint, show |(-1 : ℤ)| = 1 from rfl]
  simp only [gt_iff_lt, Nat.one_lt_cast]
  split_ifs with hmore
  · exact UInt32.toNat_sub_of_le _ _ (UInt32.le_iff_toNat_le.mpr hmore.le)
  · rfl

theorem Tallies.accept (h : Tallies state accepted) (hnodup : (accepted ++ [number]).Nodup)
    (hfew : highest (accepted ++ [number]) < 2 ^ 31 - 1) {base : ℕ}
    (hiv : state.decryptIv.value = (base + highest accepted) % 2 ^ 128) {ivbyte : UInt8}
    {recovered : Recovered} (hrcv : recoverIv state.decryptIv ivbyte = some recovered)
    (hval : recovered.iv.value = (base + (number + 1)) % 2 ^ 128) :
    Tallies (state.accept recovered) (accepted ++ [number]) := by
  obtain ⟨hgood, hlate, hge, hle⟩ := h
  have hcount := length_le_highest hnodup
  have htardy := @tardy_le accepted 0
  rw [length_append, length_singleton] at hcount
  rw [highest_concat] at hcount hfew
  have hstep : (applyStat state.late recovered.late).toNat =
        tardy 0 accepted + (if number < highest accepted then 1 else 0) ∧
      max (highest accepted) (number + 1) ≤
        accepted.length + 1 + (applyStat state.lost recovered.lost).toNat ∧
      accepted.length + 1 + (applyStat state.lost recovered.lost).toNat ≤
        max (highest accepted) (number + 1) + 1 := by
    rcases recoverIv_value hrcv with ⟨-, ahead, hpos, hahead, hfnd, hzero, hlost⟩ |
      ⟨-, -, behind, hpos, hbehind, hfnd, hone, hlost⟩ <;> rw [hval, hiv] at hfnd
    · obtain ⟨n, rfl⟩ := Nat.exists_eq_add_of_le hpos
      rw [hzero, show recovered.lost = n by omega, applyStat_up (by omega),
        ← Nat.cast_zero, applyStat_up (by omega), if_neg (by omega)]
      omega
    · -- It was missing, so the counter of lost packets is not at zero.
      rw [hone, hlost, applyStat_down (by omega), ← Nat.cast_one, applyStat_up (by omega),
        if_pos (by omega)]
      split_ifs <;> omega
  refine ⟨?_, hstep.1.trans (tardy_concat 0).symm, ?_, ?_⟩
  · rw [length_append]
    change (state.good + 1).toNat = _
    rw [UInt32.toNat_add, hgood, UInt32.toNat_one, length_singleton]
    omega
  · rw [highest_concat, length_append]
    exact hstep.2.1
  · rw [highest_concat, length_append]
    exact hstep.2.2

/-- Over every delivery of fewer than 2^31 - 1 packets, in any order and any number of
times, the counters tell how many were accepted, how many of them late and, to within
one, how many are missing. -/
theorem crypt_counters_tally (mode : Mode) (hideal : mode.Ideal) (sender : CryptState)
    (plains : List (List UInt8)) (hfew : plains.length < 2 ^ 31 - 1) (encryptIv : Block)
    (deliveries : List ℕ) :
    let receiver := new encryptIv sender.encryptIv
    Tallies (receiver.deliverAll mode (sender.sendAll mode plains) deliveries)
      (receiver.acceptedOf mode (sender.sendAll mode plains) deliveries) := by
  intro receiver
  have hstart : Tracked sender.encryptIv.value plains.length receiver 0 [] :=
    ⟨(follows_new encryptIv sender).iv_eq, Nat.zero_le _, by simp, by simp⟩
  induction deliveries using reverseRecOn with
  | nil => exact ⟨rfl, rfl, Nat.le_refl 0, Nat.zero_le 1⟩
  | append_singleton deliveries number ih =>
    have hnodup := (hstart.acceptedOf_nodup hideal (by omega) (deliveries ++ [number])).1
    have htop := (follows_deliverAll hideal sender plains (by omega) encryptIv
      (deliveries ++ [number])).2
    have hiv := (follows_deliverAll hideal sender plains (by omega) encryptIv deliveries).1.iv_eq
    rw [(deliverAll_concat _ _).2] at hnodup htop
    rw [(deliverAll_concat _ _).1, (deliverAll_concat _ _).2]
    rcases deliver_cases hideal sender (receiver.deliverAll mode _ deliveries) plains
      number with heq | ⟨ivbyte, recovered, heq, hnumber, hrcv, -, hval⟩ <;>
      rw [heq] at hnodup htop ⊢
    · simpa using ih
    · exact ih.accept hnodup (by exact Nat.lt_of_le_of_lt htop hfew) hiv hrcv hval

/-- All three packets are accepted, and one is still counted as lost. -/
theorem crypt_counters_tally_reordered :
    let packets := (new laterBlock zeroBlock).sendAll plainMode [[1], [2], [3]]
    let receiver := new zeroBlock laterBlock
    (receiver.deliverAll plainMode packets [0, 2, 1]).lost = 1 ∧
      Tallies (receiver.deliverAll plainMode packets [0, 2, 1])
        (receiver.acceptedOf plainMode packets [0, 2, 1]) :=
  ⟨by decide +kernel, crypt_counters_tally plainMode plainMode_ideal
    (new laterBlock zeroBlock) [[1], [2], [3]] (by decide) zeroBlock [0, 2, 1]⟩

end MumbleRuntime.Crypto
