import Mathlib.Data.Nat.Digits.Lemmas
import Mathlib.Tactic.Ring

/-!
# Little-endian counters over bytes

A list of bytes spells a number, least significant byte first. Counting up carries
into the next byte when a byte comes back to zero, counting down borrows from it when
a byte was zero; both are arithmetic modulo the size of the counter.
-/

namespace MumbleRuntime.Library.Bytes

open List

def value (bytes : List UInt8) : ℕ := Nat.ofDigits 256 (bytes.map UInt8.toNat)

def increment : List UInt8 → List UInt8
  | [] => []
  | byte :: rest => if byte + 1 ≠ 0 then (byte + 1) :: rest else (byte + 1) :: increment rest

def decrement : List UInt8 → List UInt8
  | [] => []
  | byte :: rest => if byte ≠ 0 then (byte - 1) :: rest else (byte - 1) :: decrement rest

@[simp] theorem value_nil : value [] = 0 := rfl

theorem value_cons (byte : UInt8) (rest : List UInt8) :
    value (byte :: rest) = byte.toNat + 256 * value rest := by
  simp [value, Nat.ofDigits_cons]

theorem value_lt (bytes : List UInt8) : value bytes < 256 ^ bytes.length := by
  have hlt := Nat.ofDigits_lt_base_pow_length (b := 256) (l := bytes.map UInt8.toNat)
    (by decide) (fun x hx => ?_)
  · simpa [value] using hlt
  · obtain ⟨byte, -, rfl⟩ := mem_map.mp hx
    exact byte.toNat_lt

theorem value_injective {bytes other : List UInt8} (hlen : bytes.length = other.length)
    (h : value bytes = value other) : bytes = other := by
  have hmap := Nat.ofDigits_inj_of_len_eq (b := 256) (by decide) (by simpa using hlen)
    (fun x hx => ?_) (fun x hx => ?_) h
  · exact map_injective_iff.mpr (fun _ _ heq => UInt8.toNat_inj.mp heq) hmap
  all_goals
    obtain ⟨byte, -, rfl⟩ := mem_map.mp hx
    exact byte.toNat_lt

@[simp] theorem length_increment (bytes : List UInt8) :
    (increment bytes).length = bytes.length := by
  induction bytes with
  | nil => rfl
  | cons byte rest ih =>
    unfold increment
    split_ifs
    · rfl
    · simp [ih]

@[simp] theorem length_decrement (bytes : List UInt8) :
    (decrement bytes).length = bytes.length := by
  induction bytes with
  | nil => rfl
  | cons byte rest ih =>
    unfold decrement
    split_ifs
    · rfl
    · simp [ih]

theorem value_increment (bytes : List UInt8) :
    value (increment bytes) = (value bytes + 1) % 256 ^ bytes.length := by
  induction bytes with
  | nil => rfl
  | cons byte rest ih =>
    have hbyte := byte.toNat_lt
    have hrest := value_lt rest
    have hsucc : (byte + 1).toNat = (byte.toNat + 1) % 256 := UInt8.toNat_add byte 1
    unfold increment
    split_ifs with hzero
    · have hne : (byte + 1).toNat ≠ 0 := fun h => hzero (UInt8.toNat_inj.mp h)
      have hsmall : byte.toNat + 1 + 256 * value rest < 256 ^ (rest.length + 1) := by
        omega
      rw [value_cons, value_cons, length_cons, Nat.mod_eq_of_lt (by omega)]
      omega
    · have hzero' : (byte + 1).toNat = 0 := by
        rw [not_not.mp hzero]
        rfl
      have hfull : byte.toNat + 256 * value rest + 1 = 256 * (value rest + 1) := by omega
      rw [value_cons, value_cons, ih, hzero', length_cons, hfull, pow_succ, mul_comm (256 ^ _),
        Nat.mul_mod_mul_left, zero_add]

theorem value_decrement (bytes : List UInt8) :
    value (decrement bytes) = (value bytes + (256 ^ bytes.length - 1)) % 256 ^ bytes.length := by
  induction bytes with
  | nil => rfl
  | cons byte rest ih =>
    have hbyte := byte.toNat_lt
    have hrest := value_lt rest
    unfold decrement
    split_ifs with hzero
    · have hne : byte.toNat ≠ 0 := fun h => hzero (UInt8.toNat_inj.mp h)
      have hpred : (byte - 1).toNat = byte.toNat - 1 :=
        UInt8.toNat_sub_of_le byte 1 (UInt8.le_iff_toNat_le.mpr (Nat.one_le_iff_ne_zero.mpr hne))
      have hsum : byte.toNat + 256 * value rest + (256 ^ (rest.length + 1) - 1) =
          byte.toNat - 1 + 256 * value rest + 256 ^ (rest.length + 1) := by
        omega
      have hsmall : byte.toNat - 1 + 256 * value rest < 256 ^ (rest.length + 1) := by
        rw [pow_succ]
        omega
      rw [value_cons, value_cons, length_cons, hsum, Nat.add_mod_right,
        Nat.mod_eq_of_lt hsmall, hpred]
    · have hbyte' : byte = 0 := not_not.mp hzero
      have hsum : 256 * value rest + (256 ^ (rest.length + 1) - 1) =
          255 + 256 * (value rest + (256 ^ rest.length - 1)) := by
        omega
      rw [value_cons, value_cons, ih, hbyte', length_cons, UInt8.toNat_zero, zero_add, hsum,
        pow_succ, mul_comm (256 ^ _)]
      have hspl := Nat.mod_mul (x := 255 + 256 * (value rest + (256 ^ rest.length - 1))) (a := 256)
        (b := 256 ^ rest.length)
      rw [hspl, Nat.add_mul_mod_self_left, Nat.add_mul_div_left _ _ (by decide)]
      simp

end MumbleRuntime.Library.Bytes
