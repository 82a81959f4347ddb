import MumbleRuntime.Library.Bytes
import Mathlib.Logic.Function.Basic

/-!
# The crypt state of one direction of voice

A packet carries one byte of the counter it was sealed under and three bytes of the
tag. The receiver rebuilds the other fifteen bytes from the counter it is at: a packet
may be ahead of it or, by less than thirty, behind it. Of every value of the low byte
it remembers the second byte of the packet it accepted last.

The mode of operation is a parameter: what it computes from a nonce and a text, and
whether it holds what it opened to be authentic.
-/

namespace MumbleRuntime.Crypto
open Library

instance neZeroSixteen : NeZero 16 := ⟨by decide⟩

structure Block where
  bytes : List UInt8
  length_bytes : bytes.length = 16
  deriving DecidableEq

namespace Block

def value (block : Block) : ℕ := Bytes.value block.bytes

def byte (block : Block) (index : Fin 16) : UInt8 :=
  block.bytes.get (index.cast block.length_bytes.symm)

def setLow (block : Block) (low : UInt8) : Block :=
  ⟨block.bytes.set 0 low, by simp [block.length_bytes]⟩

def incrementFrom (block : Block) (start : ℕ) : Block :=
  ⟨block.bytes.take start ++ Bytes.increment (block.bytes.drop start), by
    have hlength := block.length_bytes
    simp only [List.length_append, List.length_take, Bytes.length_increment, List.length_drop]
    omega⟩

def decrementFrom (block : Block) (start : ℕ) : Block :=
  ⟨block.bytes.take start ++ Bytes.decrement (block.bytes.drop start), by
    have hlength := block.length_bytes
    simp only [List.length_append, List.length_take, Bytes.length_decrement, List.length_drop]
    omega⟩

def increment (block : Block) : Block := block.incrementFrom 0

theorem value_lt (block : Block) : block.value < 2 ^ 128 := by
  have hlt := Bytes.value_lt block.bytes
  rw [block.length_bytes] at hlt
  exact hlt

theorem ext_value {block other : Block} (h : block.value = other.value) : block = other := by
  obtain ⟨bytes, hbytes⟩ := block
  obtain ⟨bytes', hbytes'⟩ := other
  obtain rfl := Bytes.value_injective (hbytes.trans hbytes'.symm) h
  rfl

theorem value_increment (block : Block) : block.increment.value = (block.value + 1) % 2 ^ 128 := by
  have hval := Bytes.value_increment block.bytes
  rw [block.length_bytes] at hval
  exact hval

structure Parts (block : Block) (low : UInt8) (high : ℕ) : Prop where
  low_eq : block.byte 0 = low
  value_eq : block.value = low.toNat + 256 * high
  second_eq : (block.byte 1).toNat = high % 256
  high_lt : high < 2 ^ 120

theorem exists_cons (block : Block) :
    ∃ low second rest, block.bytes = low :: second :: rest ∧ rest.length = 14 := by
  obtain ⟨bytes, hbytes⟩ := block
  match bytes, hbytes with
  | low :: second :: rest, hlen => exact ⟨low, second, rest, rfl, by simpa using hlen⟩

theorem parts (block : Block) : block.Parts (block.byte 0) (block.value / 256) := by
  obtain ⟨low, second, rest, hbytes, hrest⟩ := block.exists_cons
  have hlow : block.byte 0 = low := by simp [byte, hbytes]
  have hsec : block.byte 1 = second := by simp [byte, hbytes]
  have hval : block.value = low.toNat + 256 * (second.toNat + 256 * Bytes.value rest) := by
    rw [value, hbytes, Bytes.value_cons, Bytes.value_cons]
  have hlt := block.value_lt
  have hlow' := low.toNat_lt
  have hsec' := second.toNat_lt
  refine ⟨rfl, ?_, ?_, ?_⟩
  · rw [hlow]
    omega
  · rw [hsec]
    omega
  · omega

theorem value_setLow (block : Block) (low : UInt8) :
    (block.setLow low).value = low.toNat + 256 * (block.value / 256) := by
  obtain ⟨old, second, rest, hbytes, hrest⟩ := block.exists_cons
  have hold := old.toNat_lt
  have hval : block.value = old.toNat + 256 * Bytes.value (second :: rest) := by
    rw [value, hbytes, Bytes.value_cons]
  have hset : (block.setLow low).value = low.toNat + 256 * Bytes.value (second :: rest) := by
    simp only [value, setLow, hbytes, List.set_cons_zero, Bytes.value_cons]
  omega

theorem value_countFrom_one (block : Block) {count : List UInt8 → List UInt8} {n : ℕ}
    (hcnt : ∀ bytes, bytes.length = 15 →
      Bytes.value (count bytes) = (Bytes.value bytes + n) % 2 ^ 120) :
    Bytes.value (block.bytes.take 1 ++ count (block.bytes.drop 1)) =
      (block.byte 0).toNat + 256 * ((block.value / 256 + n) % 2 ^ 120) := by
  obtain ⟨low, second, rest, hbytes, hrest⟩ := block.exists_cons
  have hlow : block.byte 0 = low := by simp [byte, hbytes]
  have hlow' := low.toNat_lt
  have hval : block.value = low.toNat + 256 * Bytes.value (second :: rest) := by
    rw [value, hbytes, Bytes.value_cons]
  have hhigh : block.value / 256 = Bytes.value (second :: rest) := by omega
  rw [hlow, hhigh, ← hcnt _ (by rw [List.length_cons, hrest]), hbytes]
  exact Bytes.value_cons low _

theorem value_incrementFrom_one (block : Block) :
    (block.incrementFrom 1).value =
      (block.byte 0).toNat + 256 * ((block.value / 256 + 1) % 2 ^ 120) :=
  block.value_countFrom_one fun bytes hlen => by rw [Bytes.value_increment, hlen]; rfl

theorem value_decrementFrom_one (block : Block) :
    (block.decrementFrom 1).value =
      (block.byte 0).toNat + 256 * ((block.value / 256 + (2 ^ 120 - 1)) % 2 ^ 120) :=
  block.value_countFrom_one fun bytes hlen => by rw [Bytes.value_decrement, hlen]; rfl

end Block

/-- What `ocb_encrypt` and `ocb_decrypt` return: whether they hold the text to be
authentic, the text, and the tag they computed. -/
structure Mode where
  encrypt : List UInt8 → Block → Bool × List UInt8 × Block
  decrypt : List UInt8 → Block → Bool × List UInt8 × Block

/-- The tag a packet carries is taken for that of a text under a nonce. -/
def Mode.verifies (mode : Mode) (ciphertext tag : List UInt8) (nonce : Block) : Bool :=
  (mode.decrypt ciphertext nonce).1 && (mode.decrypt ciphertext nonce).2.2.bytes.take 3 == tag

def Mode.Ideal (mode : Mode) : Prop :=
  ∀ plain nonce other, mode.verifies (mode.encrypt plain nonce).2.1
    ((mode.encrypt plain nonce).2.2.bytes.take 3) other → other = nonce

structure Recovered where
  iv : Block
  inOrder : Bool
  restore : Bool
  late : ℤ
  lost : ℤ

def distance (low ivbyte : UInt8) : ℤ :=
  let diff : ℤ := ivbyte.toNat - low.toNat
  if diff > 128 then diff - 256 else if diff < -128 then diff + 256 else diff

/-- The part of `decrypt` that rebuilds the counter from its low byte. -/
def recoverIv (iv : Block) (ivbyte : UInt8) : Option Recovered :=
  if iv.byte 0 + 1 = ivbyte then
    if ivbyte > iv.byte 0 then
      some { iv := iv.setLow ivbyte, inOrder := true, restore := false, late := 0, lost := 0 }
    else if ivbyte < iv.byte 0 then
      some { iv := (iv.setLow ivbyte).incrementFrom 1, inOrder := true, restore := false, late := 0,
             lost := 0 }
    else none
  else
    let diff := distance (iv.byte 0) ivbyte
    if ivbyte < iv.byte 0 ∧ diff > -30 ∧ diff < 0 then
      some { iv := iv.setLow ivbyte, inOrder := false, restore := true, late := 1, lost := -1 }
    else if ivbyte > iv.byte 0 ∧ diff > -30 ∧ diff < 0 then
      some { iv := (iv.setLow ivbyte).decrementFrom 1, inOrder := false, restore := true, late := 1,
             lost := -1 }
    else if ivbyte > iv.byte 0 ∧ diff > 0 then
      some { iv := iv.setLow ivbyte, inOrder := false, restore := false, late := 0,
             lost := ivbyte.toNat - (iv.byte 0).toNat - 1 }
    else if ivbyte < iv.byte 0 ∧ diff > 0 then
      some { iv := (iv.setLow ivbyte).incrementFrom 1, inOrder := false, restore := false, late := 0,
             lost := 256 - (iv.byte 0).toNat + ivbyte.toNat - 1 }
    else none

def applyStat (counter : UInt32) (delta : ℤ) : UInt32 :=
  if delta > 0 then counter + UInt32.ofNat delta.toNat
  else if counter.toInt32.toInt > |delta| then counter - UInt32.ofNat delta.natAbs
  else counter

structure CryptState where
  encryptIv : Block
  decryptIv : Block
  decryptHistory : UInt8 → UInt8
  good : UInt32
  late : UInt32
  lost : UInt32

namespace CryptState

def new (encryptIv decryptIv : Block) : CryptState where
  encryptIv := encryptIv
  decryptIv := decryptIv
  decryptHistory _ := 0
  good := 0
  late := 0
  lost := 0

def encrypt (mode : Mode) (state : CryptState) (plain : List UInt8) :
    Option (List UInt8) × CryptState :=
  let state := { state with encryptIv := state.encryptIv.increment }
  match mode.encrypt plain state.encryptIv with
  | (false, _, _) => (none, state)
  | (true, ciphertext, tag) =>
    (some (state.encryptIv.byte 0 :: tag.bytes.take 3 ++ ciphertext), state)

def accept (state : CryptState) (recovered : Recovered) : CryptState :=
  { state with
    decryptIv := if recovered.restore then state.decryptIv else recovered.iv
    decryptHistory :=
      Function.update state.decryptHistory (recovered.iv.byte 0) (recovered.iv.byte 1)
    good := state.good + 1
    late := applyStat state.late recovered.late
    lost := applyStat state.lost recovered.lost }

def decrypt (mode : Mode) (state : CryptState) (source : List UInt8) :
    Option (List UInt8) × CryptState :=
  if source.length < 4 then (none, state)
  else
    let header := source.take 4
    let ciphertext := source.drop 4
    match recoverIv state.decryptIv (header.headD 0) with
    | none => (none, state)
    | some recovered =>
      if recovered.inOrder = false ∧
          state.decryptHistory (recovered.iv.byte 0) = recovered.iv.byte 1 then (none, state)
      else if mode.verifies ciphertext (header.drop 1) recovered.iv then
        (some (mode.decrypt ciphertext recovered.iv).2.1, state.accept recovered)
      else (none, state)

end CryptState

end MumbleRuntime.Crypto
