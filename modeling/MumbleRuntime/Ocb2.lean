import Mathlib.Logic.Equiv.Defs
import MumbleRuntime.CryptState

/-!
# The mode of operation

OCB2 over any permutation of blocks in place of the cipher. What is encrypted comes back
when it is decrypted under the same nonce, with the same tag. The countermeasure against
forgeries shows: a second-to-last block that is zero in its first fifteen bytes comes back
with one bit flipped.
-/

namespace MumbleRuntime.Crypto

namespace Block

def ofFn (f : Fin 16 → UInt8) : Block := ⟨List.ofFn f, List.length_ofFn⟩

@[simp]
theorem byte_ofFn (f : Fin 16 → UInt8) (i : Fin 16) : (ofFn f).byte i = f i := by
  simp only [byte, ofFn, List.get_eq_getElem, List.getElem_ofFn]
  rfl

theorem getElem?_bytes (block : Block) (i : ℕ) :
    block.bytes[i]? = if h : i < 16 then some (block.byte ⟨i, h⟩) else none := by
  split_ifs with h
  · exact List.getElem?_eq_getElem (block.length_bytes.symm ▸ h)
  · exact List.getElem?_eq_none (block.length_bytes.trans_le (not_lt.mp h))

theorem ext_byte {a b : Block} (h : ∀ i, a.byte i = b.byte i) : a = b := by
  obtain ⟨bytes, hbytes⟩ := a
  obtain ⟨bytes', hbytes'⟩ := b
  obtain rfl : bytes = bytes' := by
    refine List.ext_getElem (hbytes.trans hbytes'.symm) fun i hi _ => ?_
    simpa [byte] using h ⟨i, hbytes ▸ hi⟩
  rfl

def xor (a b : Block) : Block := ofFn fun i => a.byte i ^^^ b.byte i

/-- Double in GF(2^128). -/
def times2 (block : Block) : Block :=
  ofFn fun i => if h : i.val + 1 < 16 then (block.byte i <<< 1) ||| (block.byte ⟨i.val + 1, h⟩ >>> 7)
    else (block.byte i <<< 1) ^^^ ((block.byte 0 >>> 7) * 0x87)

def times3 (block : Block) : Block := block.xor block.times2

/-- Eight times the length, in big-endian bytes. -/
def lengthBlock (len : ℕ) : Block := ofFn fun i => UInt8.ofNat (len * 8 / 256 ^ (15 - i.val))

def zero : Block := ofFn fun _ => 0

def flipBit (block : Block) : Block :=
  ofFn fun i => if i = 0 then block.byte i ^^^ 1 else block.byte i

/-- `copy_from_slice` into the front of a block. -/
def overwrite (block : Block) (bytes : List UInt8) : Block :=
  ofFn fun i => bytes.getD i (block.byte i)

def readBlock (data : List UInt8) : Block := zero.overwrite data

end Block

open Block
open List

/-- Zero in all bytes but the last, with at most one block to come. -/
def critical (plain : List UInt8) : Bool := plain.length - 16 ≤ 16 && (plain.take 15).all (· == 0)

/-- `ocb_encrypt` from where the loop has got to. -/
def encryptFrom (cipher : Equiv.Perm Block) (modify authentic : Bool) (delta checksum : Block)
    (plain : List UInt8) : Bool × List UInt8 × Block :=
  let delta := delta.times2
  if 16 < plain.length then
    let flip := critical plain && modify
    let block := readBlock plain
    let tmp := if flip then (delta.xor block).flipBit else delta.xor block
    let checksum := if flip then (checksum.xor block).flipBit else checksum.xor block
    let rest := encryptFrom cipher modify (authentic && (!critical plain || modify)) delta checksum
      (plain.drop 16)
    (rest.1, (delta.xor (cipher tmp)).bytes ++ rest.2.1, rest.2.2)
  else
    let pad := cipher ((lengthBlock plain.length).xor delta)
    let tail := pad.overwrite plain
    (authentic, (pad.xor tail).bytes.take plain.length,
      cipher (delta.times3.xor (checksum.xor tail)))
termination_by plain.length
decreasing_by simp only [List.length_drop]; omega

def ocbEncrypt (cipher : Equiv.Perm Block) (plain : List UInt8) (nonce : Block) (modify : Bool) :
    Bool × List UInt8 × Block :=
  encryptFrom cipher modify true (cipher nonce) zero plain

/-- `ocb_decrypt` from where the loop has got to. -/
def decryptFrom (cipher : Equiv.Perm Block) (delta checksum : Block) (encrypted : List UInt8) :
    Bool × List UInt8 × Block :=
  let delta := delta.times2
  if 16 < encrypted.length then
    let decoded := delta.xor (cipher.symm (delta.xor (readBlock encrypted)))
    let rest := decryptFrom cipher delta (checksum.xor decoded) (encrypted.drop 16)
    (rest.1, decoded.bytes ++ rest.2.1, rest.2.2)
  else
    let pad := cipher ((lengthBlock encrypted.length).xor delta)
    let tail := (readBlock encrypted).xor pad
    (decide (tail.bytes.take 15 ≠ delta.bytes.take 15), tail.bytes.take encrypted.length,
      cipher (delta.times3.xor (checksum.xor tail)))
termination_by encrypted.length
decreasing_by simp only [List.length_drop]; omega

def ocbDecrypt (cipher : Equiv.Perm Block) (encrypted : List UInt8) (nonce : Block) :
    Bool × List UInt8 × Block :=
  decryptFrom cipher (cipher nonce) zero encrypted

/-- The text that comes back: bit 0 of the first byte of the full block before the last one
to sixteen bytes is flipped if the block is critical. -/
def softened (plain : List UInt8) : List UInt8 :=
  if 16 < plain.length then
    if critical plain then (readBlock plain).flipBit.bytes ++ plain.drop 16
    else plain.take 16 ++ softened (plain.drop 16)
  else plain
termination_by plain.length
decreasing_by simp only [List.length_drop]; omega

variable {cipher : Equiv.Perm Block} {a b block : Block} {data plain : List UInt8}

theorem Block.xor_xor : a.xor (a.xor b) = b :=
  ext_byte fun i => by simp [Block.xor, ← UInt8.xor_assoc]

theorem Block.flipBit_xor : (a.xor b).flipBit = a.xor b.flipBit := by
  refine ext_byte fun i => ?_
  simp only [flipBit, Block.xor, byte_ofFn]
  split_ifs <;> simp [UInt8.xor_assoc]

theorem Block.byte_overwrite (i : Fin 16) :
    (block.overwrite data).byte i = data[i.val]?.getD (block.byte i) := by
  rw [overwrite, byte_ofFn, getD_eq_getElem?_getD]

theorem Block.readBlock_append (rest : List UInt8) : readBlock (block.bytes ++ rest) = block := by
  refine ext_byte fun i => ?_
  rw [readBlock, byte_overwrite, getElem?_append_left (block.length_bytes.symm ▸ i.isLt),
    getElem?_bytes, dif_pos i.isLt]
  rfl

/-- What is put in front of a block is there. -/
theorem Block.take_overwrite {n : ℕ} (hn : n ≤ 16) (hdata : n ≤ data.length) :
    (block.overwrite data).bytes.take n = data.take n := by
  refine ext_getElem? fun i => ?_
  rw [getElem?_take, getElem?_take]
  split_ifs with hi
  · rw [getElem?_bytes, dif_pos (hi.trans_le hn), byte_overwrite,
      List.getElem?_eq_getElem (hi.trans_le hdata), Option.getD_some]
  · rfl

theorem Block.bytes_readBlock (h : 16 < data.length) : (readBlock data).bytes = data.take 16 := by
  rw [← take_overwrite le_rfl h.le, ← readBlock, take_of_length_le (length_bytes _).le]

/-- The last block: what is written is read back, and the tail summed is the same. -/
theorem Block.overwrite_readBlock (h : data.length ≤ 16) :
    (readBlock ((a.xor (a.overwrite data)).bytes.take data.length)).xor a = a.overwrite data := by
  refine ext_byte fun i => ?_
  rw [Block.xor, byte_ofFn, readBlock, byte_overwrite, getElem?_take]
  split_ifs with hi
  · rw [getElem?_bytes, dif_pos i.isLt, Option.getD_some, Block.xor, byte_ofFn, UInt8.xor_comm,
      ← UInt8.xor_assoc, UInt8.xor_self, UInt8.zero_xor]
  · rw [byte_overwrite, List.getElem?_eq_none (not_lt.mp hi)]
    simp [zero]

theorem decryptFrom_block (hlong : 16 < plain.length) (delta checksum : Block) (rest : List UInt8)
    (hrest : rest.length = plain.length - 16) :
    let decoded := if critical plain then (readBlock plain).flipBit else readBlock plain
    let tmp := if critical plain then (delta.times2.xor (readBlock plain)).flipBit
      else delta.times2.xor (readBlock plain)
    (decryptFrom cipher delta checksum ((delta.times2.xor (cipher tmp)).bytes ++ rest)).2 =
      (decoded.bytes ++ (decryptFrom cipher delta.times2 (checksum.xor decoded) rest).2.1,
        (decryptFrom cipher delta.times2 (checksum.xor decoded) rest).2.2) := by
  intro decoded tmp
  have htmp : tmp = delta.times2.xor decoded := by
    simp only [tmp, decoded, flipBit_xor]
    split_ifs <;> rfl
  rw [decryptFrom, if_pos (by rw [length_append, length_bytes]; omega), readBlock_append,
    xor_xor, Equiv.symm_apply_apply, htmp, xor_xor, drop_left' (length_bytes _)]

theorem decryptFrom_encryptFrom (plain : List UInt8) (authentic : Bool) (delta checksum : Block) :
    let encrypted := encryptFrom cipher true authentic delta checksum plain
    encrypted.1 = authentic ∧ encrypted.2.1.length = plain.length ∧
      (decryptFrom cipher delta checksum encrypted.2.1).2 = (softened plain, encrypted.2.2) := by
  induction hlen : plain.length using Nat.strong_induction_on generalizing plain authentic delta
    checksum with
  | h length ih =>
    subst hlen
    rw [encryptFrom]
    by_cases hlong : 16 < plain.length
    · obtain ⟨hauthentic, hrest, hback⟩ := ih (plain.drop 16).length
        (by rw [length_drop]; omega) (plain.drop 16)
        (authentic && (!critical plain || true)) delta.times2
        (if critical plain then (checksum.xor (readBlock plain)).flipBit
          else checksum.xor (readBlock plain)) rfl
      have hblock := @decryptFrom_block cipher plain hlong delta checksum _
        (hrest.trans length_drop)
      simp only [hlong, if_true, Bool.and_true] at hauthentic hback ⊢
      refine ⟨by rw [hauthentic, Bool.or_true, Bool.and_true], ?_, hblock.trans ?_⟩
      · rw [length_append, hrest, length_bytes, length_drop]
        omega
      · have hsum : checksum.xor (if critical plain then (readBlock plain).flipBit else readBlock plain) =
            if critical plain then (checksum.xor (readBlock plain)).flipBit
            else checksum.xor (readBlock plain) := by
          rw [flipBit_xor]
          split_ifs <;> rfl
        have hsoft : softened plain = if critical plain then (readBlock plain).flipBit.bytes ++ plain.drop 16
            else plain.take 16 ++ softened (plain.drop 16) := by rw [softened, if_pos hlong]
        rw [hsum, hback, hsoft]
        split_ifs with hcritical
        · have hlast : ¬16 < (plain.drop 16).length := by
            simp only [critical, Bool.and_eq_true, decide_eq_true_eq] at hcritical
            rw [length_drop]
            omega
          rw [softened, if_neg hlast]
        · rw [bytes_readBlock hlong]
    · have hshort : plain.length ≤ 16 := not_lt.mp hlong
      generalize hpad : cipher ((lengthBlock plain.length).xor delta.times2) = pad
      have hsame : ((pad.xor (pad.overwrite plain)).bytes.take plain.length).length = plain.length := by
        rw [length_take, length_bytes, min_eq_left hshort]
      simp only [hlong, if_false]
      refine ⟨trivial, hsame, ?_⟩
      rw [decryptFrom, hsame, if_neg hlong, softened, if_neg hlong, hpad]
      dsimp only
      rw [overwrite_readBlock hshort, take_overwrite hshort le_rfl, take_length]

/-- Decrypting what was encrypted gives the text back, softened, and the same tag. -/
theorem ocb_round_trip (cipher : Equiv.Perm Block) (nonce : Block) (plain : List UInt8) :
    let encrypted := ocbEncrypt cipher plain nonce true
    encrypted.1 = true ∧ encrypted.2.1.length = plain.length ∧
      (ocbDecrypt cipher encrypted.2.1 nonce).2 = (softened plain, encrypted.2.2) :=
  decryptFrom_encryptFrom plain true (cipher nonce) zero

end MumbleRuntime.Crypto
