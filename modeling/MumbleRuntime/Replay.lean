import MumbleRuntime.CryptState

/-!
# No voice packet is accepted twice

The receiver only ever tries a packet ahead of the highest counter it accepted, by at
most 128, or behind it by less than thirty. A packet behind it that was accepted before
still has its byte in the history: what could have overwritten it is at least 256 away.
The window wraps with the counter, so the argument needs the packets of one direction
to stay clear of it by its width.
-/

namespace MumbleRuntime.Crypto
open Library Block List

theorem Block.byte_zero_setLow (block : Block) (low : UInt8) : (block.setLow low).byte 0 = low := by
  obtain ⟨bytes, hbytes⟩ := block
  match bytes, hbytes with
  | old :: rest, hlen => rfl

variable {iv : Block} {low : UInt8}

theorem Block.value_setLow_ahead (h : (iv.byte 0).toNat < low.toNat) :
    (iv.setLow low).value = (iv.value + (low.toNat - (iv.byte 0).toNat)) % 2 ^ 128 := by
  obtain ⟨-, hval, -, hhigh⟩ := iv.parts
  have hlow := low.toNat_lt
  rw [iv.value_setLow]
  omega

theorem Block.value_setLow_carry :
    ((iv.setLow low).incrementFrom 1).value =
      (iv.value + (256 + low.toNat - (iv.byte 0).toNat)) % 2 ^ 128 := by
  obtain ⟨-, hval, -, hhigh⟩ := iv.parts
  have hlow' := low.toNat_lt
  have hset := iv.value_setLow low
  rw [value_incrementFrom_one, iv.byte_zero_setLow]
  omega

theorem Block.value_setLow_behind (h : low.toNat < (iv.byte 0).toNat) :
    (iv.setLow low).value = (iv.value + (2 ^ 128 - ((iv.byte 0).toNat - low.toNat))) % 2 ^ 128 := by
  obtain ⟨-, hval, -, hhigh⟩ := iv.parts
  rw [iv.value_setLow]
  omega

theorem Block.value_setLow_borrow (h : (iv.byte 0).toNat < low.toNat) :
    ((iv.setLow low).decrementFrom 1).value =
      (iv.value + (2 ^ 128 - (256 + (iv.byte 0).toNat - low.toNat))) % 2 ^ 128 := by
  obtain ⟨-, hval, -, hhigh⟩ := iv.parts
  have hlow' := low.toNat_lt
  have hset := iv.value_setLow low
  rw [value_decrementFrom_one, iv.byte_zero_setLow]
  omega

theorem distance_cases (low ivbyte : UInt8) :
    let raw : ℤ := ivbyte.toNat - low.toNat
    (128 < raw ∧ distance low ivbyte = raw - 256) ∨ (raw < -128 ∧ distance low ivbyte = raw + 256) ∨
      (-128 ≤ raw ∧ raw ≤ 128 ∧ distance low ivbyte = raw) := by
  simp only [distance, gt_iff_lt]
  split_ifs with hgt hlt
  · exact .inl ⟨hgt, rfl⟩
  · exact .inr (.inl ⟨hlt, rfl⟩)
  · exact .inr (.inr ⟨not_lt.mp hlt, not_lt.mp hgt, rfl⟩)

theorem recoverIv_value {ivbyte : UInt8} {recovered : Recovered}
    (h : recoverIv iv ivbyte = some recovered) :
    (recovered.restore = false ∧ ∃ ahead, 1 ≤ ahead ∧ ahead ≤ 128 ∧
        recovered.iv.value = (iv.value + ahead) % 2 ^ 128 ∧
        recovered.late = 0 ∧ recovered.lost + 1 = ahead) ∨
      (recovered.restore = true ∧ recovered.inOrder = false ∧ ∃ behind, 1 ≤ behind ∧ behind ≤ 29 ∧
        recovered.iv.value = (iv.value + (2 ^ 128 - behind)) % 2 ^ 128 ∧
        recovered.late = 1 ∧ recovered.lost = -1) := by
  have hbyte := ivbyte.toNat_lt
  have hlow := (iv.byte 0).toNat_lt
  have hdistance := distance_cases (iv.byte 0) ivbyte
  simp only [recoverIv, UInt8.lt_iff_toNat_lt, gt_iff_lt] at h
  split_ifs at h with hnext hgt hlt hbehind hborrow hahead hcarry <;> cases h
  · have hsucc : ((iv.byte 0).toNat + 1) % 256 = ivbyte.toNat := congrArg UInt8.toNat hnext
    exact .inl ⟨rfl, _, by omega, by omega, value_setLow_ahead hgt, rfl, by dsimp only; omega⟩
  · have hsucc : ((iv.byte 0).toNat + 1) % 256 = ivbyte.toNat := congrArg UInt8.toNat hnext
    exact .inl ⟨rfl, _, by omega, by omega, value_setLow_carry, rfl, by dsimp only; omega⟩
  · exact .inr ⟨rfl, rfl, _, by omega, by omega, value_setLow_behind hbehind.1, rfl, rfl⟩
  · exact .inr ⟨rfl, rfl, _, by omega, by omega, value_setLow_borrow hborrow.1, rfl, rfl⟩
  · exact .inl ⟨rfl, _, by omega, by omega, value_setLow_ahead hahead.1, rfl, by dsimp only; omega⟩
  · exact .inl ⟨rfl, _, by omega, by omega, value_setLow_carry, rfl, by dsimp only; omega⟩

/-- A packet as `encrypt` writes it under a counter. -/
def Sealed (mode : Mode) (iv : Block) (packet : List UInt8) : Prop :=
  ∃ plain, packet =
    iv.byte 0 :: (mode.encrypt plain iv).2.2.bytes.take 3 ++ (mode.encrypt plain iv).2.1

namespace CryptState

variable {mode : Mode} {state : CryptState}

inductive Decrypted (mode : Mode) (state : CryptState) (source : List UInt8) :
    Option (List UInt8) × CryptState → Prop
  | refused : Decrypted mode state source (none, state)
  | accepted {recovered : Recovered} {plain : List UInt8}
      (hrecovered : recoverIv state.decryptIv ((source.take 4).headD 0) = some recovered)
      (hfresh : recovered.inOrder = false →
        state.decryptHistory (recovered.iv.byte 0) ≠ recovered.iv.byte 1)
      (hverifies : mode.verifies (source.drop 4) ((source.take 4).drop 1) recovered.iv) :
      Decrypted mode state source (some plain, state.accept recovered)

theorem decrypt_cases (source : List UInt8) :
    Decrypted mode state source (state.decrypt mode source) := by
  unfold decrypt
  split_ifs with hshort
  · exact .refused
  · simp only
    split
    · exact .refused
    · rename_i recovered hrcv
      split_ifs with hseen hverifies
      · exact .refused
      · exact .accepted hrcv (fun horder heq => hseen ⟨horder, heq⟩) hverifies
      · exact .refused

theorem encrypt_sealed {plain packet : List UInt8} {next : CryptState}
    (h : state.encrypt mode plain = (some packet, next)) :
    Sealed mode state.encryptIv.increment packet := by
  simp only [encrypt] at h
  split at h
  · cases h
  · rename_i ciphertext tag hmode
    cases h
    exact ⟨plain, by rw [hmode]⟩

theorem encrypt_encryptIv (plain : List UInt8) :
    (state.encrypt mode plain).2.encryptIv = state.encryptIv.increment := by
  simp only [encrypt]
  split <;> rfl

def sendAll (mode : Mode) : CryptState → List (List UInt8) → List (Option (List UInt8))
  | _, [] => []
  | state, plain :: rest =>
    (state.encrypt mode plain).1 :: sendAll mode (state.encrypt mode plain).2 rest

def deliver (mode : Mode) (packets : List (Option (List UInt8))) (state : CryptState)
    (number : ℕ) : Bool × CryptState :=
  match packets[number]? with
  | some (some packet) =>
    ((state.decrypt mode packet).1.isSome, (state.decrypt mode packet).2)
  | _ => (false, state)

def acceptedOf (mode : Mode) (packets : List (Option (List UInt8))) :
    CryptState → List ℕ → List ℕ
  | _, [] => []
  | state, number :: rest =>
    if (state.deliver mode packets number).1 then
      number :: acceptedOf mode packets (state.deliver mode packets number).2 rest
    else acceptedOf mode packets (state.deliver mode packets number).2 rest

theorem sendAll_sealed {plains : List (List UInt8)} {number : ℕ} {packet : List UInt8}
    (h : (state.sendAll mode plains)[number]? = some (some packet)) :
    number < plains.length ∧ ∃ iv : Block,
      iv.value = (state.encryptIv.value + (number + 1)) % 2 ^ 128 ∧ Sealed mode iv packet := by
  induction plains generalizing state number with
  | nil => simp [sendAll] at h
  | cons plain rest ih =>
    cases number with
    | zero =>
      have hfst : (state.encrypt mode plain).1 = some packet := by simpa [sendAll] using h
      exact ⟨Nat.succ_pos _, state.encryptIv.increment, state.encryptIv.value_increment,
        encrypt_sealed (Prod.ext hfst rfl)⟩
    | succ number =>
      obtain ⟨hlt, iv, hval, hsealed⟩ := ih (h : (sendAll mode _ rest)[number]? = _)
      refine ⟨Nat.succ_lt_succ hlt, iv, ?_, hsealed⟩
      rw [hval, encrypt_encryptIv, value_increment]
      omega

end CryptState

theorem Block.byte_zero_toNat (block : Block) : (block.byte 0).toNat = block.value % 256 := by
  obtain ⟨-, hval, -, -⟩ := block.parts
  omega

variable {mode : Mode}

theorem Sealed.parts (plain : List UInt8) :
    let packet := iv.byte 0 :: (mode.encrypt plain iv).2.2.bytes.take 3 ++ (mode.encrypt plain iv).2.1
    packet.drop 4 = (mode.encrypt plain iv).2.1 ∧
      (packet.take 4).drop 1 = (mode.encrypt plain iv).2.2.bytes.take 3 := by
  have htag : ((mode.encrypt plain iv).2.2.bytes.take 3).length = 3 := by
    simp [(mode.encrypt plain iv).2.2.length_bytes]
  refine ⟨?_, ?_⟩
  · rw [cons_append, drop_succ_cons, drop_left' htag]
  · rw [cons_append, take_succ_cons, take_left' htag, drop_one, tail_cons]

theorem Sealed.verifies {other : Block} {packet : List UInt8} (hideal : mode.Ideal)
    (hsealed : Sealed mode iv packet)
    (h : mode.verifies (packet.drop 4) ((packet.take 4).drop 1) other) : other = iv := by
  obtain ⟨plain, rfl⟩ := hsealed
  rw [(Sealed.parts plain).1, (Sealed.parts plain).2] at h
  exact hideal plain iv other h

theorem CryptState.deliver_cases (hideal : mode.Ideal) (sender state : CryptState)
    (plains : List (List UInt8)) (number : ℕ) :
    state.deliver mode (sender.sendAll mode plains) number = (false, state) ∨
      ∃ ivbyte recovered, state.deliver mode (sender.sendAll mode plains) number =
          (true, state.accept recovered) ∧ number < plains.length ∧
        recoverIv state.decryptIv ivbyte = some recovered ∧ (recovered.inOrder = false →
          state.decryptHistory (recovered.iv.byte 0) ≠ recovered.iv.byte 1) ∧
        recovered.iv.value = (sender.encryptIv.value + (number + 1)) % 2 ^ 128 := by
  unfold CryptState.deliver
  split
  · rename_i packet hpacket
    obtain ⟨hnumber, iv, hval, hsealed⟩ := CryptState.sendAll_sealed hpacket
    have hcases : CryptState.Decrypted mode state packet (state.decrypt mode packet) :=
      CryptState.decrypt_cases packet
    generalize state.decrypt mode packet = result at hcases ⊢
    cases hcases with
    | refused => exact .inl rfl
    | accepted hrcv hfr hverifies =>
      have hiv := hsealed.verifies hideal hverifies
      exact .inr ⟨_, _, rfl, hnumber, hrcv, hfr, hiv ▸ hval⟩
  · exact .inl rfl

/-- A receiver at the highest counter it accepted, which remembers those just below it. -/
structure Tracked (base count : ℕ) (state : CryptState) (highest : ℕ) (accepted : List ℕ) :
    Prop where
  iv_eq : state.decryptIv.value = (base + highest) % 2 ^ 128
  highest_le : highest ≤ count
  accepted_le : ∀ number ∈ accepted, number + 1 ≤ highest
  remembered : ∀ number ∈ accepted, highest ≤ number + 30 → ∀ iv : Block,
    iv.value = (base + (number + 1)) % 2 ^ 128 → state.decryptHistory (iv.byte 0) = iv.byte 1

namespace Tracked

variable {base count highest : ℕ} {state : CryptState} {accepted : List ℕ}

theorem accept (h : Tracked base count state highest accepted) (hfew : count < 2 ^ 128 - 127)
    {number : ℕ} (hnumber : number < count) {ivbyte : UInt8} {recovered : Recovered}
    (hrcv : recoverIv state.decryptIv ivbyte = some recovered)
    (hfr : recovered.inOrder = false →
      state.decryptHistory (recovered.iv.byte 0) ≠ recovered.iv.byte 1)
    (hval : recovered.iv.value = (base + (number + 1)) % 2 ^ 128) :
    number ∉ accepted ∧
      ∃ highest', Tracked base count (state.accept recovered) highest' (number :: accepted) := by
  have hiv := h.iv_eq
  have hle := h.highest_le
  have hhistory : ∀ iv : Block, ∀ other,
      iv.value = (base + (other + 1)) % 2 ^ 128 → other ≠ number → other < number + 256 →
      number < other + 256 →
      (state.accept recovered).decryptHistory (iv.byte 0) = state.decryptHistory (iv.byte 0) := by
    intro iv other hoth hne hlt hlt'
    refine Function.update_of_ne (fun heq => ?_) _ _
    have hbytes := congrArg UInt8.toNat heq
    rw [byte_zero_toNat, byte_zero_toNat, hoth, hval] at hbytes
    omega
  have hself : ∀ iv : Block, iv.value = (base + (number + 1)) % 2 ^ 128 →
      (state.accept recovered).decryptHistory (iv.byte 0) = iv.byte 1 := by
    intro iv hval'
    obtain rfl := ext_value (hval'.trans hval.symm)
    exact Function.update_self _ _ _
  rcases recoverIv_value hrcv with ⟨hrestore, ahead, hpos, hahead, hfnd, -⟩ |
    ⟨hrestore, horder, behind, hpos, hbehind, hfnd, -⟩
  · have hnumber' : number + 1 = highest + ahead := by
      omega
    have hnew : ∀ other ∈ accepted, other < number := by
      intro other hoth
      have := h.accepted_le other hoth
      omega
    refine ⟨fun hmem => (hnew number hmem).ne rfl, number + 1, ?_, hnumber, ?_, ?_⟩
    · simp only [CryptState.accept, hrestore, Bool.false_eq_true, if_false, hval]
    · intro other hoth
      rcases mem_cons.mp hoth with rfl | hoth
      · exact le_rfl
      · exact Nat.succ_le_succ (hnew other hoth).le
    · intro other hoth hnear iv hoth'
      rcases mem_cons.mp hoth with rfl | hoth
      · exact hself iv hoth'
      · have hlt := hnew other hoth
        rw [hhistory iv other hoth' hlt.ne (by omega) (by omega)]
        exact h.remembered other hoth (by omega) iv hoth'
  · have hnumber' : number + 1 + behind = highest := by
      rw [hval, hiv] at hfnd
      omega
    refine ⟨fun hmem => hfr horder (h.remembered number hmem (by omega) _ hval), highest, ?_,
      hle, ?_, ?_⟩
    · simp only [CryptState.accept, hrestore, if_true]
      exact hiv
    · intro other hoth
      rcases mem_cons.mp hoth with rfl | hoth
      · omega
      · exact h.accepted_le other hoth
    · intro other hoth hnear iv hoth'
      rcases mem_cons.mp hoth with rfl | hoth
      · exact hself iv hoth'
      · have hold := h.remembered other hoth hnear iv hoth'
        have hle' := h.accepted_le other hoth
        by_cases hsame : other = number
        · exact hself iv (hsame ▸ hoth')
        · rw [hhistory iv other hoth' hsame (by omega) (by omega)]
          exact hold

theorem acceptedOf_nodup (hideal : mode.Ideal) {sender : CryptState}
    {plains : List (List UInt8)} (hfew : plains.length < 2 ^ 128 - 127)
    (h : Tracked sender.encryptIv.value plains.length state highest accepted)
    (deliveries : List ℕ) :
    (state.acceptedOf mode (sender.sendAll mode plains) deliveries).Nodup ∧
      ∀ number ∈ state.acceptedOf mode (sender.sendAll mode plains) deliveries,
        number ∉ accepted := by
  induction deliveries generalizing state highest accepted with
  | nil => exact ⟨nodup_nil, fun _ hmem => absurd hmem not_mem_nil⟩
  | cons number rest ih =>
    simp only [CryptState.acceptedOf]
    rcases CryptState.deliver_cases hideal sender state plains number with heq |
      ⟨ivbyte, recovered, heq, hnumber, hrcv, hfr, hval⟩ <;> rw [heq]
    · exact ih h
    · obtain ⟨hnot, highest', hnext⟩ := h.accept hfew hnumber hrcv hfr hval
      obtain ⟨hnd, hdisjoint⟩ := ih hnext
      refine ⟨nodup_cons.mpr ⟨fun hmem => ?_, hnd⟩, fun other hoth => ?_⟩
      · exact hdisjoint number hmem mem_cons_self
      · rcases mem_cons.mp hoth with rfl | hoth
        · exact hnot
        · exact fun hmem => hdisjoint other hoth (mem_cons_of_mem _ hmem)

end Tracked

/-- Of one direction's packets, whatever is delivered in whatever order and how often, the
receiver accepts each at most once, for every initial counter, as long as there are fewer
than 2^128 - 127 of them. -/
theorem packet_accepted_once (mode : Mode) (hideal : mode.Ideal) (sender : CryptState)
    (plains : List (List UInt8)) (hfew : plains.length < 2 ^ 128 - 127) (encryptIv : Block)
    (deliveries : List ℕ) :
    ((CryptState.new encryptIv sender.encryptIv).acceptedOf mode (sender.sendAll mode plains)
      deliveries).Nodup := by
  have hstart : Tracked sender.encryptIv.value plains.length
      (CryptState.new encryptIv sender.encryptIv) 0 [] := by
    refine ⟨?_, Nat.zero_le _, fun _ hmem => absurd hmem List.not_mem_nil,
      fun _ hmem => absurd hmem List.not_mem_nil⟩
    exact (Nat.mod_eq_of_lt sender.encryptIv.value_lt).symm
  exact (hstart.acceptedOf_nodup hideal hfew deliveries).1

def zeroBlock : Block := ⟨List.replicate 16 0, rfl⟩

def plainMode : Mode where
  encrypt plain nonce := (true, nonce.bytes ++ plain, zeroBlock)
  decrypt ciphertext nonce := (ciphertext.take 16 == nonce.bytes, ciphertext.drop 16, zeroBlock)

theorem plainMode_ideal : plainMode.Ideal := by
  intro plain nonce other h
  have htake : (nonce.bytes ++ plain).take 16 = nonce.bytes := take_left' nonce.length_bytes
  simp only [Mode.verifies, plainMode, htake, Bool.and_eq_true, beq_iff_eq] at h
  obtain ⟨bytes, hbytes⟩ := nonce
  obtain ⟨bytes', hbytes'⟩ := other
  obtain rfl : bytes = bytes' := h.1
  rfl

def laterBlock : Block := ⟨0 :: 1 :: List.replicate 14 0, rfl⟩

/-- Three packets, out of order and each of them twice: all are accepted, once. -/
theorem packet_accepted_once_reordered :
    plainMode.Ideal ∧
      (CryptState.new zeroBlock laterBlock).acceptedOf plainMode
        ((CryptState.new laterBlock zeroBlock).sendAll plainMode [[1], [2], [3]])
        [0, 2, 0, 1, 2, 1] = [0, 2, 1] ∧
      ((CryptState.new zeroBlock laterBlock).acceptedOf plainMode
        ((CryptState.new laterBlock zeroBlock).sendAll plainMode [[1], [2], [3]])
        [0, 2, 0, 1, 2, 1]).Nodup :=
  ⟨plainMode_ideal, by decide +kernel,
    packet_accepted_once plainMode plainMode_ideal (CryptState.new laterBlock zeroBlock)
      [[1], [2], [3]] (by decide) zeroBlock [0, 2, 0, 1, 2, 1]⟩

theorem CryptState.acceptedOf_append (mode : Mode) (packets : List (Option (List UInt8)))
    (state : CryptState) (deliveries rest : List ℕ) :
    state.acceptedOf mode packets (deliveries ++ rest) =
      state.acceptedOf mode packets deliveries ++
        (deliveries.foldl (fun state number => (state.deliver mode packets number).2)
          state).acceptedOf mode packets rest := by
  induction deliveries generalizing state with
  | nil => rfl
  | cons number deliveries ih =>
    simp only [cons_append, acceptedOf, foldl_cons]
    split_ifs
    · rw [ih, cons_append]
    · exact ih _

end MumbleRuntime.Crypto
