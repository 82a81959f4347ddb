import MumbleRuntime.Replay

/-!
# What a receiver accepts, and what a refusal leaves

Within its window a receiver rebuilds the whole counter of a packet. Of the packets it has
not accepted it takes the next one and every other whose second byte is not the one it
recalls for that low byte. A packet that is refused leaves the receiver as it was, so a
datagram of an unknown address may be tried on one candidate after the other.
-/

namespace MumbleRuntime.Crypto
open Library Block List CryptState

/-- A packet verifies exactly under the nonce it was sealed with. -/
def Mode.Exact (mode : Mode) : Prop :=
  ∀ plain nonce other, mode.verifies (mode.encrypt plain nonce).2.1
    ((mode.encrypt plain nonce).2.2.bytes.take 3) other ↔ other = nonce

def highest (accepted : List ℕ) : ℕ := accepted.foldl (fun top number => max top (number + 1)) 0

/-- The second byte of the last packet accepted with a low byte; zero if there was none. -/
def recalled (base : ℕ) (accepted : List ℕ) (low : ℕ) : ℕ :=
  accepted.foldl (fun second number =>
    if (base + (number + 1)) % 256 = low then (base + (number + 1)) / 256 % 256 else second) 0

namespace CryptState

def deliverAll (mode : Mode) (packets : List (Option (List UInt8))) (state : CryptState)
    (deliveries : List ℕ) : CryptState :=
  deliveries.foldl (fun state number => (state.deliver mode packets number).2) state

/-- The counter is the highest accepted one and the history what `recalled` says. -/
structure Follows (base : ℕ) (state : CryptState) (accepted : List ℕ) : Prop where
  iv_eq : state.decryptIv.value = (base + highest accepted) % 2 ^ 128
  history_eq : ∀ low, (state.decryptHistory low).toNat = recalled base accepted low.toNat

def TakesExactly (mode : Mode) (state : CryptState) (packet : List UInt8) (base top number : ℕ) :
    Prop :=
  (state.decrypt mode packet).1.isSome ∧
    (∃ recovered, recoverIv state.decryptIv (packet.headD 0) = some recovered ∧
      recovered.iv.value = (base + (number + 1)) % 2 ^ 128) ∧
    (state.decrypt mode packet).2.decryptIv.value = (base + max top (number + 1)) % 2 ^ 128

end CryptState

variable {base top count number : ℕ} {iv : Block} {accepted : List ℕ} {mode : Mode}
  {state : CryptState} {packet : List UInt8}

theorem recoverIv_window (hiv : iv.value = (base + top) % 2 ^ 128) {ivbyte : UInt8}
    (hlow : ivbyte.toNat = (base + (number + 1)) % 256) (hne : number + 1 ≠ top)
    (hbehind : top < number + 1 + 30) (hahead : number + 1 ≤ top + 127) :
    ∃ recovered, recoverIv iv ivbyte = some recovered ∧
      recovered.iv.value = (base + (number + 1)) % 2 ^ 128 ∧
      (recovered.inOrder = true ↔ number = top) ∧ recovered.restore = decide (number + 1 < top) := by
  have hzero := iv.byte_zero_toNat
  have hdistance := distance_cases (iv.byte 0) ivbyte
  have hnext : iv.byte 0 + 1 = ivbyte ↔ ((iv.byte 0).toNat + 1) % 256 = ivbyte.toNat := by
    rw [← UInt8.toNat_inj, UInt8.toNat_add, UInt8.toNat_one]
  simp only [recoverIv, hnext, UInt8.lt_iff_toNat_lt, gt_iff_lt]
  split_ifs with horder hgt hlt hlate hborrow hlost hcarry
  · exact ⟨_, rfl, by rw [value_setLow_ahead hgt]; omega, by simp; omega, by simp; omega⟩
  · exact ⟨_, rfl, by rw [value_setLow_carry]; omega, by simp; omega, by simp; omega⟩
  · omega
  · exact ⟨_, rfl, by rw [value_setLow_behind hlate.1]; omega, by simp; omega, by simp; omega⟩
  · exact ⟨_, rfl, by rw [value_setLow_borrow hborrow.1]; omega, by simp; omega, by simp; omega⟩
  · exact ⟨_, rfl, by rw [value_setLow_ahead hlost.1]; omega, by simp; omega, by simp; omega⟩
  · exact ⟨_, rfl, by rw [value_setLow_carry]; omega, by simp; omega, by simp; omega⟩
  · omega

theorem Mode.Exact.ideal (h : mode.Exact) : mode.Ideal :=
  fun plain nonce other => (h plain nonce other).mp

theorem Block.second_toNat (hiv : iv.value = (base + (number + 1)) % 2 ^ 128) :
    (iv.byte 1).toNat = (base + (number + 1)) / 256 % 256 := by
  rw [iv.parts.second_eq, hiv]
  omega

namespace CryptState

theorem Follows.accept (h : Follows base state accepted) {recovered : Recovered}
    (hval : recovered.iv.value = (base + (number + 1)) % 2 ^ 128)
    (hside : if recovered.restore then number + 1 ≤ highest accepted else highest accepted ≤ number + 1) :
    Follows base (state.accept recovered) (accepted ++ [number]) := by
  have hlow : (recovered.iv.byte 0).toNat = (base + (number + 1)) % 256 := by
    rw [byte_zero_toNat, hval]
    omega
  refine ⟨?_, fun low => ?_⟩
  · rw [highest, foldl_append, foldl_cons, foldl_nil, ← highest, CryptState.accept]
    split_ifs at hside ⊢
    · rw [max_eq_left hside, h.iv_eq]
    · rw [max_eq_right hside, hval]
  · rw [recalled, foldl_append, foldl_cons, foldl_nil, ← recalled, ← hlow,
      ← second_toNat hval, ← h.history_eq]
    change (Function.update state.decryptHistory _ _ low).toNat = _
    by_cases hsame : low = recovered.iv.byte 0
    · rw [hsame, Function.update_self, if_pos rfl]
    · rw [Function.update_of_ne hsame, if_neg fun heq => hsame (UInt8.toNat_inj.mp heq.symm)]

theorem deliverAll_concat (packets : List (Option (List UInt8))) (deliveries : List ℕ) :
    state.deliverAll mode packets (deliveries ++ [number]) =
        ((state.deliverAll mode packets deliveries).deliver mode packets number).2 ∧
      state.acceptedOf mode packets (deliveries ++ [number]) = state.acceptedOf mode packets deliveries ++
        if ((state.deliverAll mode packets deliveries).deliver mode packets number).1 then [number]
        else [] :=
  ⟨foldl_append, acceptedOf_append mode packets state deliveries [number]⟩

theorem follows_new (encryptIv : Block) (sender : CryptState) :
    Follows sender.encryptIv.value (new encryptIv sender.encryptIv) [] :=
  ⟨(Nat.mod_eq_of_lt sender.encryptIv.value_lt).symm, fun _ => rfl⟩

/-- Every state a receiver reaches follows the packets it accepted. -/
theorem follows_deliverAll (hideal : mode.Ideal) (sender : CryptState) (plains : List (List UInt8))
    (hfew : plains.length < 2 ^ 128 - 127) (encryptIv : Block) (deliveries : List ℕ) :
    let packets := sender.sendAll mode plains
    let receiver := new encryptIv sender.encryptIv
    Follows sender.encryptIv.value (receiver.deliverAll mode packets deliveries)
        (receiver.acceptedOf mode packets deliveries) ∧
      highest (receiver.acceptedOf mode packets deliveries) ≤ plains.length := by
  intro packets receiver
  induction deliveries using reverseRecOn with
  | nil => exact ⟨follows_new encryptIv sender, Nat.zero_le _⟩
  | append_singleton deliveries number ih =>
    obtain ⟨hfol, hcnt⟩ := ih
    rw [(deliverAll_concat packets deliveries).1, (deliverAll_concat packets deliveries).2]
    rcases deliver_cases hideal sender (receiver.deliverAll mode packets deliveries) plains number with
      heq | ⟨ivbyte, recovered, heq, hnumber, hrcv, -, hval⟩ <;> rw [heq]
    · simpa using ⟨hfol, hcnt⟩
    · have hiv := hfol.iv_eq
      refine ⟨hfol.accept hval ?_, ?_⟩
      · rcases recoverIv_value hrcv with ⟨hrestore, ahead, hpos, hahead, hfnd, -⟩ |
          ⟨hrestore, -, behind, hpos, hbehind, hfnd, -⟩ <;>
          rw [hval, hiv] at hfnd <;>
          simp only [hrestore, Bool.false_eq_true, if_true, if_false] <;> omega
      · rw [if_pos rfl, highest, foldl_append]
        exact max_le hcnt hnumber

theorem decrypt_sealed (hexact : mode.Exact) (hsealed : Sealed mode iv packet)
    {recovered : Recovered} (hrcv : recoverIv state.decryptIv (iv.byte 0) = some recovered)
    (hiv : recovered.iv = iv) :
    packet.headD 0 = iv.byte 0 ∧
      if recovered.inOrder = false ∧ state.decryptHistory (iv.byte 0) = iv.byte 1 then
        (state.decrypt mode packet).1 = none
      else (state.decrypt mode packet).1.isSome ∧
        (state.decrypt mode packet).2 = state.accept recovered := by
  have hverifies : mode.verifies (packet.drop 4) ((packet.take 4).drop 1) iv := by
    obtain ⟨plain, rfl⟩ := hsealed
    rw [(Sealed.parts plain).1, (Sealed.parts plain).2]
    exact (hexact plain iv iv).mpr rfl
  have hlong : ¬packet.length < 4 ∧ packet.headD 0 = iv.byte 0 ∧
      (packet.take 4).headD 0 = iv.byte 0 := by
    obtain ⟨plain, rfl⟩ := hsealed
    simp [(mode.encrypt plain iv).2.2.length_bytes]
  refine ⟨hlong.2.1, ?_⟩
  simp only [decrypt, if_neg hlong.1, hlong.2.2, hrcv, hiv, hverifies, if_true]
  split_ifs <;> simp

end CryptState

/-- In every state a receiver can reach, a packet of the window that it has not accepted is
taken exactly if it is the next one or its second byte is not the one recalled for its low
byte. -/
theorem window_packet_taken_iff (mode : Mode) (hexact : mode.Exact) (sender : CryptState)
    (plains : List (List UInt8)) (hfew : plains.length < 2 ^ 128 - 127) (encryptIv : Block)
    (deliveries : List ℕ) (number : ℕ) (packet : List UInt8)
    (hpacket : (sender.sendAll mode plains)[number]? = some (some packet)) :
    let receiver := CryptState.new encryptIv sender.encryptIv
    let accepted := receiver.acceptedOf mode (sender.sendAll mode plains) deliveries
    let base := sender.encryptIv.value
    number ∉ accepted → number + 1 ≠ highest accepted → highest accepted < number + 1 + 30 →
      number + 1 ≤ highest accepted + 127 →
      ((receiver.deliverAll mode (sender.sendAll mode plains) deliveries).TakesExactly mode packet base
          (highest accepted) number ↔
        number = highest accepted ∨ recalled base accepted ((base + (number + 1)) % 256) ≠
          (base + (number + 1)) / 256 % 256) := by
  intro receiver accepted base _ hne hbehind hahead
  have hfol : CryptState.Follows base
      (receiver.deliverAll mode (sender.sendAll mode plains) deliveries) accepted :=
    (CryptState.follows_deliverAll hexact.ideal sender plains hfew encryptIv deliveries).1
  obtain ⟨-, iv, hval, hsealed⟩ := CryptState.sendAll_sealed hpacket
  generalize receiver.deliverAll mode (sender.sendAll mode plains) deliveries = state at hfol ⊢
  have hlow : (iv.byte 0).toNat = (base + (number + 1)) % 256 := by
    rw [byte_zero_toNat, hval]
    omega
  obtain ⟨recovered, hrcv, hfnd, horder, hrestore⟩ :=
    recoverIv_window hfol.iv_eq hlow hne hbehind hahead
  obtain ⟨hhead, hdecrypt⟩ := CryptState.decrypt_sealed hexact hsealed hrcv
    (ext_value (hfnd.trans hval.symm))
  have hseen : state.decryptHistory (iv.byte 0) = iv.byte 1 ↔
      recalled base accepted ((base + (number + 1)) % 256) = (base + (number + 1)) / 256 % 256 := by
    rw [← UInt8.toNat_inj, hfol.history_eq, hlow, second_toNat hval]
  simp only [hseen, ← Bool.not_eq_true, horder] at hdecrypt
  unfold CryptState.TakesExactly
  split_ifs at hdecrypt with hrefused
  · rw [hdecrypt]
    simpa using hrefused
  · rw [hdecrypt.2, hhead]
    refine ⟨fun _ => by tauto, fun _ => ⟨hdecrypt.1, ⟨recovered, hrcv, hfnd⟩, ?_⟩⟩
    simp only [CryptState.accept, hrestore, decide_eq_true_eq]
    split_ifs with hless
    · rw [hfol.iv_eq, max_eq_left hless.le]
    · rw [hfnd, max_eq_right (by omega)]

theorem plainMode_exact : plainMode.Exact := by
  refine fun plain nonce other => ⟨plainMode_ideal plain nonce other, ?_⟩
  rintro rfl
  have htake : (other.bytes ++ plain).take 16 = other.bytes := take_left' other.length_bytes
  simp [Mode.verifies, plainMode, htake]

/-- After the first packet the third is taken ahead of the second, and then the second. -/
theorem window_packet_taken_iff_reordered :
    let packets := (CryptState.new laterBlock zeroBlock).sendAll plainMode [[1], [2], [3]]
    let receiver := CryptState.new zeroBlock laterBlock
    (receiver.deliverAll plainMode packets [0, 2]).TakesExactly plainMode
      (2 :: [0, 0, 0] ++ (2 :: 1 :: List.replicate 14 0 ++ [2])) laterBlock.value 3 1 :=
  (window_packet_taken_iff plainMode plainMode_exact (CryptState.new laterBlock zeroBlock)
    [[1], [2], [3]] (by decide) zeroBlock [0, 2] 1 _ (by decide +kernel) (by decide +kernel)
    (by decide +kernel) (by decide +kernel) (by decide +kernel)).mpr (by decide +kernel)

/-- Sealed from the counter zero, the second packet is refused when it arrives before the
first: its second byte is that of an empty history. -/
theorem first_arrival_taken_for_replay :
    plainMode.Exact ∧
      (CryptState.new zeroBlock zeroBlock).acceptedOf plainMode
        ((CryptState.new zeroBlock zeroBlock).sendAll plainMode [[1], [2]]) [1] = [] ∧
      ¬(CryptState.new zeroBlock zeroBlock).TakesExactly plainMode
        (2 :: [0, 0, 0] ++ (2 :: List.replicate 15 0 ++ [2])) 0 0 1 :=
  ⟨plainMode_exact, by decide +kernel, fun htkn => absurd htkn.1 (by decide +kernel)⟩

/-! ### The window round the counter -/

theorem sendAll_plainMode (sender : CryptState) {plains : List (List UInt8)}
    (h : number < plains.length) :
    ∃ packet, (sender.sendAll plainMode plains)[number]? = some (some packet) := by
  induction plains generalizing sender number with
  | nil => cases h
  | cons plain rest ih =>
    cases number with
    | zero => exact ⟨_, rfl⟩
    | succ number => exact ih _ (Nat.lt_of_succ_lt_succ h)

theorem highest_range (count : ℕ) : highest (range count) = count := by
  induction count with
  | zero => rfl
  | succ count ih =>
    rw [range_succ, highest, foldl_append, ← highest, ih]
    exact max_eq_right (Nat.le_succ count)

theorem recalled_range {first rest low : ℕ} (hlast : (base + (first + 1)) % 256 = low)
    (hrest : rest < 256) :
    recalled base (range (first + 1 + rest)) low = (base + (first + 1)) / 256 % 256 := by
  induction rest with
  | zero =>
    rw [Nat.add_zero, range_succ, recalled, foldl_append]
    exact if_pos hlast
  | succ rest ih =>
    rw [← Nat.add_assoc, range_succ, recalled, foldl_append, ← recalled,
      ih (Nat.lt_of_succ_lt hrest)]
    exact if_neg (by omega)

/-- What is delivered in order is accepted, however far the counter goes. -/
theorem CryptState.follows_range (sender : CryptState) (plains : List (List UInt8))
    (encryptIv : Block) {count : ℕ} (h : count ≤ plains.length) :
    let packets := sender.sendAll plainMode plains
    let receiver := new encryptIv sender.encryptIv
    receiver.acceptedOf plainMode packets (range count) = range count ∧
      Follows sender.encryptIv.value (receiver.deliverAll plainMode packets (range count))
        (range count) := by
  intro packets receiver
  induction count with
  | zero => exact ⟨rfl, follows_new encryptIv sender⟩
  | succ count ih =>
    obtain ⟨hacc, hfol⟩ := ih (Nat.le_of_succ_le h)
    obtain ⟨packet, hpacket⟩ := sendAll_plainMode sender h
    obtain ⟨-, iv, hval, hsealed⟩ := sendAll_sealed hpacket
    rw [range_succ, (deliverAll_concat packets _).1, (deliverAll_concat packets _).2, hacc]
    generalize receiver.deliverAll plainMode packets (range count) = state at hfol ⊢
    have htop := highest_range count
    obtain ⟨recovered, hrcv, hfnd, horder, hrestore⟩ := @recoverIv_window _ _ count _
      hfol.iv_eq (iv.byte 0) (by rw [byte_zero_toNat, hval]; omega) (by omega)
      (by omega) (by omega)
    obtain ⟨-, hdecrypt⟩ := decrypt_sealed plainMode_exact hsealed hrcv
      (ext_value (hfnd.trans hval.symm))
    rw [if_neg (by simp [horder.mpr htop.symm])] at hdecrypt
    simp only [deliver, packets, hpacket, hdecrypt.1, hdecrypt.2, if_true]
    exact ⟨trivial, hfol.accept hfnd (by simp [hrestore, htop])⟩

def edgeBlock : Block := ⟨127 :: List.replicate 15 0, rfl⟩

theorem acceptedOf_round {count : ℕ} (hcnt : 127 + count = 2 ^ 128) {plains : List (List UInt8)}
    (hlen : plains.length = count) :
    (new zeroBlock edgeBlock).acceptedOf plainMode
      ((new edgeBlock zeroBlock).sendAll plainMode plains)
      (range count ++ [0]) = range count ++ [0] := by
  obtain ⟨hacc, hfol⟩ := follows_range (new edgeBlock zeroBlock) plains zeroBlock hlen.ge
  obtain ⟨packet, hpacket⟩ := sendAll_plainMode (new edgeBlock zeroBlock)
    (show 0 < plains.length by omega)
  obtain ⟨-, iv, hval, hsealed⟩ := sendAll_sealed hpacket
  rw [show (new edgeBlock zeroBlock).encryptIv = edgeBlock from rfl] at hacc hfol hval
  rw [show edgeBlock.value = 127 by decide] at hfol hval
  obtain rfl : iv = zeroBlock.setLow 128 := ext_value (hval.trans (by decide))
  have hiv := hfol.iv_eq
  have hseen := hfol.history_eq 128
  obtain ⟨first, rfl⟩ : ∃ first, count = first + 1 + 128 := ⟨count - 129, by omega⟩
  rw [recalled_range (by rw [show (128 : UInt8).toNat = 128 from rfl]; omega) (by decide)] at hseen
  rw [highest_range, hcnt] at hiv
  refine (deliverAll_concat _ _).2.trans ?_
  generalize deliverAll plainMode _ _ _ = state at hiv hseen ⊢
  obtain ⟨-, hdecrypt⟩ := @decrypt_sealed _ _ state _ plainMode_exact hsealed
    { iv := zeroBlock.setLow 128, inOrder := false, restore := false, late := 0, lost := 127 }
    (by rw [ext_value (hiv.trans (by decide) : _ = zeroBlock.value)]; rfl) rfl
  rw [if_neg] at hdecrypt
  · rw [hacc]
    simp only [deliver, hpacket, hdecrypt.1, if_true]
  · rintro ⟨-, heq⟩
    rw [show (zeroBlock.setLow 128).byte 0 = 128 by decide,
      show (zeroBlock.setLow 128).byte 1 = 0 by decide] at heq
    rw [heq] at hseen
    have hzero : (0 : UInt8).toNat = 0 := rfl
    omega

/-- With 2^128 - 127 packets the window reaches round the counter: once all of them were
delivered in order, the first is accepted again. -/
theorem first_packet_accepted_again :
    plainMode.Ideal ∧ (List.replicate (2 ^ 128 - 127) ([] : List UInt8)).length < 2 ^ 128 ∧
      ¬((CryptState.new zeroBlock edgeBlock).acceptedOf plainMode
        ((CryptState.new edgeBlock zeroBlock).sendAll plainMode
          (List.replicate (2 ^ 128 - 127) []))
        (List.range' 0 (2 ^ 128 - 127) ++ [0])).Nodup := by
  refine ⟨plainMode_ideal, ?_, ?_⟩
  · rw [List.length_replicate]
    decide
  · rw [← List.range_eq_range', acceptedOf_round (by decide) List.length_replicate, List.nodup_append]
    intro h
    exact h.2.2 0 (List.mem_range.mpr (by decide)) 0 (List.mem_singleton_self 0) rfl

/-! ### Refusals -/

/-- `decrypt` as it writes the counter in place and puts it back. -/
def CryptState.decryptInPlace (mode : Mode) (state : CryptState) (source : List UInt8) :
    Option (List UInt8) × CryptState :=
  if source.length < 4 then (none, state)
  else
    let header := source.take 4
    let saveiv := state.decryptIv
    match recoverIv state.decryptIv (header.headD 0) with
    | none => (none, state)
    | some recovered =>
      let state := { state with decryptIv := recovered.iv }
      if recovered.inOrder = false ∧
          state.decryptHistory (state.decryptIv.byte 0) = state.decryptIv.byte 1 then
        (none, { state with decryptIv := saveiv })
      else
        let result := mode.decrypt (source.drop 4) state.decryptIv
        if result.1 = false ∨ result.2.2.bytes.take 3 ≠ header.drop 1 then
          (none, { state with decryptIv := saveiv })
        else
          let state := { state with
            decryptHistory := Function.update state.decryptHistory (state.decryptIv.byte 0)
              (state.decryptIv.byte 1) }
          let state := if recovered.restore then { state with decryptIv := saveiv } else state
          (some result.2.1, { state with
            good := state.good + 1
            late := applyStat state.late recovered.late
            lost := applyStat state.lost recovered.lost })

theorem CryptState.decryptInPlace_eq (mode : Mode) (state : CryptState) (source : List UInt8) :
    state.decryptInPlace mode source = state.decrypt mode source := by
  unfold decryptInPlace decrypt
  split_ifs with hshort
  · rfl
  · simp only
    cases recoverIv state.decryptIv ((source.take 4).headD 0) with
    | none => rfl
    | some recovered =>
      by_cases hseen : recovered.inOrder = false ∧
          state.decryptHistory (recovered.iv.byte 0) = recovered.iv.byte 1
      · exact (if_pos hseen).trans (if_pos hseen).symm
      · refine (if_neg hseen).trans (Eq.trans ?_ (if_neg hseen).symm)
        by_cases hok : mode.verifies (source.drop 4) ((source.take 4).drop 1) recovered.iv
        · rw [if_pos hok, if_neg (by simpa [Mode.verifies] using hok), accept]
          cases recovered.restore <;> rfl
        · rw [if_neg hok, if_pos]
          rw [Mode.verifies, Bool.and_eq_true, beq_iff_eq] at hok
          grind

/-- The cold path of `handle_datagram`: the candidates, each with the mode of its own key, are
tried in turn until one accepts. -/
def coldPath {κ : Type*} (modeOf : κ → Mode) (datagram : List UInt8) :
    List (κ × CryptState) → Option (κ × List UInt8) × List (κ × CryptState)
  | [] => (none, [])
  | (peer, state) :: rest =>
    match state.decryptInPlace (modeOf peer) datagram with
    | (some plaintext, state) => (some (peer, plaintext), (peer, state) :: rest)
    | (none, state) =>
      ((coldPath modeOf datagram rest).1, (peer, state) :: (coldPath modeOf datagram rest).2)

theorem decryptInPlace_refused (mode : Mode) (state : CryptState) (source : List UInt8)
    (h : (state.decryptInPlace mode source).1 = none) :
    state.decryptInPlace mode source = (none, state) := by
  rw [decryptInPlace_eq] at h ⊢
  have hcases : CryptState.Decrypted mode state source (state.decrypt mode source) :=
    decrypt_cases source
  generalize state.decrypt mode source = result at hcases h ⊢
  cases hcases with
  | refused => rfl
  | accepted => cases h

/-- A refused packet leaves the state as it was, and of any number of candidates those that
refuse a datagram, and those after the one that takes it, are left as they were. -/
theorem refusal_leaves_state {κ : Type*} (modeOf : κ → Mode) (datagram : List UInt8) :
    (∀ mode state, (CryptState.decryptInPlace mode state datagram).1 = none →
      (state.decryptInPlace mode datagram).2 = state) ∧
    ∀ candidates : List (κ × CryptState),
      (coldPath modeOf datagram candidates).2.length = candidates.length ∧
      ∀ (index : ℕ) (peer : κ) (state : CryptState), candidates[index]? = some (peer, state) →
        (state.decryptInPlace (modeOf peer) datagram).1 = none →
        (coldPath modeOf datagram candidates).2[index]? = some (peer, state) := by
  refine ⟨fun mode state h => by rw [decryptInPlace_refused mode state datagram h], ?_⟩
  intro candidates
  induction candidates with
  | nil => exact ⟨rfl, fun index peer state hget => by cases hget⟩
  | cons candidate rest ih =>
    obtain ⟨first, state⟩ := candidate
    rcases htried : state.decryptInPlace (modeOf first) datagram with ⟨_ | plaintext, next⟩
    · obtain rfl : next = state := by
        have hrefused := decryptInPlace_refused (modeOf first) state datagram (by rw [htried])
        exact (Prod.ext_iff.mp (htried.symm.trans hrefused)).2
      simp only [coldPath, htried]
      refine ⟨congrArg Nat.succ ih.1, fun index peer other hget hnone => ?_⟩
      cases index with
      | zero => exact hget
      | succ index => exact ih.2 index peer other hget hnone
    · simp only [coldPath, htried]
      refine ⟨rfl, fun index peer other hget hnone => ?_⟩
      cases index with
      | zero =>
        cases hget
        rw [htried] at hnone
        cases hnone
      | succ index => exact hget

end MumbleRuntime.Crypto
