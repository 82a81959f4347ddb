import Mathlib.Algebra.Ring.Nat
import Mathlib.Data.List.Basic
import Mathlib.Tactic.SplitIfs

/-!
# Control frames on a byte stream

A frame is a two-byte type, a four-byte length and a payload. The reader keeps
what it has not parsed yet and reads a chunk whenever that is not a whole frame,
so what it returns depends on the stream alone and not on how it was cut.
-/

namespace MumbleRuntime.Protocol

open List

def headerLen : ℕ := 6

def maxPayloadLen : ℕ := 0x7fffff

/-- `FramingError::PayloadTooLarge`, the one error of `parse_frame` and `write_frame`. -/
structure PayloadTooLarge where
  declared : ℕ
  max : ℕ
  deriving DecidableEq

structure Frame where
  messageType : UInt16
  payload : List UInt8

def Frame.totalLen (frame : Frame) : ℕ := headerLen + frame.payload.length

def toBeBytes : ℕ → ℕ → List UInt8
  | 0, _ => []
  | width + 1, n => toBeBytes width (n / 256) ++ [UInt8.ofNat n]

def fromBeBytes (bytes : List UInt8) : ℕ := bytes.foldl (fun n byte => n * 256 + byte.toNat) 0

def declaredLen (buf : List UInt8) : ℕ := fromBeBytes ((buf.drop 2).take 4)

def parseFrame (buf : List UInt8) : Except PayloadTooLarge (Option Frame) :=
  if buf.length < headerLen then .ok none
  else if maxPayloadLen < declaredLen buf then .error ⟨declaredLen buf, maxPayloadLen⟩
  else if buf.length < headerLen + declaredLen buf then .ok none
  else .ok (some ⟨.ofNat (fromBeBytes (buf.take 2)), (buf.drop headerLen).take (declaredLen buf)⟩)

def Frame.bytes (frame : Frame) : List UInt8 :=
  toBeBytes 2 frame.messageType.toNat ++ (toBeBytes 4 frame.payload.length ++ frame.payload)

def writeFrame (frame : Frame) (out : List UInt8) : Except PayloadTooLarge (List UInt8) :=
  if 2 ^ 32 ≤ frame.payload.length then .error ⟨maxPayloadLen + 1, maxPayloadLen⟩
  else if maxPayloadLen < frame.payload.length then
    .error ⟨frame.payload.length, maxPayloadLen⟩
  else .ok (out ++ frame.bytes)

/-- Encoding and decoding of messages, assumed inverse. -/
structure Codec (M ε : Type*) where
  encodeControl : M → Frame
  decodeFrame : Frame → Except ε M
  decode_encode : ∀ message, decodeFrame (encodeControl message) = .ok message

inductive ReadError (ε : Type*)
  | framing (error : PayloadTooLarge)
  | decoding (error : ε)
  | closedMidFrame (buffered : ℕ)
  deriving DecidableEq

section Reader

variable {M ε : Type*} (codec : Codec M ε)

def Codec.encodeFrame (message : M) (out : List UInt8) : Except PayloadTooLarge (List UInt8) :=
  writeFrame (codec.encodeControl message) out

/-- The payload of the message is within the limit. -/
def Codec.Fits (message : M) : Prop :=
  (codec.encodeControl message).payload.length ≤ maxPayloadLen

def Codec.bytes (message : M) : List UInt8 := (codec.encodeControl message).bytes

def tryParse (buffer : List UInt8) : Except (ReadError ε) (Option (M × ℕ)) :=
  match parseFrame buffer with
  | .error error => .error (.framing error)
  | .ok none => .ok none
  | .ok (some frame) =>
    match codec.decodeFrame frame with
    | .error error => .error (.decoding error)
    | .ok message => .ok (some (message, frame.totalLen))

/-- What `next` returns without reading, and the buffer it leaves. -/
def parsed (buffer : List UInt8) : Option (Except (ReadError ε) M × List UInt8) :=
  match tryParse codec buffer with
  | .error error => some (.error error, buffer)
  | .ok none => none
  | .ok (some (message, consumed)) => some (.ok message, buffer.drop consumed)

def atEnd (buffer : List UInt8) : Except (ReadError ε) (Option M) :=
  if buffer.isEmpty then .ok none else .error (.closedMidFrame buffer.length)

/-- One call, on a buffer and the chunks to be read; an empty chunk is the end of the
stream. -/
def next (buffer : List UInt8) (chunks : List (List UInt8)) :
    Except (ReadError ε) (Option M) × List UInt8 × List (List UInt8) :=
  match parsed codec buffer with
  | some (result, buffer) => (result.map some, buffer, chunks)
  | none =>
    match chunks with
    | [] => (atEnd buffer, buffer, [])
    | chunk :: rest =>
      if chunk.isEmpty then (atEnd buffer, buffer, rest) else next (buffer ++ chunk) rest

def results : ℕ → List UInt8 → List (List UInt8) → List (Except (ReadError ε) (Option M))
  | 0, _, _ => []
  | n + 1, buffer, chunks =>
    let returned := next codec buffer chunks
    returned.1 :: results n returned.2.1 returned.2.2

end Reader

theorem length_toBeBytes (width n : ℕ) : (toBeBytes width n).length = width := by
  induction width generalizing n with
  | zero => rfl
  | succ width ih => rw [toBeBytes, length_append, ih, length_singleton]

theorem fromBeBytes_toBeBytes {width n : ℕ} (h : n < 256 ^ width) :
    fromBeBytes (toBeBytes width n) = n := by
  induction width generalizing n with
  | zero => exact (Nat.lt_one_iff.mp h).symm
  | succ width ih =>
    have hdiv : n / 256 < 256 ^ width := Nat.div_lt_of_lt_mul (by rwa [← Nat.pow_succ'])
    have hvalue := ih hdiv
    simp only [fromBeBytes] at hvalue
    simp only [fromBeBytes, toBeBytes, foldl_append, hvalue, foldl_cons, foldl_nil,
      UInt8.toNat_ofNat']
    omega

theorem Frame.length_bytes (frame : Frame) : frame.bytes.length = frame.totalLen := by
  simp only [Frame.bytes, length_append, length_toBeBytes, Frame.totalLen, headerLen]
  omega

variable {frame : Frame} {buf rest tail : List UInt8} {chunks : List (List UInt8)}

theorem parseFrame_bytes (h : frame.payload.length ≤ maxPayloadLen) (rest : List UInt8) :
    parseFrame (frame.bytes ++ rest) = .ok (some frame) := by
  have htype := length_toBeBytes 2 frame.messageType.toNat
  have hlen := length_toBeBytes 4 frame.payload.length
  have hcode : frame.messageType.toNat < 256 ^ 2 := frame.messageType.toNat_lt
  have hshort : frame.payload.length < 256 ^ 4 := Nat.lt_of_le_of_lt h (by decide)
  have hdrop : (frame.bytes ++ rest).drop 2 =
      toBeBytes 4 frame.payload.length ++ (frame.payload ++ rest) := by
    simp only [Frame.bytes, append_assoc, drop_left' htype]
  have hrest : (frame.bytes ++ rest).drop headerLen = frame.payload ++ rest := by
    rw [show headerLen = 2 + 4 from rfl, ← drop_drop, hdrop, drop_left' hlen]
  have hdeclared : declaredLen (frame.bytes ++ rest) = frame.payload.length := by
    rw [declaredLen, hdrop, take_left' hlen, fromBeBytes_toBeBytes hshort]
  have hfirst : (frame.bytes ++ rest).take 2 = toBeBytes 2 frame.messageType.toNat := by
    simp only [Frame.bytes, append_assoc, take_left' htype]
  have hlong : (frame.bytes ++ rest).length = headerLen + frame.payload.length + rest.length := by
    rw [length_append, frame.length_bytes, Frame.totalLen]
  rw [parseFrame, hdeclared, if_neg (by omega), if_neg (by omega), if_neg (by omega), hfirst, hrest,
    take_left' rfl, fromBeBytes_toBeBytes hcode, UInt16.ofNat_toNat]

theorem parseFrame_append (more : List UInt8) (h : parseFrame buf ≠ .ok none) :
    parseFrame (buf ++ more) = parseFrame buf := by
  have hlength : (buf ++ more).length = buf.length + more.length := length_append
  have hheader : headerLen = 6 := rfl
  unfold parseFrame at h ⊢
  by_cases hshort : buf.length < headerLen
  · exact absurd (if_pos hshort) h
  have htype : (buf ++ more).take 2 = buf.take 2 := take_append_of_le_length (by omega)
  have hdeclared : declaredLen (buf ++ more) = declaredLen buf := by
    rw [declaredLen, drop_append_of_le_length (by omega),
      take_append_of_le_length (by rw [length_drop]; omega), declaredLen]
  rw [if_neg hshort] at h ⊢
  rw [if_neg (by omega), hdeclared, htype]
  by_cases hlarge : maxPayloadLen < declaredLen buf
  · rw [if_pos hlarge, if_pos hlarge]
  rw [if_neg hlarge] at h ⊢
  rw [if_neg hlarge]
  by_cases hcut : buf.length < headerLen + declaredLen buf
  · exact absurd (if_pos hcut) h
  rw [if_neg hcut, if_neg (by omega), drop_append_of_le_length (by omega),
    take_append_of_le_length (by rw [length_drop]; omega)]

theorem totalLen_le (h : parseFrame buf = .ok (some frame)) : frame.totalLen ≤ buf.length := by
  unfold parseFrame at h
  split_ifs at h with hshort hlarge hcut <;> cases h
  simp only [Frame.totalLen, length_take, length_drop]
  omega

theorem parseFrame_cut {more : List UInt8} (h : frame.payload.length ≤ maxPayloadLen)
    (hcut : buf ++ more = frame.bytes) (hmore : more ≠ []) : parseFrame buf = .ok none := by
  by_contra hnot
  have hwhole := parseFrame_bytes h []
  rw [append_nil, ← hcut, parseFrame_append more hnot] at hwhole
  have hle := totalLen_le hwhole
  have hlength := congrArg length hcut
  rw [length_append, frame.length_bytes] at hlength
  exact hmore (length_eq_zero_iff.mp (by omega))

variable {M ε : Type*} {codec : Codec M ε} {result : Except (ReadError ε) M} {messages : List M}

theorem parsed_append (h : parsed codec buf = some (result, rest)) (more : List UInt8) :
    parsed codec (buf ++ more) = some (result, rest ++ more) := by
  have hsame : parseFrame (buf ++ more) = parseFrame buf := by
    refine parseFrame_append more fun hnone => ?_
    simp [parsed, tryParse, hnone] at h
  simp only [parsed, tryParse, hsame] at h ⊢
  rcases hparse : parseFrame buf with error | _ | frame
  · simp_all
  · simp [hparse] at h
  · simp only [hparse] at h ⊢
    rcases hdecode : codec.decodeFrame frame with error | message
    · simp_all
    · simp only [hdecode, Option.some.injEq, Prod.mk.injEq] at h ⊢
      rw [drop_append_of_le_length (totalLen_le hparse), h.2]
      exact ⟨h.1, rfl⟩

/-- What the first call on a whole stream returns. -/
def verdict (codec : Codec M ε) (stream : List UInt8) : Except (ReadError ε) (Option M) :=
  match parsed codec stream with
  | some (result, _) => result.map some
  | none => atEnd stream

theorem next_verdict (codec : Codec M ε) (buf : List UInt8) (hchunks : [] ∉ chunks) :
    (next codec buf chunks).1 = verdict codec (buf ++ chunks.flatten) ∧
      ∀ result rest, parsed codec (buf ++ chunks.flatten) = some (result, rest) →
        (next codec buf chunks).2.1 ++ (next codec buf chunks).2.2.flatten = rest ∧
          [] ∉ (next codec buf chunks).2.2 := by
  induction chunks generalizing buf with
  | nil =>
    rcases hparsed : parsed codec buf with _ | ⟨result, rest⟩ <;> simp [next, verdict, hparsed]
  | cons chunk chunks ih =>
    rw [mem_cons, not_or] at hchunks
    rcases hparsed : parsed codec buf with _ | ⟨result, rest⟩
    · have hnext : next codec buf (chunk :: chunks) = next codec (buf ++ chunk) chunks := by
        rw [next, hparsed]
        simp [Ne.symm hchunks.1]
      rw [hnext, flatten_cons, ← append_assoc]
      exact ih (buf ++ chunk) hchunks.2
    · have hnext : next codec buf (chunk :: chunks) = (result.map some, rest, chunk :: chunks) := by
        rw [next, hparsed]
      rw [hnext, verdict, parsed_append hparsed]
      simp [hchunks]

theorem parsed_bytes {message : M} (h : codec.Fits message) (rest : List UInt8) :
    parsed codec (codec.bytes message ++ rest) = some (.ok message, rest) := by
  simp only [Codec.bytes, parsed, tryParse, parseFrame_bytes h, codec.decode_encode]
  rw [drop_left' (codec.encodeControl message).length_bytes]

theorem results_verdict (hlimit : ∀ message ∈ messages, codec.Fits message) (hchunks : [] ∉ chunks)
    (hstream : buf ++ chunks.flatten = messages.flatMap codec.bytes ++ tail) :
    results codec (messages.length + 1) buf chunks =
      messages.map (fun message => .ok (some message)) ++ [verdict codec tail] := by
  obtain ⟨hfirst, hleft⟩ := next_verdict codec buf hchunks
  induction messages generalizing buf chunks with
  | nil =>
    rw [length_nil, results, hfirst, hstream]
    rfl
  | cons message messages ih =>
    rw [flatMap_cons, append_assoc] at hstream
    have hparsed := parsed_bytes (hlimit message mem_cons_self)
      (messages.flatMap codec.bytes ++ tail)
    rw [← hstream] at hparsed
    obtain ⟨hrest, hchunks'⟩ := hleft _ _ hparsed
    have hnext := next_verdict codec (next codec buf chunks).2.1 hchunks'
    rw [length_cons, results, hfirst, verdict, hparsed,
      ih (fun other h => hlimit other (mem_cons_of_mem _ h)) hchunks' hrest hnext.1 hnext.2]
    rfl

theorem encodeFrame_eq {message : M} (h : codec.Fits message) (out : List UInt8) :
    codec.encodeFrame message out = .ok (out ++ codec.bytes message) := by
  have hmax : maxPayloadLen < 2 ^ 32 := by decide
  have hfits : (codec.encodeControl message).payload.length ≤ maxPayloadLen := h
  rw [Codec.encodeFrame, writeFrame, if_neg (by omega), if_neg (by omega), Codec.bytes]

theorem foldlM_encodeFrame (hlimit : ∀ message ∈ messages, codec.Fits message) (out : List UInt8) :
    messages.foldlM (fun out message => codec.encodeFrame message out) out =
      .ok (out ++ messages.flatMap codec.bytes) := by
  induction messages generalizing out with
  | nil => simp [pure, Except.pure]
  | cons message messages ih =>
    rw [foldlM_cons, encodeFrame_eq (hlimit message mem_cons_self)]
    rw [flatMap_cons, ← append_assoc]
    exact ih (fun other h => hlimit other (mem_cons_of_mem _ h)) _

theorem stream_reassembled (codec : Codec M ε) (messages : List M)
    (hlimit : ∀ message ∈ messages, codec.Fits message) :
    ∃ encoded, messages.foldlM (fun out message => codec.encodeFrame message out) [] = .ok encoded ∧
      ∀ chunks tail, [] ∉ chunks → chunks.flatten = encoded ++ tail →
        let delivered := messages.map fun message => .ok (some message)
        let returned := results codec (messages.length + 1) [] chunks
        (tail = [] → returned = delivered ++ [.ok none]) ∧
        (∀ message more, codec.encodeFrame message [] = .ok (tail ++ more) → tail ≠ [] → more ≠ [] →
          returned = delivered ++ [.error (.closedMidFrame tail.length)]) ∧
        (headerLen ≤ tail.length → maxPayloadLen < declaredLen tail →
          returned = delivered ++ [.error (.framing ⟨declaredLen tail, maxPayloadLen⟩)]) := by
  refine ⟨_, foldlM_encodeFrame hlimit [], fun chunks tail hchunks hstream => ?_⟩
  dsimp only
  rw [results_verdict hlimit hchunks hstream]
  refine ⟨?_, ?_, ?_⟩
  · rintro rfl
    rfl
  · intro message more hencoded htail hmore
    have hsmall : codec.Fits message := by
      simp only [Codec.encodeFrame, writeFrame] at hencoded
      split_ifs at hencoded with hhuge hlarge
      exact Nat.le_of_not_lt hlarge
    rw [encodeFrame_eq hsmall, List.nil_append] at hencoded
    have hparse := parseFrame_cut hsmall (Except.ok.inj hencoded).symm hmore
    simp [verdict, parsed, tryParse, hparse, atEnd, htail]
  · intro hlong hhuge
    have hparse : parseFrame tail = .error ⟨declaredLen tail, maxPayloadLen⟩ := by
      rw [parseFrame, if_neg (by omega), if_pos hhuge]
    simp [verdict, parsed, tryParse, hparse, Except.map]

def byteCodec : Codec UInt8 Unit where
  encodeControl byte := ⟨1, [byte]⟩
  decodeFrame frame := match frame.payload with
    | [byte] => .ok byte
    | _ => .error ()
  decode_encode _ := rfl

theorem stream_reassembled_bytes :
    results byteCodec 3 [] [[0], [1, 0, 0, 0, 1, 7, 0, 1], [0, 0, 0, 1, 9]] =
      [.ok (some 7), .ok (some 9), .ok none] := by
  obtain ⟨encoded, hencoded, hresults⟩ := stream_reassembled byteCodec [7, 9]
    fun _ _ => Nat.le_of_ble_eq_true rfl
  obtain rfl := Except.ok.inj hencoded
  exact (hresults [[0], [1, 0, 0, 0, 1, 7, 0, 1], [0, 0, 0, 1, 9]] [] (by decide) (by decide)).1 rfl

end MumbleRuntime.Protocol
