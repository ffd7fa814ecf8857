import ChainMarketPrice.Distribution.WebSocket

/-!
# Headers at the front of a stream

A header is complete as soon as the buffer has the length that the second byte implies, and then
it is read from those bytes only (`decodeWsFrameHeader_eq`). So a reader that has got a header, or
has been told that the opcode is invalid, gets the same with whatever comes in later.
-/

namespace ChainMarketPrice.Distribution
namespace WebSocket

open Bytes

/-- Where the length field ends, by the length byte. -/
def lengthFieldEnd (lenByte : UInt8) : ℕ :=
  if lenByte = 126 then 4 else if lenByte = 127 then 10 else 2

/-- The header length that the second byte implies. -/
def impliedHeaderLen (b1 : UInt8) : ℕ :=
  lengthFieldEnd (b1 &&& 0x7F) + if (b1 &&& 0x80) != 0 then 4 else 0

/-- The payload length of a complete length field. -/
def payloadLenOf (buf : List UInt8) (lenByte : UInt8) : ℕ :=
  if lenByte = 126 then ofBe ((buf.drop 2).take 2)
  else if lenByte = 127 then ofBe ((buf.drop 2).take 8)
  else lenByte.toNat

/-- What a complete header says. -/
def headerOf (opcode : WsOpcode) (b0 b1 : UInt8) (buf : List UInt8) : WsFrameHeader where
  fin := (b0 &&& 0x80) != 0
  opcode := opcode
  masked := (b1 &&& 0x80) != 0
  payloadLen := payloadLenOf buf (b1 &&& 0x7F)
  maskKey :=
    if (b1 &&& 0x80) != 0 then (buf.drop (lengthFieldEnd (b1 &&& 0x7F))).take 4 else [0, 0, 0, 0]
  headerLen := impliedHeaderLen b1

variable {buf : List UInt8} {b0 b1 lenByte : UInt8} {opcode : WsOpcode}

/-! ## Complete headers -/

/-- The length field is read where it is complete. -/
lemma decodePayloadLen_eq (h : 2 ≤ buf.length) :
    decodePayloadLen buf lenByte =
      if buf.length < lengthFieldEnd lenByte then .error .incompleteFrame
      else .ok (payloadLenOf buf lenByte, lengthFieldEnd lenByte) := by
  unfold decodePayloadLen payloadLenOf lengthFieldEnd
  by_cases h126 : lenByte = 126
  · simp only [h126, if_true]
  · by_cases h127 : lenByte = 127
    · simp only [h127, if_true]
      rfl
    · simp only [if_neg h126, if_neg h127]
      rw [if_neg (by omega)]

/-- With a valid opcode, only the length of the buffer decides. -/
lemma decodeWsFrameHeader_eq {rest : List UInt8} (hop : WsOpcode.fromU8 b0 = some opcode) :
    decodeWsFrameHeader (b0 :: b1 :: rest) =
      if (b0 :: b1 :: rest).length < impliedHeaderLen b1 then .error .incompleteFrame
      else .ok (headerOf opcode b0 b1 (b0 :: b1 :: rest)) := by
  have hlen : 2 ≤ (b0 :: b1 :: rest).length := by
    rw [List.length_cons, List.length_cons]
    omega
  unfold decodeWsFrameHeader headerOf impliedHeaderLen
  simp only [hop, decodePayloadLen_eq hlen, bind, Except.bind]
  generalize (b0 :: b1 :: rest) = buf at *
  by_cases hfield : buf.length < lengthFieldEnd (b1 &&& 0x7F)
  · rw [if_pos hfield, if_pos (by omega)]
  · rw [if_neg hfield]
    -- the third test, for the mask key
    cases hmask : (b1 &&& 0x80) != 0 with
    | true => rfl
    | false => simp [hfield]

/-- An invalid opcode is reported whatever follows it. -/
lemma decodeWsFrameHeader_invalid {rest : List UInt8} (hop : WsOpcode.fromU8 b0 = none) :
    decodeWsFrameHeader (b0 :: b1 :: rest) = .error (.invalidOpcode (b0 &&& 0x0F)) := by
  unfold decodeWsFrameHeader
  simp only [hop]

/-! ## More input -/

/-- A window inside the buffer stays the same. -/
lemma window_append {start width : ℕ} (h : start + width ≤ buf.length) (suffix : List UInt8) :
    ((buf ++ suffix).drop start).take width = (buf.drop start).take width := by
  rw [List.drop_append_of_le_length (by omega), List.take_append_of_le_length]
  rw [List.length_drop]
  omega

lemma payloadLenOf_append (h : lengthFieldEnd lenByte ≤ buf.length) (suffix : List UInt8) :
    payloadLenOf (buf ++ suffix) lenByte = payloadLenOf buf lenByte := by
  unfold lengthFieldEnd at h
  unfold payloadLenOf
  split
  · next h126 =>
    rw [if_pos h126] at h
    rw [window_append (by omega)]
  · next h126 =>
    rw [if_neg h126] at h
    split
    · next h127 =>
      rw [if_pos h127] at h
      rw [window_append (by omega)]
    · rfl

/-- A complete header is read from its own bytes. -/
lemma headerOf_append (h : impliedHeaderLen b1 ≤ buf.length) (suffix : List UInt8) :
    headerOf opcode b0 b1 (buf ++ suffix) = headerOf opcode b0 b1 buf := by
  unfold impliedHeaderLen at h
  unfold headerOf
  rw [payloadLenOf_append (by omega)]
  split
  · next hmask =>
    rw [if_pos hmask] at h
    rw [window_append (by omega)]
  · rfl

/-- A result other than "incomplete" is the result for every continuation. -/
lemma decodeWsFrameHeader_append (h : decodeWsFrameHeader buf ≠ .error .incompleteFrame)
    (suffix : List UInt8) : decodeWsFrameHeader (buf ++ suffix) = decodeWsFrameHeader buf := by
  match buf with
  | [] => exact absurd rfl h
  | [_] => exact absurd rfl h
  | b0 :: b1 :: rest =>
    rw [List.cons_append, List.cons_append]
    cases hop : WsOpcode.fromU8 b0 with
    | none => rw [decodeWsFrameHeader_invalid hop, decodeWsFrameHeader_invalid hop]
    | some opcode =>
      rw [decodeWsFrameHeader_eq hop] at h ⊢
      rw [decodeWsFrameHeader_eq hop]
      have hcomplete : ¬(b0 :: b1 :: rest).length < impliedHeaderLen b1 := by
        intro hshort
        rw [if_pos hshort] at h
        exact h rfl
      have hlonger : ¬(b0 :: b1 :: (rest ++ suffix)).length < impliedHeaderLen b1 := by
        rw [← List.cons_append, ← List.cons_append, List.length_append]
        omega
      rw [if_neg hcomplete, if_neg hlonger, ← List.cons_append, ← List.cons_append,
        headerOf_append (by omega)]

/-- "Incomplete" is the result exactly as long as the header is. -/
lemma decodeWsFrameHeader_incomplete_iff :
    decodeWsFrameHeader buf = .error .incompleteFrame ↔
      buf.length < 2 ∨ ∃ b0 b1 rest, buf = b0 :: b1 :: rest ∧
        (WsOpcode.fromU8 b0).isSome = true ∧ buf.length < impliedHeaderLen b1 := by
  -- the first test of the decoder is for two bytes
  match buf with
  | [] => exact iff_of_true rfl (.inl (by decide))
  | [_] => exact iff_of_true rfl (.inl (Nat.lt_succ_self 1))
  | b0 :: b1 :: rest =>
    have hlong : ¬(b0 :: b1 :: rest).length < 2 := by
      rw [List.length_cons, List.length_cons]
      omega
    constructor
    · intro h
      refine .inr ⟨b0, b1, rest, rfl, ?_⟩
      cases hop : WsOpcode.fromU8 b0 with
      | none =>
        rw [decodeWsFrameHeader_invalid hop] at h
        cases h
      | some opcode =>
        rw [decodeWsFrameHeader_eq hop] at h
        refine ⟨rfl, ?_⟩
        by_contra hcomplete
        rw [if_neg hcomplete] at h
        cases h
    · rintro (hshort | ⟨c0, c1, rest', heq, hvalid, hshort⟩)
      · exact absurd hshort hlong
      · cases heq
        obtain ⟨opcode, hop⟩ := Option.isSome_iff_exists.mp hvalid
        rw [decodeWsFrameHeader_eq hop, if_pos hshort]

/-- A header, or the refusal of an opcode, stays the same with more input; and more input is asked
for exactly as long as the header is not complete. -/
theorem decodeWsFrameHeader_stable (buf suffix : List UInt8) :
    (∀ header, decodeWsFrameHeader buf = .ok header →
      decodeWsFrameHeader (buf ++ suffix) = .ok header) ∧
    (∀ code, decodeWsFrameHeader buf = .error (.invalidOpcode code) →
      decodeWsFrameHeader (buf ++ suffix) = .error (.invalidOpcode code)) ∧
    (decodeWsFrameHeader buf = .error .incompleteFrame ↔
      buf.length < 2 ∨ ∃ b0 b1 rest, buf = b0 :: b1 :: rest ∧
        (WsOpcode.fromU8 b0).isSome = true ∧ buf.length < impliedHeaderLen b1) := by
  refine ⟨fun header h => ?_, fun code h => ?_, decodeWsFrameHeader_incomplete_iff⟩
  · rw [decodeWsFrameHeader_append (by rw [h]; simp), h]
  · rw [decodeWsFrameHeader_append (by rw [h]; simp), h]

end WebSocket
end ChainMarketPrice.Distribution
