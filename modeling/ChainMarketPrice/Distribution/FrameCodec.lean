import Mathlib.Order.Bounds.Basic
import ChainMarketPrice.Distribution.WebSocketTheorems

/-!
# Frames without mask, encoded and decoded

The encoder takes the shortest of the three length encodings, and the decoder reads each of
them back, whatever follows the frame in its buffer.
-/

namespace ChainMarketPrice.Distribution
namespace WebSocket

open Bytes

/-! ## Decoding -/

lemma firstByte (opcode : WsOpcode) :
    ((0x80 ||| opcode.toU8) &&& 0x80 != 0) = true ∧
      WsOpcode.fromU8 (0x80 ||| opcode.toU8) = some opcode := by
  cases opcode <;> decide

/-- The length byte of a header without mask, and the length field behind it. -/
lemma decodeWsFrameHeader_cons {opcode : WsOpcode} {b1 : UInt8} {rest : List UInt8}
    {payloadLen headerLen : ℕ} (hmask : b1 &&& 0x80 = 0)
    (hlen : decodePayloadLen ((0x80 ||| opcode.toU8) :: b1 :: rest) (b1 &&& 0x7F)
      = .ok (payloadLen, headerLen)) :
    decodeWsFrameHeader ((0x80 ||| opcode.toU8) :: b1 :: rest)
      = .ok
        { fin := true, opcode := opcode, masked := false, payloadLen := payloadLen,
          maskKey := [0, 0, 0, 0], headerLen := headerLen } := by
  obtain ⟨hfin, hopcode⟩ := firstByte opcode
  have hmasked : (b1 &&& 0x80 != 0) = false := by
    rw [hmask]
    rfl
  unfold decodeWsFrameHeader
  simp only [hopcode, hlen, hfin, hmasked]
  rfl

/-- A length below 126 is the length byte itself. -/
lemma lengthByte (n : Fin 126) :
    UInt8.ofNat n &&& 0x80 = 0 ∧ UInt8.ofNat n &&& 0x7F = UInt8.ofNat n ∧
      UInt8.ofNat n ≠ 126 ∧ UInt8.ofNat n ≠ 127 := by
  revert n
  decide +kernel

/-- A longer length stands behind the length byte, highest byte first. -/
lemma lengthField (width : ℕ) {n : ℕ} (h : n < 256 ^ width) (payload : List UInt8) :
    ofBe ((toBe width n ++ payload).take width) = n := by
  have htake : (toBe width n ++ payload).take (toBe width n).length = toBe width n := List.take_left
  rw [length_toBe] at htake
  rw [htake, ofBe_toBe, Nat.mod_eq_of_lt h]

/-- The header of a frame is read back, whatever follows the frame. -/
lemma decodeWsFrameHeader_wsFrame (opcode : WsOpcode) {payload : List UInt8}
    (h : payload.length < 2 ^ 64) (rest : List UInt8) :
    decodeWsFrameHeader (wsFrame opcode payload ++ rest) = .ok
      { fin := true, opcode := opcode, masked := false, payloadLen := payload.length,
        maskKey := [0, 0, 0, 0], headerLen := (frameHeader opcode payload.length).length } := by
  rw [length_frameHeader, wsFrame, List.append_assoc]
  -- the three widths of the length field
  by_cases hshort : payload.length < 126
  · obtain ⟨hmask, hbyte, hne, hne'⟩ := lengthByte ⟨payload.length, hshort⟩
    simp only [frameHeader, if_pos hshort]
    apply decodeWsFrameHeader_cons hmask
    rw [hbyte, decodePayloadLen, if_neg hne, if_neg hne', UInt8.toNat_ofNat',
      Nat.mod_eq_of_lt (by omega)]
  · by_cases hmedium : payload.length ≤ 0xFFFF
    · simp only [frameHeader, if_neg hshort, if_pos hmedium]
      apply decodeWsFrameHeader_cons (by decide)
      have hfield := lengthField 2 (n := payload.length) (by omega) (payload ++ rest)
      rw [decodePayloadLen, if_pos (by decide), if_neg (by simp)]
      exact congrArg (fun n => Except.ok (n, 4)) hfield
    · simp only [frameHeader, if_neg hshort, if_neg hmedium]
      apply decodeWsFrameHeader_cons (by decide)
      have hfield := lengthField 8 (n := payload.length) (by omega) (payload ++ rest)
      rw [decodePayloadLen, if_neg (by decide), if_pos (by decide), if_neg (by simp)]
      exact congrArg (fun n => Except.ok (n, 10)) hfield

/-- A final frame without mask that is its header and its payload and nothing else, as its
receiver decodes it. -/
def ReadsAs (frame : List UInt8) (opcode : WsOpcode) (payload : List UInt8) : Prop :=
  ∃ header, decodeWsFrameHeader frame = .ok header ∧ header.fin = true ∧ header.masked = false ∧
    header.opcode = opcode ∧ header.headerLen + header.payloadLen = frame.length ∧
    frame.drop header.headerLen = payload

lemma readsAs_wsFrame (opcode : WsOpcode) {payload : List UInt8} (h : payload.length < 2 ^ 64) :
    ReadsAs (wsFrame opcode payload) opcode payload := by
  have hdecode := decodeWsFrameHeader_wsFrame opcode h []
  rw [List.append_nil] at hdecode
  refine ⟨_, hdecode, rfl, rfl, rfl, ?_, ?_⟩
  · rw [wsFrame, List.length_append]
  · exact List.drop_left

/-! ## Length encodings -/

/-- The encodings of a payload length: in the length byte, or in a field behind it. -/
inductive LengthEncoding
  | sevenBits
  | sixteenBits
  | sixtyFourBits
deriving Repr, DecidableEq

namespace LengthEncoding

/-- The bytes of a header without mask. -/
def headerLen : LengthEncoding → ℕ
  | sevenBits => 2
  | sixteenBits => 4
  | sixtyFourBits => 10

/-- The encoding is for lengths below this bound; 126 and 127 in the length byte stand for the
other two. -/
def bound : LengthEncoding → ℕ
  | sevenBits => 126
  | sixteenBits => 2 ^ 16
  | sixtyFourBits => 2 ^ 64

end LengthEncoding

/-- The header lengths of the encodings that can hold a payload length. -/
def headerLens (payloadLen : ℕ) : Set ℕ :=
  {l | ∃ e : LengthEncoding, payloadLen < e.bound ∧ e.headerLen = l}

/-- The header is as short as it can be. -/
lemma isLeast_length_frameHeader (opcode : WsOpcode) {n : ℕ} (h : n < 2 ^ 64) :
    IsLeast (headerLens n) (frameHeader opcode n).length := by
  rw [length_frameHeader]
  constructor
  · split
    · next hshort => exact ⟨.sevenBits, hshort, rfl⟩
    · split
      · next hmedium => exact ⟨.sixteenBits, Nat.lt_succ_of_le hmedium, rfl⟩
      · exact ⟨.sixtyFourBits, h, rfl⟩
  -- any encoding that can carry the length is at least as long as the chosen one
  · rintro l ⟨e, hbound, rfl⟩
    cases e with
    | sevenBits =>
      have hshort : n < 126 := hbound
      rw [if_pos hshort]
      exact le_rfl
    | sixteenBits =>
      have hmedium : n ≤ 0xFFFF := Nat.le_of_lt_succ hbound
      rw [if_pos hmedium]
      show (if n < 126 then 2 else 4) ≤ 4
      split
      · decide
      · decide
    | sixtyFourBits =>
      show (if n < 126 then 2 else if n ≤ 0xFFFF then 4 else 10) ≤ 10
      split
      · decide
      · split
        · decide
        · decide

/-! ## Encoding -/

/-- What stands behind the frame in the buffer stays. -/
lemma drop_encodeWsFrame {opcode : WsOpcode} {payload out : List UInt8}
    (h : (wsFrame opcode payload).length ≤ out.length) :
    (encodeWsFrame opcode payload out).2.drop (wsFrame opcode payload).length
      = out.drop (wsFrame opcode payload).length := by
  have hlen := length_wsFrame opcode payload
  have hheader := length_frameHeader opcode payload.length
  have hfirst : (copyAt out 0 (frameHeader opcode payload.length)).length = out.length :=
    length_copyAt (by omega)
  unfold encodeWsFrame
  dsimp only
  rw [← hheader] at hlen ⊢
  rw [if_neg (by omega), hlen, drop_copyAt (by omega) le_rfl, drop_copyAt (by omega) (by omega)]

lemma encodeWsFrame_error {opcode : WsOpcode} {payload out : List UInt8}
    (h : out.length < (wsFrame opcode payload).length) :
    encodeWsFrame opcode payload out
      = (.error (.bufferTooSmall (wsFrame opcode payload).length out.length), out) := by
  rw [length_wsFrame] at h ⊢
  unfold encodeWsFrame
  dsimp only
  rw [if_pos h]

/-- A frame is written exactly when it fits, into the first bytes of the buffer, and is read back
from any buffer that starts with it. -/
theorem wsFrame_round_trip (opcode : WsOpcode) (payload out : List UInt8)
    -- the bound of a slice
    (h : payload.length < 2 ^ 63) :
    ∃ headerLen, IsLeast (headerLens payload.length) headerLen ∧
      (∀ n, (encodeWsFrame opcode payload out).1 = .ok n ↔
        n = headerLen + payload.length ∧ n ≤ out.length) ∧
      (∀ n out', encodeWsFrame opcode payload out = (.ok n, out') →
        out'.length = out.length ∧ out'.drop n = out.drop n ∧
          ∀ buf, out'.take n <+: buf →
            decodeWsFrameHeader buf = .ok
              { fin := true, opcode := opcode, masked := false, payloadLen := payload.length,
                maskKey := [0, 0, 0, 0], headerLen := headerLen } ∧
              (buf.take n).drop headerLen = payload) ∧
      ∀ e out', encodeWsFrame opcode payload out = (.error e, out') → out' = out := by
  have hword : payload.length < 2 ^ 64 := h.trans (by decide)
  have hwhole : (wsFrame opcode payload).length
      = (frameHeader opcode payload.length).length + payload.length := List.length_append
  refine ⟨_, isLeast_length_frameHeader opcode hword, ?_⟩
  rw [← hwhole]
  -- the frame fits or not: nothing is written before that is known
  by_cases hfits : (wsFrame opcode payload).length ≤ out.length
  · obtain ⟨buf, hok, hlen, htake⟩ := encodeWsFrame_ok hfits
    have hdrop := drop_encodeWsFrame hfits
    rw [hok] at hdrop ⊢
    refine ⟨?_, ?_, ?_⟩
    · intro n
      constructor
      · intro h
        cases h
        exact ⟨rfl, hfits⟩
      · rintro ⟨rfl, _⟩
        rfl
    · intro n out' h
      cases h
      refine ⟨hlen, hdrop, ?_⟩
      rw [htake]
      -- whatever stands behind the frame, the header is read back from its own bytes
      rintro _ ⟨rest, rfl⟩
      refine ⟨decodeWsFrameHeader_wsFrame opcode hword rest, ?_⟩
      rw [List.take_left]
      exact List.drop_left
    · intro e out' h
      cases h
  · rw [encodeWsFrame_error (Nat.lt_of_not_le hfits)]
    refine ⟨?_, ?_, ?_⟩
    · intro n
      constructor
      · intro h
        cases h
      · rintro ⟨rfl, hle⟩
        exact absurd hle hfits
    · intro n out' h
      cases h
    · intro e out' h
      cases h
      rfl

/-- Three bytes, with one more behind the frame. -/
theorem wsFrame_round_trip_three :
    ∃ headerLen, IsLeast (headerLens 3) headerLen ∧
      (encodeWsFrame .binary [1, 2, 3] (List.replicate 8 0)).1 = .ok 5 ∧
      ∃ header, decodeWsFrameHeader [0x82, 3, 1, 2, 3, 9] = .ok header ∧
        header.payloadLen = 3 ∧ header.headerLen = headerLen := by
  obtain ⟨headerLen, hleast, -, hok, -⟩ :=
    wsFrame_round_trip .binary [1, 2, 3] (List.replicate 8 0) (by decide)
  obtain ⟨-, -, hread⟩ := hok 5 [0x82, 3, 1, 2, 3, 0, 0, 0] (by decide)
  exact ⟨headerLen, hleast, by decide, _, (hread _ ⟨[9], rfl⟩).1, rfl, rfl⟩

end WebSocket
end ChainMarketPrice.Distribution
