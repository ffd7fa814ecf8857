import ChainMarketPrice.Distribution.FrameAccessTheorems

/-!
# Which inbound frames are safe

The sum of header and payload length wraps when the 64-bit length field is too large, and the
slice up to that sum then ends before it starts. Every other access on the path of an inbound
frame is in range, for every frame and every state of the router.
-/

namespace ChainMarketPrice.Distribution
namespace WebSocket

open Access Bytes FastJson

/-! ## Overlong frames -/

/-- The length of the mask key, by the byte that says whether there is one. -/
def maskLen (b1 : UInt8) : ℕ := if (b1 &&& 0x80) != 0 then 4 else 0

/-- The frame has a known opcode, the 64-bit length field and its whole header, and that header
and the length in the field reach `2 ^ 64` together. -/
def Overlong : List UInt8 → Prop
  | b0 :: b1 :: rest =>
    (WsOpcode.fromU8 b0).isSome ∧ b1 &&& 0x7F = 127 ∧ 8 + maskLen b1 ≤ rest.length ∧
      2 ^ 64 ≤ 10 + maskLen b1 + ofBe (rest.take 8)
  | _ => False

/-- All a decoded header says about the frame. -/
lemma decodeWsFrameHeader_ok {buf : List UInt8} {header : WsFrameHeader}
    (h : decodeWsFrameHeader buf = .ok header) :
    ∃ b0 b1 rest lenEnd, buf = b0 :: b1 :: rest ∧ (WsOpcode.fromU8 b0).isSome ∧
      decodePayloadLen buf (b1 &&& 0x7F) = .ok (header.payloadLen, lenEnd) ∧
      header.headerLen = lenEnd + maskLen b1 ∧
      (maskLen b1 = 0 ∨ header.headerLen ≤ buf.length) := by
  unfold decodeWsFrameHeader at h
  -- the checks in the order of the code
  split at h
  · next b0 b1 rest =>
    dsimp only at h
    split at h
    · cases h
    · next opcode hopcode =>
      cases hlen : decodePayloadLen (b0 :: b1 :: rest) (b1 &&& 0x7F) with
      | error e =>
        rw [hlen] at h
        cases h
      | ok decoded =>
        rw [hlen] at h
        replace h : (if ((b1 &&& 0x80) != 0) = true then _ else _) = Except.ok header := h
        refine ⟨b0, b1, rest, decoded.2, rfl, by rw [hopcode]; rfl, ?_⟩
        unfold maskLen
        split at h
        · next hmasked =>
          rw [if_pos hmasked]
          split at h
          · cases h
          · next hfits =>
            cases h
            exact ⟨hlen, rfl, Or.inr (Nat.le_of_not_lt hfits)⟩
        · next hmasked =>
          rw [if_neg hmasked]
          cases h
          exact ⟨hlen, rfl, Or.inl rfl⟩
  · cases h

/-- Overlong frames are those whose decoded lengths reach `2 ^ 64` together. -/
lemma overlong_iff (buf : List UInt8) :
    Overlong buf ↔
      ∃ header, decodeWsFrameHeader buf = .ok header ∧
        2 ^ 64 ≤ header.headerLen + header.payloadLen := by
  constructor
  · intro h
    match buf, h with
    | b0 :: b1 :: rest, ⟨hopcode, h127, hrest, hlong⟩ =>
      obtain ⟨opcode, hopcode⟩ := Option.isSome_iff_exists.mp hopcode
      -- the eight length bytes are there, and are read whatever they say
      have hlen : decodePayloadLen (b0 :: b1 :: rest) 127 = .ok (ofBe (rest.take 8), 10) := by
        unfold decodePayloadLen
        rw [if_neg (by decide), if_pos rfl, if_neg (by simp only [List.length_cons]; omega)]
        rfl
      unfold maskLen at hrest hlong
      unfold decodeWsFrameHeader
      simp only [hopcode, h127, hlen]
      by_cases hmasked : ((b1 &&& 0x80) != 0) = true
      · rw [if_pos hmasked] at hrest hlong
        refine ⟨_, (if_pos hmasked).trans (if_neg ?_), ?_⟩
        · simp only [List.length_cons]
          omega
        · exact hlong
      · rw [if_neg hmasked] at hlong
        exact ⟨_, if_neg hmasked, hlong⟩
  · rintro ⟨header, hdecoded, hlong⟩
    obtain ⟨b0, b1, rest, lenEnd, rfl, hopcode, hlen, hheader, hfits⟩ :=
      decodeWsFrameHeader_ok hdecoded
    have hmask : maskLen b1 ≤ 4 := by
      unfold maskLen
      split
      · decide
      · decide
    -- only the long form holds a length that large
    obtain ⟨hend, _, hwide⟩ := decodePayloadLen_bounds hlen
    rcases decodePayloadLen_ok hlen with ⟨h2, _⟩ | ⟨h4, _⟩ | ⟨h10, hpayload, h127, hbuf⟩
    · omega
    · omega
    · simp only [List.length_cons] at hfits hbuf
      rw [List.drop_succ_cons, List.drop_succ_cons, List.drop_zero] at hpayload
      refine ⟨hopcode, h127, by omega, by omega⟩

/-! ## Payloads -/

lemma length_unmaskPayload (payload mask : List UInt8) :
    (unmaskPayload .little payload mask).length = payload.length := by
  unfold unmaskPayload
  dsimp only
  have hwords : ∀ n : ℕ, ((List.range n).flatMap fun i => toNeBytes .little 8
      (fromNeBytes .little ((payload.drop (8 * i)).take 8) ^^^
        ((fromNeBytes .little mask <<< 32) ||| fromNeBytes .little mask))).length = 8 * n := by
    intro n
    induction n with
    | zero => rfl
    | succ n ih =>
      rw [List.range_succ, List.flatMap_append, List.length_append, ih]
      simp [toNeBytes]
      omega
  rw [List.length_append, hwords, List.length_mapIdx, List.length_drop]
  omega

/-- Without wrapping nothing aborts, and the payload is as long as the header says. -/
lemma readFrame_of_sum_lt {frame : List UInt8} {header : WsFrameHeader}
    (hdecoded : decodeWsFrameHeader frame = .ok header)
    (hsum : header.headerLen + header.payloadLen < 2 ^ 64) :
    readFrame frame ≠ .error .panicked ∧
      ∀ header' payload, readFrame frame = .ok (header', payload) →
        payload.length = header.payloadLen := by
  unfold readFrame
  rw [hdecoded]
  dsimp only
  rw [Nat.mod_eq_of_lt hsum]
  by_cases hshort : frame.length < header.headerLen + header.payloadLen
  · rw [if_pos hshort]
    exact ⟨by simp, by simp⟩
  · rw [if_neg hshort, if_neg (by omega), Nat.add_sub_cancel_left]
    have hlen : ((frame.drop header.headerLen).take header.payloadLen).length
        = header.payloadLen := by
      rw [List.length_take, List.length_drop]
      omega
    split
    · refine ⟨by simp, ?_⟩
      intro header' payload h
      cases h
      rw [length_unmaskPayload, hlen]
    · refine ⟨by simp, ?_⟩
      intro header' payload h
      cases h
      exact hlen

/-- When the sum of the lengths wraps it is below the header length, and the slice aborts. -/
lemma readFrame_of_sum_ge {frame : List UInt8} {header : WsFrameHeader}
    (hdecoded : decodeWsFrameHeader frame = .ok header)
    (hsum : 2 ^ 64 ≤ header.headerLen + header.payloadLen) :
    readFrame frame = .error .panicked := by
  obtain ⟨b0, b1, rest, lenEnd, rfl, _, hlen, hheader, hfits⟩ := decodeWsFrameHeader_ok hdecoded
  obtain ⟨_, hpayload, _⟩ := decodePayloadLen_bounds hlen
  have hbuf : header.headerLen ≤ (b0 :: b1 :: rest).length := by
    rcases hfits with hnomask | hfits
    · have hlens := decodePayloadLen_ok hlen
      have hbounds := decodePayloadLen_bounds hlen
      omega
    · exact hfits
  have hwrapped : (header.headerLen + header.payloadLen) % 2 ^ 64 < header.headerLen := by
    omega
  unfold readFrame
  rw [hdecoded]
  dsimp only
  rw [if_neg (by omega), if_pos hwrapped]

/-- A payload as long as its header says can be sent back. -/
lemma outHeaderLen_add_lt {frame : List UInt8} {header : WsFrameHeader}
    (hdecoded : decodeWsFrameHeader frame = .ok header)
    (hsum : header.headerLen + header.payloadLen < 2 ^ 64) :
    outHeaderLen header.payloadLen + header.payloadLen < 2 ^ 64 := by
  obtain ⟨b0, b1, rest, lenEnd, rfl, _, hlen, hheader, _⟩ := decodeWsFrameHeader_ok hdecoded
  have hbounds := decodePayloadLen_bounds hlen
  have hout := outHeaderLen_cases header.payloadLen
  omega

/-! ## The engine -/

lemma bitmapAccesses_inRange (clientId : UInt32) : AllInRange (bitmapAccesses clientId) := by
  unfold bitmapAccesses
  split
  · next hword =>
    simp only [allInRange_cons, allInRange_nil, InRange, and_true]
    exact ⟨hword, hword⟩
  · simp

/-- The messages of the engine itself are short. -/
lemma respondAccesses_jsonMessage_inRange (capacity outCapacity : ℕ) (head : String)
    (value : UInt64) (hcapacity : capacity ≤ 128) :
    AllInRange (respondAccesses (jsonMessage capacity head value) outCapacity) := by
  have hlen : (jsonMessage capacity head value).length ≤ 128 := by
    have hw0 := keeps_writeBytes (ofString head) (.new (List.replicate capacity 0)) (Nat.zero_le _)
    have hw1 := keeps_writeU64 value _ hw0.2
    have hw2 := keeps_writeBytes (ofString "\x7d") _ hw1.2
    unfold jsonMessage
    dsimp only
    rw [List.length_take, FastJsonWriter.writeStr, FastJsonWriter.writeStr, hw2.1, hw1.1, hw0.1]
    show min _ (List.replicate capacity (0 : UInt8)).length ≤ 128
    rw [List.length_replicate]
    omega
  have hout := outHeaderLen_cases (jsonMessage capacity head value).length
  apply respondAccesses_inRange
  omega

lemma textAccesses_inRange (r : InvertedTopicRouter) (clientId : UInt32) {payload : List UInt8}
    (nowMs : UInt64) (hlen : payload.length < 2 ^ 64) :
    AllInRange (textAccesses r clientId payload nowMs) := by
  unfold textAccesses
  rw [allInRange_append]
  refine ⟨commandAccesses_inRange hlen, ?_⟩
  split
  · next topic _ =>
    split
    · rw [allInRange_append, allInRange_append]
      refine ⟨⟨bitmapAccesses_inRange clientId, ?_⟩, ?_⟩
      · exact jsonMessageAccesses_inRange _ (by decide) (by decide)
      · exact respondAccesses_jsonMessage_inRange _ _ _ _ (by decide)
    · simp
  · split
    · exact bitmapAccesses_inRange clientId
    · simp
  · rw [allInRange_append]
    refine ⟨?_, ?_⟩
    · exact jsonMessageAccesses_inRange _ (by decide) (by decide)
    · exact respondAccesses_jsonMessage_inRange _ _ _ _ (by decide)
  · simp
  · simp
  · simp

lemma opcodeAccesses_inRange (r : InvertedTopicRouter) (clientId : UInt32) (opcode : WsOpcode)
    {payload : List UInt8} (nowMs : UInt64)
    (hlen : outHeaderLen payload.length + payload.length < 2 ^ 64) :
    AllInRange (opcodeAccesses r clientId opcode payload nowMs) := by
  unfold opcodeAccesses
  split
  · exact respondAccesses_inRange _ hlen
  · rw [allInRange_append]
    refine ⟨?_, respondAccesses_inRange _ (by decide)⟩
    split
    · exact allInRange_flatMap fun _ _ => bitmapAccesses_inRange clientId
    · simp
  · exact textAccesses_inRange r clientId nowMs (by omega)
  · simp
  · simp
  · simp

lemma respond_ne_panicked (r : InvertedTopicRouter) (opcode : WsOpcode) (payload : List UInt8)
    (capacity : ℕ) : (respond r opcode payload capacity).result ≠ .error .panicked := by
  unfold respond
  split
  · simp
  · simp

lemma handleText_ne_panicked (r : InvertedTopicRouter) (clientId : UInt32) (payload : List UInt8)
    (nowMs : UInt64) : (handleText r clientId payload nowMs).result ≠ .error .panicked := by
  unfold handleText
  split
  · split
    · exact respond_ne_panicked _ _ _ _
    · simp
  · split
    · simp
    · simp
  · exact respond_ne_panicked _ _ _ _
  · simp
  · simp
  · simp

/-- A call aborts only while the frame is read. -/
lemma handleInboundFrame_ne_panicked {r : InvertedTopicRouter} {clientId : UInt32}
    {frame : List UInt8} {nowMs : UInt64} (h : readFrame frame ≠ .error .panicked) :
    (handleInboundFrame r clientId frame nowMs).result ≠ .error .panicked := by
  unfold handleInboundFrame
  split
  · next e he =>
    intro hpanicked
    cases hpanicked
    exact h he
  · split
    · exact respond_ne_panicked _ _ _ _
    · exact respond_ne_panicked _ _ _ _
    · exact handleText_ne_panicked _ _ _ _
    · simp
    · simp
    · simp

/-- A call returns, and all its accesses are in range. -/
def InboundSafe (r : InvertedTopicRouter) (clientId : UInt32) (frameBytes : List UInt8)
    (nowMs : UInt64) : Prop :=
  (handleInboundFrame r clientId frameBytes nowMs).result ≠ .error .panicked ∧
    AllInRange (inboundAccesses r clientId frameBytes nowMs)

/-- Frames with no decoded header, or with lengths that do not wrap, are safe. -/
lemma inboundSafe_of_not_overlong (r : InvertedTopicRouter) (clientId : UInt32)
    {frame : List UInt8} (nowMs : UInt64) (h : ¬ Overlong frame) :
    InboundSafe r clientId frame nowMs := by
  unfold InboundSafe inboundAccesses
  rw [allInRange_append]
  cases hdecoded : decodeWsFrameHeader frame with
  | error e =>
    refine ⟨handleInboundFrame_ne_panicked ?_, decodeAccesses_inRange frame, allInRange_nil⟩
    unfold readFrame
    rw [hdecoded]
    simp
  | ok header =>
    -- the sum of the two lengths is the first access that can fail
    have hsum : header.headerLen + header.payloadLen < 2 ^ 64 := by
      by_contra hlong
      exact h ((overlong_iff frame).mpr ⟨header, hdecoded, Nat.le_of_not_lt hlong⟩)
    obtain ⟨hpanicked, hpayload⟩ := readFrame_of_sum_lt hdecoded hsum
    have hout := outHeaderLen_add_lt hdecoded hsum
    refine ⟨handleInboundFrame_ne_panicked hpanicked, decodeAccesses_inRange frame, ?_⟩
    dsimp only
    rw [allInRange_cons, Nat.mod_eq_of_lt hsum]
    refine ⟨hsum, ?_⟩
    split
    · simp
    · next hlong =>
      rw [allInRange_cons]
      refine ⟨⟨Nat.le_add_right _ _, Nat.le_of_not_lt hlong⟩, ?_⟩
      split
      · simp
      · next header' payload hread =>
        have hlen := hpayload header' payload hread
        rw [allInRange_append]
        refine ⟨?_, opcodeAccesses_inRange r clientId header.opcode nowMs (by rwa [hlen])⟩
        split
        · exact unmaskAccesses_inRange (by omega)
        · simp

/-- A frame is handled without wrapping sums and slices out of range, in every state of the
router, exactly when it is not overlong. -/
theorem inbound_safe_iff (r : InvertedTopicRouter) (clientId : UInt32) (frameBytes : List UInt8)
    (nowMs : UInt64) : InboundSafe r clientId frameBytes nowMs ↔ ¬ Overlong frameBytes := by
  constructor
  · rintro ⟨hreturns, _⟩ hoverlong
    obtain ⟨header, hdecoded, hlong⟩ := (overlong_iff frameBytes).mp hoverlong
    apply hreturns
    unfold handleInboundFrame
    rw [readFrame_of_sum_ge hdecoded hlong]
  · exact inboundSafe_of_not_overlong r clientId nowMs

/-- Ten bytes abort the process: with the length `2 ^ 64 - 1` behind a header of ten bytes the
slice goes from 10 to 9. -/
theorem ten_bytes_abort :
    ¬ ∀ (r : InvertedTopicRouter) (clientId : UInt32) (frameBytes : List UInt8) (nowMs : UInt64),
      InboundSafe r clientId frameBytes nowMs := by
  intro h
  apply (h .new 1 ([0x82, 0x7F] ++ List.replicate 8 0xFF) 0).1
  decide

end WebSocket
end ChainMarketPrice.Distribution
