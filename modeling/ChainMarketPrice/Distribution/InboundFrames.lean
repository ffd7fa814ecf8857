import ChainMarketPrice.Lib.RepeatingMask
import ChainMarketPrice.Distribution.FrameCodec
import ChainMarketPrice.Distribution.UnsubscribeCommand

/-!
# What an inbound frame is answered with

The words of `unmask_payload` and its remainder are the payload masked byte by byte, so a Ping
of a client is answered with its own payload. A frame that is rejected is rejected before
anything is changed or sent: the buffers of the responses have room for all but a Pong of more
than 252 bytes.
-/

namespace ChainMarketPrice.Distribution
namespace WebSocket

open Bytes RepeatingMask

/-! ## Masked frames -/

/-- The key twice, as the word that whole words are masked with. -/
lemma maskWord (endianness : Endianness) {mask : List UInt8} (h : mask.length = 4) :
    (fromNeBytes endianness mask <<< 32) ||| fromNeBytes endianness mask
      = fromNeBytes endianness (mask ++ mask) := by
  have hword (bytes : List UInt8) (hlen : bytes.length = 4) :
      (ofLe bytes <<< 32) ||| ofLe bytes = ofLe (bytes ++ bytes) := by
    have hlt := ofLe_lt bytes
    rw [hlen] at hlt
    rw [ofLe_append, hlen, Nat.shiftLeft_eq, Nat.mul_comm]
    exact (Nat.two_pow_add_eq_or_of_lt hlt _).symm
  cases endianness with
  | little => exact hword mask h
  | big =>
    show (ofLe mask.reverse <<< 32) ||| ofLe mask.reverse = ofLe (mask ++ mask).reverse
    rw [List.reverse_append]
    exact hword mask.reverse (List.length_reverse.trans h)

lemma toNeBytes_xor (endianness : Endianness) {a b : List UInt8} (ha : a.length = 8)
    (hb : b.length = 8) :
    toNeBytes endianness 8 (fromNeBytes endianness a ^^^ fromNeBytes endianness b)
      = List.zipWith (· ^^^ ·) a b := by
  cases endianness with
  | little => exact toLe_xor ha hb
  | big => exact toBe_xor ha hb

/-- Unmasking goes byte by byte, whatever the order of bytes in a word. -/
lemma unmaskPayload_eq (endianness : Endianness) (payload : List UInt8) {mask : List UInt8}
    (h : mask.length = 4) : unmaskPayload endianness payload mask = maskBytes mask payload := by
  -- the words: the mask twice, byte by byte in either order
  have hchunks : ((List.range (payload.length / 8)).flatMap fun i =>
      toNeBytes endianness 8 (fromNeBytes endianness ((payload.drop (8 * i)).take 8)
        ^^^ fromNeBytes endianness (mask ++ mask)))
      = maskBytes mask (payload.take (8 * (payload.length / 8))) := by
    rw [maskBytes_take (by rw [h]; decide) (by omega)]
    apply List.flatMap_congr
    intro i hi
    rw [List.mem_range] at hi
    have hlen : ((payload.drop (8 * i)).take 8).length = 8 := by
      rw [List.length_take, List.length_drop]
      omega
    rw [toNeBytes_xor endianness hlen (by rw [List.length_append, h]), maskBytes_double (by omega)]
  -- the bytes that are left, with the phase they have in the whole payload
  have hrem : ((payload.drop (8 * (payload.length / 8))).mapIdx fun i byte =>
      byte ^^^ mask.getD ((8 * (payload.length / 8) + i) % 4) 0)
      = maskBytes mask (payload.drop (8 * (payload.length / 8))) := by
    unfold maskBytes
    apply congrArg (fun f => List.mapIdx f (payload.drop (8 * (payload.length / 8))))
    funext i byte
    rw [h]
    congr 2
    omega
  -- a whole number of masks lies before them
  have haligned : mask.length ∣ (payload.take (8 * (payload.length / 8))).length := by
    rw [h, List.length_take]
    omega
  unfold unmaskPayload
  dsimp only
  rw [maskWord endianness h, hchunks, hrem, ← maskBytes_append haligned, List.take_append_drop]

/-- On either kind of target, and for a payload of any length, byte `i` is combined with byte
`i % 4` of the mask; a second time gives the payload back. -/
theorem unmaskPayload_bytewise (endianness : Endianness) (payload : List UInt8)
    (mask : Vector UInt8 4) :
    (unmaskPayload endianness payload mask.toList).length = payload.length ∧
      (∀ i : Fin payload.length, (unmaskPayload endianness payload mask.toList)[i.val]?
        = some (payload.get i ^^^ mask.get ⟨i % 4, Nat.mod_lt i (by decide)⟩)) ∧
      unmaskPayload endianness (unmaskPayload endianness payload mask.toList) mask.toList
        = payload := by
  have hlen : mask.toList.length = 4 := Vector.length_toList
  rw [unmaskPayload_eq endianness payload hlen]
  refine ⟨length_maskBytes _ _, fun i => ?_, ?_⟩
  · have hkey : i % 4 < mask.toList.length := by
      rw [hlen]
      exact Nat.mod_lt i (by decide)
    unfold maskBytes
    rw [List.getElem?_mapIdx, List.getElem?_eq_getElem i.isLt, Option.map_some, hlen,
      List.getD_eq_getElem _ _ hkey, Vector.getElem_toList]
    rfl
  · rw [unmaskPayload_eq endianness _ hlen, maskBytes_maskBytes]

/-- A frame of a client: the mask bit and a length below 126, the key, the masked payload. -/
def clientFrame (opcode : WsOpcode) (key payload : List UInt8) : List UInt8 :=
  (0x80 ||| opcode.toU8) :: (0x80 ||| UInt8.ofNat payload.length) :: (key ++ maskBytes key payload)

/-- The mask bit and a length in one byte. -/
lemma maskedLengthByte (n : Fin 126) :
    ((0x80 ||| UInt8.ofNat n) &&& 0x80 != 0) = true ∧
      (0x80 ||| UInt8.ofNat n) &&& 0x7F = UInt8.ofNat n := by
  revert n
  decide +kernel

lemma decodeWsFrameHeader_clientFrame (opcode : WsOpcode) {key payload : List UInt8}
    (hkey : key.length = 4) (hlen : payload.length < 126) (rest : List UInt8) :
    decodeWsFrameHeader (clientFrame opcode key payload ++ rest) = .ok
      { fin := true, opcode := opcode, masked := true, payloadLen := payload.length,
        maskKey := key, headerLen := 6 } := by
  obtain ⟨hfin, hopcode⟩ := firstByte opcode
  obtain ⟨hmasked, hbyte⟩ := maskedLengthByte ⟨payload.length, hlen⟩
  obtain ⟨-, -, hne, hne'⟩ := lengthByte ⟨payload.length, hlen⟩
  have hfield (buf : List UInt8) : decodePayloadLen buf (UInt8.ofNat payload.length)
      = .ok (payload.length, 2) := by
    rw [decodePayloadLen, if_neg hne, if_neg hne', UInt8.toNat_ofNat', Nat.mod_eq_of_lt (by omega)]
  have htake : (key ++ (maskBytes key payload ++ rest)).take 4 = key := by
    rw [← hkey, List.take_left]
  have hroom : ¬ (key ++ (maskBytes key payload ++ rest)).length + 2 < 2 + 4 := by
    rw [List.length_append, hkey]
    omega
  show decodeWsFrameHeader (_ :: _ :: (key ++ maskBytes key payload ++ rest)) = _
  rw [List.append_assoc]
  unfold decodeWsFrameHeader
  simp only [hopcode, hbyte, hfield, hfin, hmasked]
  refine (if_neg hroom).trans ?_
  exact congrArg (fun mask => Except.ok (WsFrameHeader.mk true opcode true payload.length mask 6))
    htake

/-- The payload of a client's frame, whatever follows the frame. -/
lemma readFrame_clientFrame (opcode : WsOpcode) {key payload : List UInt8}
    (hkey : key.length = 4) (hlen : payload.length < 126) (rest : List UInt8) :
    readFrame (clientFrame opcode key payload ++ rest) = .ok
      ({ fin := true, opcode := opcode, masked := true, payloadLen := payload.length,
         maskKey := key, headerLen := 6 }, payload) := by
  have hframe : (clientFrame opcode key payload ++ rest).length
      = 6 + payload.length + rest.length := by
    unfold clientFrame
    rw [List.length_append, List.length_cons, List.length_cons, List.length_append, hkey,
      length_maskBytes]
    omega
  have hsum : (6 + payload.length) % 2 ^ 64 = 6 + payload.length := Nat.mod_eq_of_lt (by omega)
  have hmasked : ((clientFrame opcode key payload ++ rest).drop 6).take payload.length
      = maskBytes key payload := by
    show ((key ++ maskBytes key payload ++ rest).drop 4).take payload.length = _
    rw [← hkey, List.append_assoc, List.drop_left, ← length_maskBytes key payload, List.take_left]
  unfold readFrame
  rw [decodeWsFrameHeader_clientFrame opcode hkey hlen rest]
  dsimp only
  rw [hsum, if_neg (by omega), if_neg (by omega), Nat.add_sub_cancel_left, hmasked,
    unmaskPayload_eq .little _ hkey, maskBytes_maskBytes]
  rfl

/-! ## Pings -/

/-- A response that fits its buffer is sent whole. -/
lemma respond_ok (r : InvertedTopicRouter) {opcode : WsOpcode} {payload : List UInt8}
    {capacity : ℕ} (h : (wsFrame opcode payload).length ≤ capacity) :
    respond r opcode payload capacity = ⟨.ok (), r, [wsFrame opcode payload]⟩ := by
  have hroom : (wsFrame opcode payload).length ≤ (List.replicate capacity (0 : UInt8)).length := by
    rw [List.length_replicate]
    exact h
  obtain ⟨buf, hok, -, htake⟩ := encodeWsFrame_ok hroom
  unfold respond
  rw [hok]
  dsimp only
  rw [htake]

/-- A Ping of a client is answered with one Pong that carries its payload. -/
theorem ping_answered (r : InvertedTopicRouter) (clientId : UInt32) (k0 k1 k2 k3 : UInt8)
    (payload trailing : List UInt8) (nowMs : UInt64) (h : payload.length ≤ 125) :
    ∃ pong, handleInboundFrame r clientId
        (clientFrame .ping [k0, k1, k2, k3] payload ++ trailing) nowMs = ⟨.ok (), r, [pong]⟩ ∧
      ReadsAs pong .pong payload := by
  have hfits := length_wsFrame_le .pong payload
  refine ⟨wsFrame .pong payload, ?_, readsAs_wsFrame .pong (by omega)⟩
  unfold handleInboundFrame
  rw [readFrame_clientFrame .ping rfl (by omega) trailing]
  exact respond_ok r (by omega)

/-- Nine bytes: a whole word and one byte more. -/
theorem ping_answered_nine :
    ∃ pong, handleInboundFrame .new 7
        (clientFrame .ping [1, 2, 3, 4] [10, 20, 30, 40, 50, 60, 70, 80, 90] ++ [0x89]) 0
        = ⟨.ok (), .new, [pong]⟩ ∧
      ReadsAs pong .pong [10, 20, 30, 40, 50, 60, 70, 80, 90] :=
  ping_answered .new 7 1 2 3 4 _ _ 0 (by decide)

/-! ## Rejected frames -/

/-- A response that is too long for its buffer is not sent. -/
lemma respond_error {r : InvertedTopicRouter} {opcode : WsOpcode} {payload : List UInt8}
    {capacity : ℕ} {e : FrameError} (h : (respond r opcode payload capacity).result = .error e) :
    (respond r opcode payload capacity).responses = [] := by
  unfold respond at h ⊢
  split at h
  · cases h
  · rfl

lemma respond_ne_error {r : InvertedTopicRouter} {opcode : WsOpcode} {payload : List UInt8}
    {capacity : ℕ} (hroom : 10 + payload.length ≤ capacity) {e : FrameError}
    (h : (respond r opcode payload capacity).result = .error e) : False := by
  have hframe := length_wsFrame_le opcode payload
  rw [respond_ok r (by omega)] at h
  cases h

/-- The session of an unknown client is not touched. -/
lemma subscribe_error {r r' : InvertedTopicRouter} {clientId : UInt32} {topic : TopicKey}
    {e : RouterError} (h : r.subscribe clientId topic = (.error e, r')) : r' = r := by
  unfold InvertedTopicRouter.subscribe at h
  split at h
  · cases h
  · cases h
    rfl

lemma unsubscribe_ok (r : InvertedTopicRouter) (clientId : UInt32) (topic : TopicKey) :
    (r.unsubscribe clientId topic).1 = .ok () := by
  unfold InvertedTopicRouter.unsubscribe
  split
  · rfl
  · rfl

lemma handleText_error {r : InvertedTopicRouter} {clientId : UInt32} {payload : List UInt8}
    {nowMs : UInt64} {e : FrameError} (h : (handleText r clientId payload nowMs).result = .error e) :
    (handleText r clientId payload nowMs).router = r ∧
      (handleText r clientId payload nowMs).responses = [] := by
  unfold handleText at h ⊢
  split at h
  · next topic _ =>
    split at h
    · -- the confirmation fits, so a subscription never fails after it was made
      have hlen := length_subscribedJson_le topic
      exact (respond_ne_error (by omega) h).elim
    · next hsubscribe => exact ⟨subscribe_error hsubscribe, rfl⟩
  · next topic _ =>
    have hok := unsubscribe_ok r clientId topic
    split at h
    · cases h
    · next hunsubscribe =>
      rw [hunsubscribe] at hok
      cases hok
  · have hlen := length_pongJson_le nowMs
    exact (respond_ne_error (by omega) h).elim
  · cases h
  · cases h
  · cases h

/-- A frame that is rejected has changed nothing, and nothing was sent. -/
theorem rejected_frame_changes_nothing {r : InvertedTopicRouter} {clientId : UInt32}
    {frameBytes : List UInt8} {nowMs : UInt64} {e : FrameError}
    (h : (handleInboundFrame r clientId frameBytes nowMs).result = .error e) :
    (handleInboundFrame r clientId frameBytes nowMs).router = r ∧
      (handleInboundFrame r clientId frameBytes nowMs).responses = [] := by
  unfold handleInboundFrame at h ⊢
  split at h
  · exact ⟨rfl, rfl⟩
  · split at h
    · -- a Pong may be too long for its buffer
      exact ⟨respond_router _ _ _ _, respond_error h⟩
    · -- an empty Close frame is not, so no client is removed by a call that fails
      exact (respond_ne_error (by decide) h).elim
    · exact handleText_error h
    · cases h
    · cases h
    · cases h

/-- A client that is not registered subscribes. -/
theorem rejected_frame_changes_nothing_unknown :
    let inbound := handleInboundFrame connectedRouter 11
      (wsFrame .text (commandText "subscribe" plainFields)) 0
    inbound.result = .error (.error (.clientNotFound 11)) ∧
      inbound.router = connectedRouter ∧ inbound.responses = [] := by
  have herror : (handleInboundFrame connectedRouter 11
      (wsFrame .text (commandText "subscribe" plainFields)) 0).result
        = .error (.error (.clientNotFound 11)) := by
    decide +kernel
  exact ⟨herror, rejected_frame_changes_nothing herror⟩

end WebSocket
end ChainMarketPrice.Distribution
