import ChainMarketPrice.Distribution.RouterTheorems
import ChainMarketPrice.Distribution.WebSocket

/-!
# Frames and commands

A frame that fits its buffer is written whole (`encodeWsFrame_ok`), so every response and
every broadcast frame is `wsFrame` of its payload. A confirmation is only ever sent for a
subscribe command that the router accepted (`confirmed`).
-/

namespace ChainMarketPrice.Distribution
namespace WebSocket

open Bytes FastJson InvertedTopicRouter

/-! ## Frames -/

/-- A whole frame without mask. -/
def wsFrame (opcode : WsOpcode) (payload : List UInt8) : List UInt8 :=
  frameHeader opcode payload.length ++ payload

lemma length_frameHeader (opcode : WsOpcode) (n : ℕ) :
    (frameHeader opcode n).length = if n < 126 then 2 else if n ≤ 0xFFFF then 4 else 10 := by
  unfold frameHeader
  dsimp only
  split
  · rfl
  · split
    · simp [toBe]
    · simp [toBe]

lemma length_wsFrame (opcode : WsOpcode) (payload : List UInt8) :
    (wsFrame opcode payload).length
      = (if payload.length < 126 then 2 else if payload.length ≤ 0xFFFF then 4 else 10)
        + payload.length := by
  rw [wsFrame, List.length_append, length_frameHeader]

lemma length_wsFrame_le (opcode : WsOpcode) (payload : List UInt8) :
    (wsFrame opcode payload).length ≤ 10 + payload.length := by
  rw [length_wsFrame]
  split
  · omega
  · split
    · omega
    · omega

/-- A frame that fits is written whole, and the buffer keeps its length. -/
lemma encodeWsFrame_ok {opcode : WsOpcode} {payload out : List UInt8}
    (h : (wsFrame opcode payload).length ≤ out.length) :
    ∃ buf, encodeWsFrame opcode payload out = (.ok (wsFrame opcode payload).length, buf) ∧
      buf.length = out.length ∧
      buf.take (wsFrame opcode payload).length = wsFrame opcode payload := by
  have hlen := length_wsFrame opcode payload
  have hheader := length_frameHeader opcode payload.length
  unfold encodeWsFrame
  dsimp only
  rw [← hheader] at hlen ⊢
  rw [if_neg (by omega), hlen]
  have hfirst : (copyAt out 0 (frameHeader opcode payload.length)).length = out.length :=
    length_copyAt (by omega)
  refine ⟨_, rfl, ?_, ?_⟩
  · rw [length_copyAt (by omega), hfirst]
  · have hbefore : (copyAt out 0 (frameHeader opcode payload.length)).take
        (0 + (frameHeader opcode payload.length).length)
          = out.take 0 ++ frameHeader opcode payload.length := take_copyAt (by omega)
    rw [Nat.zero_add, List.take_zero, List.nil_append] at hbefore
    rw [take_copyAt (by omega), hbefore, wsFrame]

lemma head_wsFrame (opcode : WsOpcode) (payload : List UInt8) :
    (wsFrame opcode payload).head? = some (0x80 ||| opcode.toU8) := by
  unfold wsFrame frameHeader
  dsimp only
  split
  · rfl
  · split
    · rfl
    · rfl

/-- Short payloads have a header of two bytes. -/
lemma drop_wsFrame {opcode : WsOpcode} {payload : List UInt8} (h : payload.length < 126) :
    (wsFrame opcode payload).drop 2 = payload := by
  have hheader := length_frameHeader opcode payload.length
  rw [if_pos h] at hheader
  rw [wsFrame, ← hheader, List.drop_left]

/-! ## Responses -/

lemma respond_router (r : InvertedTopicRouter) (opcode : WsOpcode) (payload : List UInt8)
    (capacity : ℕ) : (respond r opcode payload capacity).router = r := by
  unfold respond
  split
  · rfl
  · rfl

/-- A response is the whole frame, or it is not sent. -/
lemma mem_respond {r : InvertedTopicRouter} {opcode : WsOpcode} {payload response : List UInt8}
    {capacity : ℕ} (h : response ∈ (respond r opcode payload capacity).responses) :
    response = wsFrame opcode payload := by
  have hlen := length_wsFrame opcode payload
  by_cases hfits : (wsFrame opcode payload).length ≤ capacity
  · have hroom : (wsFrame opcode payload).length ≤ (List.replicate capacity (0 : UInt8)).length := by
      rw [List.length_replicate]
      exact hfits
    obtain ⟨buf, hok, -, htake⟩ := encodeWsFrame_ok hroom
    unfold respond at h
    rw [hok] at h
    rw [List.mem_singleton.mp h, htake]
  · unfold respond encodeWsFrame at h
    dsimp only at h
    rw [List.length_replicate, ← hlen, if_pos (by omega)] at h
    cases h

/-- The text of a small JSON message. -/
lemma jsonMessage_eq {capacity : ℕ} {head : String} (value : UInt64)
    (h : (ofString head).length + 21 ≤ capacity) :
    jsonMessage capacity head value = ofString head ++ u64Text value ++ ofString "\x7d" := by
  have hdigits := length_u64Text_le value
  have hclose : (ofString "\x7d").length = 1 := rfl
  have hcapacity : (FastJsonWriter.new (List.replicate capacity 0)).buf.length = capacity :=
    List.length_replicate
  obtain ⟨w1, hw1, hlen1, hpos1, htext1⟩ :=
    writes_writeBytes (ofString head) (FastJsonWriter.new (List.replicate capacity 0)) (by
      rw [hcapacity]
      show 0 + _ ≤ capacity
      omega)
  have hzero : (FastJsonWriter.new (List.replicate capacity 0)).pos = 0 := rfl
  obtain ⟨w2, hw2, hlen2, hpos2, htext2⟩ := writes_writeU64 value w1 (by omega)
  obtain ⟨w3, hw3, hlen3, hpos3, htext3⟩ := writes_writeBytes (ofString "\x7d") w2 (by omega)
  have hresult : jsonMessage capacity head value = w3.written := by
    unfold jsonMessage ignoreError FastJsonWriter.writeStr
    simp only [hw1, hw2, hw3]
    rfl
  rw [hresult, htext3, htext2, htext1]
  rfl

lemma subscribedJson_eq (topic : TopicKey) :
    subscribedJson topic
      = ofString "\x7b\"type\":\"subscribed\",\"topic\":" ++ u64Text topic.key ++ ofString "\x7d" :=
  jsonMessage_eq topic.key (by decide)

lemma pongJson_eq (nowMs : UInt64) :
    pongJson nowMs = ofString "\x7b\"type\":\"pong\",\"ts\":" ++ u64Text nowMs ++ ofString "\x7d" :=
  jsonMessage_eq nowMs (by decide)

lemma length_subscribedJson_le (topic : TopicKey) : (subscribedJson topic).length ≤ 50 := by
  have hdigits := length_u64Text_le topic.key
  have hhead : (ofString "\x7b\"type\":\"subscribed\",\"topic\":").length = 29 := by decide
  have hclose : (ofString "\x7d").length = 1 := rfl
  rw [subscribedJson_eq, List.length_append, List.length_append]
  omega

lemma length_pongJson_le (nowMs : UInt64) : (pongJson nowMs).length ≤ 41 := by
  have hdigits := length_u64Text_le nowMs
  have hhead : (ofString "\x7b\"type\":\"pong\",\"ts\":").length = 20 := by decide
  have hclose : (ofString "\x7d").length = 1 := rfl
  rw [pongJson_eq, List.length_append, List.length_append]
  omega

/-- The frame that confirms a subscription. -/
def IsConfirmation (response : List UInt8) : Prop :=
  ∃ topic, response = wsFrame .text (subscribedJson topic)

/-- Only text frames confirm anything. -/
lemma not_isConfirmation_of_opcode {opcode : WsOpcode} (h : 0x80 ||| opcode.toU8 ≠ 0x81)
    (payload : List UInt8) : ¬ IsConfirmation (wsFrame opcode payload) := by
  rintro ⟨topic, heq⟩
  have hhead := congrArg List.head? heq
  rw [head_wsFrame, head_wsFrame] at hhead
  exact h (Option.some.inj hhead)

/-- The answer to the ping command confirms nothing: the messages differ at the tenth byte. -/
lemma not_isConfirmation_pong (nowMs : UInt64) :
    ¬ IsConfirmation (wsFrame .text (pongJson nowMs)) := by
  rintro ⟨topic, heq⟩
  have hpong := length_pongJson_le nowMs
  have hsubscribed := length_subscribedJson_le topic
  have hjson := congrArg (List.drop 2) heq
  rw [drop_wsFrame (by omega), drop_wsFrame (by omega), pongJson_eq, subscribedJson_eq] at hjson
  have htenth := congrArg (List.take 10) hjson
  rw [List.append_assoc, List.append_assoc, List.take_append_of_le_length (by decide),
    List.take_append_of_le_length (by decide)] at htenth
  revert htenth
  decide

/-! ## Confirmed commands -/

/-- A confirmation is only sent for a subscribe command that the router accepted, which is
then all that has happened. -/
lemma confirmed {r : InvertedTopicRouter} {c : UInt32} {frame response : List UInt8}
    {nowMs : UInt64} (hresponse : response ∈ (handleInboundFrame r c frame nowMs).responses)
    (hconfirms : IsConfirmation response) :
    ∃ header text topic, readFrame frame = .ok (header, text) ∧ header.opcode = .text ∧
      parseClientCommand text = some (.subscribe topic) ∧ (r.subscribe c topic).1 = .ok () := by
  -- the paths of the handler: every other response is no confirmation
  unfold handleInboundFrame at hresponse
  split at hresponse
  · cases hresponse
  · rename_i header text hread
    split at hresponse
    · rw [mem_respond hresponse] at hconfirms
      exact absurd hconfirms (not_isConfirmation_of_opcode (by decide) _)
    · rw [mem_respond hresponse] at hconfirms
      exact absurd hconfirms (not_isConfirmation_of_opcode (by decide) _)
    · rename_i hopcode
      unfold handleText at hresponse
      split at hresponse
      · rename_i topic hparse
        split at hresponse
        · rename_i hsubscribe
          exact ⟨header, text, topic, hread, hopcode, hparse, by rw [hsubscribe]⟩
        · cases hresponse
      · split at hresponse
        · cases hresponse
        · cases hresponse
      · rw [mem_respond hresponse] at hconfirms
        exact absurd hconfirms (not_isConfirmation_pong nowMs)
      all_goals cases hresponse
    all_goals cases hresponse

/-- The text has the key `"key":`, and behind its first occurrence the decimal number `v`. -/
def Carries (text : List UInt8) (key : String) (v : ℕ) : Prop :=
  ∃ pos, Text.find (pattern1 key) text = some pos ∧
    ∃ digits, digits
        = (Text.trimStart (text.drop (pos + (pattern1 key).length))).takeWhile Text.isDigit ∧
      digits ≠ [] ∧ Text.decimalValue digits = v

/-- A number that fits into 64 bits is read as it is, a larger one not at all. -/
lemma extractJsonU64_of_carries {text : List UInt8} {key : String} {v : ℕ}
    (h : Carries text key v) :
    extractJsonU64 text key = if v < 2 ^ 64 then some (UInt64.ofNat v) else none := by
  obtain ⟨pos, hpos, digits, rfl, hne, rfl⟩ := h
  unfold extractJsonU64 Text.parseU64
  rw [hpos, Option.some_or]
  dsimp only
  rw [if_neg (by rw [List.isEmpty_iff]; exact hne)]
  simp only [hne, ne_eq, not_false_eq_true, true_and]

/-- The topic of a subscribe command is made of the numbers it carries. Flags beyond 64 bits
count as none. -/
lemma topic_of_carries {text : List UInt8} {topic : TopicKey} {v m s f : ℕ}
    (hparse : parseClientCommand text = some (.subscribe topic)) (hv : Carries text "venue" v)
    (hm : Carries text "market_id" m) (hs : Carries text "stream_type" s)
    (hf : Carries text "flags" f) :
    topic = .new (UInt64.ofNat v).toUInt8 (UInt64.ofNat m).toUInt32 (UInt64.ofNat s).toUInt8
      (if f < 2 ^ 64 then UInt64.ofNat f else 0).toUInt32 := by
  have hflags : (extractJsonU64 text "flags").getD 0 = if f < 2 ^ 64 then UInt64.ofNat f else 0 := by
    rw [extractJsonU64_of_carries hf]
    split
    · rfl
    · rfl
  unfold parseClientCommand at hparse
  split at hparse
  · cases hparse
  split at hparse
  · cases hparse
  split at hparse
  · cases hparse
  split at hparse
  · rw [extractJsonU64_of_carries hv, extractJsonU64_of_carries hm,
      extractJsonU64_of_carries hs, hflags] at hparse
    -- a number that was not read would have ended the command
    by_cases hv64 : v < 2 ^ 64
    · by_cases hm64 : m < 2 ^ 64
      · by_cases hs64 : s < 2 ^ 64
        · rw [if_pos hv64, if_pos hm64, if_pos hs64] at hparse
          cases hparse
          rfl
        · rw [if_neg hs64, if_pos hv64, if_pos hm64] at hparse
          cases hparse
      · rw [if_neg hm64, if_pos hv64] at hparse
        cases hparse
    · rw [if_neg hv64] at hparse
      cases hparse
  split at hparse
  · simp only [Option.bind_eq_bind, Option.bind_eq_some_iff] at hparse
    obtain ⟨_, -, _, -, _, -, hparse⟩ := hparse
    cases hparse
  · cases hparse

end WebSocket
end ChainMarketPrice.Distribution
