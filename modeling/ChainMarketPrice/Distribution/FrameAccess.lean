import ChainMarketPrice.Lib.BufferAccess
import ChainMarketPrice.Distribution.WebSocket

/-!
# The accesses of `handle_inbound_frame`

For each function on the path of an inbound frame, the log of its additions, indices, slices
and copies, along the branches that the function takes. A slice out of range aborts, so that
nothing is logged after it.
-/

namespace ChainMarketPrice.Distribution
namespace WebSocket

open Access Bytes FastJson

/-! ## Headers -/

/-- The length field of `decode_ws_frame_header`. -/
def lengthAccesses (n : ℕ) (lenByte : UInt8) : List Access :=
  if lenByte = 126 then
    if n < 4 then [] else [.add 2 2, .index 2 n, .index 3 n]
  else if lenByte = 127 then
    if n < 10 then [] else .add 2 8 :: (List.range 8).map fun i => .index (2 + i) n
  else []

/-- The mask key of `decode_ws_frame_header`. -/
def maskKeyAccesses (n headerLen : ℕ) : List Access :=
  .add headerLen 4 ::
    if n < headerLen + 4 then []
    else [.add headerLen 4, .slice headerLen (headerLen + 4) n, .copy 4 4, .add headerLen 4]

def decodeAccesses (buf : List UInt8) : List Access :=
  match buf with
  | b0 :: b1 :: _ =>
    .index 0 buf.length ::
      match WsOpcode.fromU8 b0 with
      | none => []
      | some _ =>
        .index 1 buf.length :: lengthAccesses buf.length (b1 &&& 0x7F) ++
          match decodePayloadLen buf (b1 &&& 0x7F) with
          | .error _ => []
          | .ok (_, headerLen) =>
            if (b1 &&& 0x80) != 0 then maskKeyAccesses buf.length headerLen else []
  | _ => []

/-- `unmask_payload`: two copies for each word, and the remainder byte by byte. -/
def unmaskAccesses (payloadLen : ℕ) : List Access :=
  let words := payloadLen / 8
  let rem := payloadLen % 8
  let offset := payloadLen - rem
  ((List.range words).flatMap fun _ => [.copy 8 8, .copy 8 8]) ++
    .sub payloadLen rem ::
      (List.range rem).flatMap fun i => [.add offset i, .index ((offset + i) % 4) 4]

/-! ## Responses -/

/-- The header length that `encode_ws_frame` chooses. -/
def outHeaderLen (payloadLen : ℕ) : ℕ :=
  if payloadLen < 126 then 2 else if payloadLen ≤ 0xFFFF then 4 else 10

def encodeAccesses (payloadLen capacity : ℕ) : List Access :=
  let headerLen := outHeaderLen payloadLen
  let totalLen := headerLen + payloadLen
  .add headerLen payloadLen ::
    if capacity < totalLen then []
    else
      [.index 0 capacity, .index 1 capacity] ++
        (if payloadLen < 126 then []
          else if payloadLen ≤ 0xFFFF then [.slice 2 4 capacity, .copy 2 2]
          else [.slice 2 10 capacity, .copy 8 8]) ++
        [.slice headerLen totalLen capacity, .copy (totalLen - headerLen) payloadLen]

/-- Encoding a response and slicing what is sent. -/
def respondAccesses (payload : List UInt8) (capacity : ℕ) : List Access :=
  encodeAccesses payload.length capacity ++
    if capacity < outHeaderLen payload.length + payload.length then []
    else [.slice 0 (outHeaderLen payload.length + payload.length) capacity]

/-- `write_byte`. -/
def writeByteAccesses (w : FastJsonWriter) : List Access :=
  if w.pos ≥ w.buf.length then [.add w.pos 1] else [.index w.pos w.buf.length, .add w.pos 1]

/-- `write_bytes`. -/
def writeBytesAccesses (w : FastJsonWriter) (bytes : List UInt8) : List Access :=
  let needed := w.pos + bytes.length
  .add w.pos bytes.length ::
    if needed > w.buf.length then []
    else [.slice w.pos needed w.buf.length, .copy (needed - w.pos) bytes.length]

/-- Two digits from the table into the scratch buffer of `write_u64`, below `idx`. -/
def pairAccesses (idx rem : ℕ) : List Access :=
  [.sub idx 2, .index (idx - 2) 20, .index (rem * 2) 200, .add (idx - 2) 1,
    .index (idx - 2 + 1) 20, .add (rem * 2) 1, .index (rem * 2 + 1) 200]

/-- The loop of `write_u64` and the digits after it. -/
def digitAccesses : ℕ → ℕ → ℕ → List Access
  -- out of turns: not in range, so that no access after it is lost
  | 0, _, _ => [.sub 0 1]
  | fuel + 1, val, idx =>
    if val ≥ 100 then pairAccesses idx (val % 100) ++ digitAccesses fuel (val / 100) (idx - 2)
    else if val < 10 then [.sub idx 1, .index (idx - 1) 20, .slice (idx - 1) 20 20]
    else pairAccesses idx val ++ [.slice (idx - 2) 20 20]

/-- `write_u64`. -/
def writeU64Accesses (w : FastJsonWriter) (val : UInt64) : List Access :=
  if val = 0 then writeByteAccesses w
  else digitAccesses 10 val.toNat 20 ++ writeBytesAccesses w (FastJsonWriter.u64Digits val)

/-- A small JSON message, and the slice of it that is framed. -/
def jsonMessageAccesses (capacity : ℕ) (head : String) (value : UInt64) : List Access :=
  let w0 := FastJsonWriter.new (List.replicate capacity 0)
  let w1 := ignoreError (FastJsonWriter.writeStr head) w0
  let w2 := ignoreError (FastJsonWriter.writeU64 value) w1
  let w3 := ignoreError (FastJsonWriter.writeStr "\x7d") w2
  writeBytesAccesses w0 (ofString head) ++ writeU64Accesses w1 value ++
    writeBytesAccesses w2 (ofString "\x7d") ++ [.slice 0 w3.pos capacity]

/-! ## Commands -/

/-- `extract_json_u64`. -/
def extractAccesses (s : List UInt8) (key : String) : List Access :=
  match (Text.find (pattern1 key) s).or (Text.find (pattern2 key) s) with
  | none => []
  | some pos =>
    let start := pos + (pattern1 key).length
    let slice := Text.trimStart (s.drop start)
    let digits := slice.takeWhile Text.isDigit
    [.add pos (pattern1 key).length, .slice start s.length s.length, .cut s start] ++
      (List.range digits.length).map (.add · 1) ++
      if digits.isEmpty then []
      else [.slice 0 digits.length slice.length, .cut slice digits.length]

/-- The numbers of a command, until one is missing. -/
def fieldAccesses (s : List UInt8) : List String → List Access
  | [] => []
  | key :: keys =>
    extractAccesses s key ++
      if (extractJsonU64 s key).isNone then [] else fieldAccesses s keys

/-- `parse_client_command`. -/
def commandAccesses (s : List UInt8) : List Access :=
  if !Text.isUtf8 s then []
  else if hasAction s "ping" || hasAction s "pong" then []
  else if hasAction s "subscribe" then
    fieldAccesses s ["venue", "market_id", "stream_type", "flags"]
  else if hasAction s "unsubscribe" then fieldAccesses s ["venue", "market_id", "stream_type"]
  else []

/-! ## The engine -/

/-- `ClientBitmap::insert` and `ClientBitmap::remove`: the word is read and written. -/
def bitmapAccesses (clientId : UInt32) : List Access :=
  if clientId.toNat / 64 < defaultBitmapWords then
    [.index (clientId.toNat / 64) defaultBitmapWords, .index (clientId.toNat / 64) defaultBitmapWords]
  else []

def textAccesses (r : InvertedTopicRouter) (clientId : UInt32) (payload : List UInt8)
    (nowMs : UInt64) : List Access :=
  commandAccesses payload ++
    match parseClientCommand payload with
    | some (.subscribe topic) =>
      match r.subscribe clientId topic with
      | (.ok _, _) =>
        bitmapAccesses clientId ++
          jsonMessageAccesses 128 "\x7b\"type\":\"subscribed\",\"topic\":" topic.key ++
          respondAccesses (subscribedJson topic) 256
      | (.error _, _) => []
    | some (.unsubscribe topic) =>
      if (r.topics.lookup topic).isSome then bitmapAccesses clientId else []
    | some .ping =>
      jsonMessageAccesses 64 "\x7b\"type\":\"pong\",\"ts\":" nowMs ++
        respondAccesses (pongJson nowMs) 128
    | some (.filter _) | some .pong | none => []

/-- What follows the payload, by opcode. Leaving removes the client from every topic. -/
def opcodeAccesses (r : InvertedTopicRouter) (clientId : UInt32) (opcode : WsOpcode)
    (payload : List UInt8) (nowMs : UInt64) : List Access :=
  match opcode with
  | .ping => respondAccesses payload 256
  | .close =>
    (if (r.clients.lookup clientId).isSome then
        r.topics.entries.flatMap fun _ => bitmapAccesses clientId
      else []) ++ respondAccesses [] 16
  | .text => textAccesses r clientId payload nowMs
  | .pong | .binary | .continuation => []

def inboundAccesses (r : InvertedTopicRouter) (clientId : UInt32) (frameBytes : List UInt8)
    (nowMs : UInt64) : List Access :=
  decodeAccesses frameBytes ++
    match decodeWsFrameHeader frameBytes with
    | .error _ => []
    | .ok header =>
      let totalRequired := (header.headerLen + header.payloadLen) % 2 ^ 64
      .add header.headerLen header.payloadLen ::
        if frameBytes.length < totalRequired then []
        else
          .slice header.headerLen totalRequired frameBytes.length ::
            match readFrame frameBytes with
            | .error _ => []
            | .ok (_, payload) =>
              (if header.masked then unmaskAccesses payload.length else []) ++
                opcodeAccesses r clientId header.opcode payload nowMs

end WebSocket
end ChainMarketPrice.Distribution
