import ChainMarketPrice.Lib.Text
import ChainMarketPrice.Distribution.Router

/-!
# The WebSocket engine

`crates/distribution/src/websocket.rs`: frames, the commands of clients, and the engine that
connects them with the router. Lengths are 64-bit `usize` and wrap as the release profile
does; a slice out of range aborts the process (`FrameError.panicked`).
-/

namespace ChainMarketPrice.Distribution
namespace WebSocket

open Bytes FastJson

/-- `WsOpcode`. -/
inductive WsOpcode
  | continuation
  | text
  | binary
  | close
  | ping
  | pong
deriving Repr, DecidableEq

def WsOpcode.fromU8 (val : UInt8) : Option WsOpcode :=
  match (val &&& 0x0F).toNat with
  | 0x0 => some .continuation
  | 0x1 => some .text
  | 0x2 => some .binary
  | 0x8 => some .close
  | 0x9 => some .ping
  | 0xA => some .pong
  | _ => none

def WsOpcode.toU8 : WsOpcode → UInt8
  | .continuation => 0x0
  | .text => 0x1
  | .binary => 0x2
  | .close => 0x8
  | .ping => 0x9
  | .pong => 0xA

/-- `WsError`. -/
inductive WsError
  | bufferTooSmall (required provided : ℕ)
  | incompleteFrame
  | invalidOpcode (opcode : UInt8)
  | maskingRequired
  | invalidPayloadLength
  | invalidCommand
  | clientNotFound (id : UInt32)
deriving Repr, DecidableEq

/-- `WsFrameHeader`. -/
structure WsFrameHeader where
  fin : Bool
  opcode : WsOpcode
  masked : Bool
  payloadLen : ℕ
  maskKey : List UInt8
  headerLen : ℕ
deriving Repr, DecidableEq

/-! ## Frames -/

/-- Whether the first byte of a word in memory is its lowest or its highest. -/
inductive Endianness
  | little
  | big
deriving Repr, DecidableEq

/-- `from_ne_bytes`. -/
def fromNeBytes : Endianness → List UInt8 → ℕ
  | .little, bytes => ofLe bytes
  | .big, bytes => ofBe bytes

/-- `to_ne_bytes` for a word of the given width. -/
def toNeBytes : Endianness → ℕ → ℕ → List UInt8
  | .little, width, n => toLe width n
  | .big, width, n => toBe width n

/-- `unmask_payload`: whole words first, then the remainder byte by byte. -/
def unmaskPayload (endianness : Endianness) (payload mask : List UInt8) : List UInt8 :=
  let maskU32 := fromNeBytes endianness mask
  let maskU64 := (maskU32 <<< 32) ||| maskU32
  let words := payload.length / 8
  let chunks := (List.range words).flatMap fun i =>
    toNeBytes endianness 8 (fromNeBytes endianness ((payload.drop (8 * i)).take 8) ^^^ maskU64)
  let offset := 8 * words
  let rem := (payload.drop offset).mapIdx fun i byte => byte ^^^ mask.getD ((offset + i) % 4) 0
  chunks ++ rem

/-- The length field of a header: the payload length and the bytes of the header so far. -/
def decodePayloadLen (buf : List UInt8) (lenByte : UInt8) : Except WsError (ℕ × ℕ) :=
  if lenByte = 126 then
    if buf.length < 4 then .error .incompleteFrame
    else .ok (ofBe ((buf.drop 2).take 2), 4)
  else if lenByte = 127 then
    if buf.length < 10 then .error .incompleteFrame
    else .ok (ofBe ((buf.drop 2).take 8), 10)
  else .ok (lenByte.toNat, 2)

def decodeWsFrameHeader (buf : List UInt8) : Except WsError WsFrameHeader := do
  match buf with
  | b0 :: b1 :: _ =>
    let fin := (b0 &&& 0x80) != 0
    match WsOpcode.fromU8 b0 with
    | none => .error (.invalidOpcode (b0 &&& 0x0F))
    | some opcode =>
      let masked := (b1 &&& 0x80) != 0
      let (payloadLen, headerLen) ← decodePayloadLen buf (b1 &&& 0x7F)
      if masked then
        if buf.length < headerLen + 4 then .error .incompleteFrame
        else
          .ok
            { fin := fin, opcode := opcode, masked := masked, payloadLen := payloadLen,
              maskKey := (buf.drop headerLen).take 4, headerLen := headerLen + 4 }
      else
        .ok
          { fin := fin, opcode := opcode, masked := masked, payloadLen := payloadLen,
            maskKey := [0, 0, 0, 0], headerLen := headerLen }
  | _ => .error .incompleteFrame

/-- The header of a frame without mask: the shortest length field that fits. -/
def frameHeader (opcode : WsOpcode) (payloadLen : ℕ) : List UInt8 :=
  let first := 0x80 ||| opcode.toU8
  if payloadLen < 126 then [first, UInt8.ofNat payloadLen]
  else if payloadLen ≤ 0xFFFF then first :: 126 :: toBe 2 payloadLen
  else first :: 127 :: toBe 8 payloadLen

/-- `encode_ws_frame`: the length written, and the buffer after. -/
def encodeWsFrame (opcode : WsOpcode) (payload out : List UInt8) : Except WsError ℕ × List UInt8 :=
  let payloadLen := payload.length
  let headerLen := if payloadLen < 126 then 2 else if payloadLen ≤ 0xFFFF then 4 else 10
  let totalLen := headerLen + payloadLen
  if out.length < totalLen then (.error (.bufferTooSmall totalLen out.length), out)
  else (.ok totalLen, copyAt (copyAt out 0 (frameHeader opcode payloadLen)) headerLen payload)

/-! ## Commands -/

/-- `ClientCommand`. -/
inductive ClientCommand
  | subscribe (topic : TopicKey)
  | unsubscribe (topic : TopicKey)
  | filter (filter : ClientFilterPredicate)
  | ping
  | pong
deriving Repr, DecidableEq

/-- The pattern `"key":`. -/
def pattern1 (key : String) : List UInt8 := ofString ("\"" ++ key ++ "\":")

/-- The pattern `"key" :`. -/
def pattern2 (key : String) : List UInt8 := ofString ("\"" ++ key ++ "\" :")

def extractJsonU64 (s : List UInt8) (key : String) : Option UInt64 :=
  match (Text.find (pattern1 key) s).or (Text.find (pattern2 key) s) with
  | none => none
  | some pos =>
    -- the length of the first pattern is added whichever of the two was found
    let start := pos + (pattern1 key).length
    let digits := (Text.trimStart (s.drop start)).takeWhile Text.isDigit
    if digits.isEmpty then none else Text.parseU64 digits

/-- The action of a command, with or without a space after the colon. -/
def hasAction (s : List UInt8) (action : String) : Bool :=
  Text.contains s (ofString ("\"action\":\"" ++ action ++ "\""))
    || Text.contains s (ofString ("\"action\": \"" ++ action ++ "\""))

def parseClientCommand (s : List UInt8) : Option ClientCommand :=
  if !Text.isUtf8 s then none
  else if hasAction s "ping" then some .ping
  else if hasAction s "pong" then some .pong
  else if hasAction s "subscribe" then do
    let venue := (← extractJsonU64 s "venue").toUInt8
    let marketId := (← extractJsonU64 s "market_id").toUInt32
    let streamType := (← extractJsonU64 s "stream_type").toUInt8
    let flags := ((extractJsonU64 s "flags").getD 0).toUInt32
    some (.subscribe (.new venue marketId streamType flags))
  else if hasAction s "unsubscribe" then do
    let venue := (← extractJsonU64 s "venue").toUInt8
    let marketId := (← extractJsonU64 s "market_id").toUInt32
    let streamType := (← extractJsonU64 s "stream_type").toUInt8
    some (.unsubscribe (.new venue marketId streamType 0))
  else none

/-! ## The engine

`WebSocketServerEngine` holds nothing but the router. -/

def handleClientConnect (r : InvertedTopicRouter) (clientId : UInt32) (protocol : WireProtocol)
    (ratePerSec burstCapacity : UInt32) (nowMs : UInt64) :
    Except WsError UInt32 × InvertedTopicRouter :=
  let session := ClientSession.new clientId protocol ratePerSec burstCapacity nowMs
  match r.registerClient session with
  | (.ok id, r) => (.ok id, r)
  | (.error _, r) => (.error (.clientNotFound clientId), r)

def handleClientDisconnect (r : InvertedTopicRouter) (clientId : UInt32) : InvertedTopicRouter :=
  (r.unregisterClient clientId).2

/-- How a call ends without a result. -/
inductive FrameError
  | error (e : WsError)
  | panicked
deriving Repr, DecidableEq

/-- What `handle_inbound_frame` leaves: its result, the router and the responses sent. -/
structure Inbound where
  result : Except FrameError Unit
  router : InvertedTopicRouter
  responses : List (List UInt8)

/-- The first part of `handle_inbound_frame`: the header and the payload without its mask. -/
def readFrame (frameBytes : List UInt8) : Except FrameError (WsFrameHeader × List UInt8) :=
  match decodeWsFrameHeader frameBytes with
  | .error e => .error (.error e)
  | .ok header =>
    let totalRequired := (header.headerLen + header.payloadLen) % 2 ^ 64
    if frameBytes.length < totalRequired then .error (.error .incompleteFrame)
    else if totalRequired < header.headerLen then .error .panicked
    else
      let payload := (frameBytes.drop header.headerLen).take (totalRequired - header.headerLen)
      if header.masked then .ok (header, unmaskPayload .little payload header.maskKey)
      else .ok (header, payload)

/-- Encodes a response into a buffer of the given size and sends it. -/
def respond (r : InvertedTopicRouter) (opcode : WsOpcode) (payload : List UInt8)
    (capacity : ℕ) : Inbound :=
  match encodeWsFrame opcode payload (List.replicate capacity 0) with
  | (.ok len, buf) => ⟨.ok (), r, [buf.take len]⟩
  | (.error e, _) => ⟨.error (.error e), r, []⟩

/-- `let _ = write`: the writer after a write whose error is ignored. -/
def ignoreError (write : JsonM Unit) (w : FastJsonWriter) : FastJsonWriter :=
  match write w with
  | .ok _ w => w
  | .error _ w => w

/-- A small JSON message with one number, in a buffer of the given size. -/
def jsonMessage (capacity : ℕ) (head : String) (value : UInt64) : List UInt8 :=
  let w := FastJsonWriter.new (List.replicate capacity 0)
  let w := ignoreError (FastJsonWriter.writeStr head) w
  let w := ignoreError (FastJsonWriter.writeU64 value) w
  let w := ignoreError (FastJsonWriter.writeStr "\x7d") w
  w.buf.take w.pos

/-- The confirmation of a subscription. -/
def subscribedJson (topic : TopicKey) : List UInt8 :=
  jsonMessage 128 "\x7b\"type\":\"subscribed\",\"topic\":" topic.key

/-- The answer to the ping command. -/
def pongJson (nowMs : UInt64) : List UInt8 := jsonMessage 64 "\x7b\"type\":\"pong\",\"ts\":" nowMs

/-- A text frame: the command in it, if there is one. -/
def handleText (r : InvertedTopicRouter) (clientId : UInt32) (payload : List UInt8)
    (nowMs : UInt64) : Inbound :=
  match parseClientCommand payload with
  | some (.subscribe topic) =>
    match r.subscribe clientId topic with
    | (.ok _, r) => respond r .text (subscribedJson topic) 256
    | (.error _, r) => ⟨.error (.error (.clientNotFound clientId)), r, []⟩
  | some (.unsubscribe topic) =>
    match r.unsubscribe clientId topic with
    | (.ok _, r) => ⟨.ok (), r, []⟩
    | (.error _, r) => ⟨.error (.error (.clientNotFound clientId)), r, []⟩
  | some .ping => respond r .text (pongJson nowMs) 128
  | some (.filter _) | some .pong | none => ⟨.ok (), r, []⟩

def handleInboundFrame (r : InvertedTopicRouter) (clientId : UInt32) (frameBytes : List UInt8)
    (nowMs : UInt64) : Inbound :=
  match readFrame frameBytes with
  | .error e => ⟨.error e, r, []⟩
  | .ok (header, payload) =>
    match header.opcode with
    | .ping => respond r .pong payload 256
    | .close => respond (handleClientDisconnect r clientId) .close [] 16
    | .text => handleText r clientId payload nowMs
    | .pong | .binary | .continuation => ⟨.ok (), r, []⟩

/-! ## Broadcast -/

/-- A frame that is encoded for the first client of its protocol and kept for the others:
`framed_sbe` and `sbe_cached_len`, and their JSON counterparts. -/
structure FrameCache where
  framed : List UInt8
  cachedLen : ℕ := 0
deriving Repr, DecidableEq

def FrameCache.fill (cache : FrameCache) (opcode : WsOpcode) (rawPayload : List UInt8) :
    FrameCache :=
  if cache.cachedLen = 0 then
    match encodeWsFrame opcode rawPayload cache.framed with
    | (.ok len, framed) => { framed := framed, cachedLen := len }
    | (.error _, framed) => { cache with framed := framed }
  else cache

/-- The variables the sink of a broadcast captures, with the frames sent so far. -/
structure BroadcastState where
  sbe : FrameCache := { framed := List.replicate 256 0 }
  json : FrameCache := { framed := List.replicate 1024 0 }
  sent : List (UInt32 × List UInt8) := []

/-- The frame for one client, if its cache holds one. -/
def FrameCache.frames (cache : FrameCache) (clientId : UInt32) : List (UInt32 × List UInt8) :=
  if cache.cachedLen > 0 then [(clientId, cache.framed.take cache.cachedLen)] else []

/-- The sink of a broadcast. -/
def broadcastSink (st : BroadcastState) (call : SinkCall) : BroadcastState :=
  match call.protocol with
  | .sbe =>
    let sbe := st.sbe.fill .binary call.payload
    { st with sbe := sbe, sent := st.sent ++ sbe.frames call.clientId }
  | .json =>
    let json := st.json.fill .text call.payload
    { st with json := json, sent := st.sent ++ json.frames call.clientId }

/-- `broadcast_bbo`: the router after, the metrics and the frames sent. -/
def broadcastBbo (r : InvertedTopicRouter) (bbo : NormalizedBbo) (nowMs : UInt64) :
    InvertedTopicRouter × DispatchMetrics × List (UInt32 × List UInt8) :=
  let (r, metrics, calls) := r.dispatchBbo bbo nowMs
  (r, metrics, (calls.foldl broadcastSink {}).sent)

/-- `broadcast_trade`, with the notional filter of `dispatch_trade` as a parameter. -/
def broadcastTrade (r : InvertedTopicRouter) (trade : UnifiedTrade)
    (matchesTrade : ClientFilterPredicate → Bool) (nowMs : UInt64) :
    InvertedTopicRouter × DispatchMetrics × List (UInt32 × List UInt8) :=
  let (r, metrics, calls) := r.dispatchTrade trade matchesTrade nowMs
  (r, metrics, (calls.foldl broadcastSink {}).sent)

end WebSocket
end ChainMarketPrice.Distribution
