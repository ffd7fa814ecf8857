import ChainMarketPrice.Distribution.FrameCodec

/-!
# Broadcasts frame by frame

The router encodes an event at most once for each protocol, and the sink of a broadcast frames
it at most once. Both caches hold what they were filled with (`LazyBuffer.Holds`,
`FrameCache.Holds`), so each delivery that is counted is one frame, which reads back as the
encoding of the event (`broadcast_delivers`).
-/

namespace ChainMarketPrice.Distribution
namespace WebSocket

open Bytes FastJson InvertedTopicRouter

/-! ## The cached frames -/

/-- The opcode of the frames for a protocol. -/
def opcodeOf : WireProtocol → WsOpcode
  | .sbe => .binary
  | .json => .text

/-- A cache is unused, or it holds the frame of the payload. -/
def FrameCache.Holds (cache : FrameCache) (opcode : WsOpcode) (capacity : ℕ)
    (payload : List UInt8) : Prop :=
  cache = { framed := List.replicate capacity 0 } ∨
    0 < cache.cachedLen ∧ cache.framed.take cache.cachedLen = wsFrame opcode payload

/-- A cache sends the frame of the payload from the first client on. -/
lemma FrameCache.Holds.fill {cache : FrameCache} {opcode : WsOpcode} {capacity : ℕ}
    {payload : List UInt8} (h : cache.Holds opcode capacity payload)
    (hroom : (wsFrame opcode payload).length ≤ capacity) :
    0 < (cache.fill opcode payload).cachedLen ∧
      (cache.fill opcode payload).framed.take (cache.fill opcode payload).cachedLen
        = wsFrame opcode payload := by
  rcases h with rfl | ⟨hpos, htake⟩
  · -- the first client of its protocol: the frame is encoded
    have hout : (wsFrame opcode payload).length ≤ (List.replicate capacity (0 : UInt8)).length := by
      rw [List.length_replicate]
      exact hroom
    obtain ⟨buf, hok, -, htake⟩ := encodeWsFrame_ok hout
    have hlen := length_wsFrame opcode payload
    rw [FrameCache.fill, if_pos rfl, hok]
    refine ⟨?_, htake⟩
    dsimp only
    split at hlen <;> omega
  · rw [FrameCache.fill, if_neg (by omega)]
    exact ⟨hpos, htake⟩

lemma FrameCache.frames_of_holds {cache : FrameCache} {frame : List UInt8}
    (h : 0 < cache.cachedLen ∧ cache.framed.take cache.cachedLen = frame) (c : UInt32) :
    cache.frames c = [(c, frame)] := by
  rw [FrameCache.frames, if_pos h.1, h.2]

/-- The caches of a broadcast in progress, for the payloads of its event. -/
def CachesOk (payloads : WireProtocol → List UInt8) (st : BroadcastState) : Prop :=
  st.sbe.Holds .binary 256 (payloads .sbe) ∧ st.json.Holds .text 1024 (payloads .json)

/-- Both frames of an event fit their caches. -/
def FramesFit (payloads : WireProtocol → List UInt8) : Prop :=
  (wsFrame .binary (payloads .sbe)).length ≤ 256 ∧ (wsFrame .text (payloads .json)).length ≤ 1024

/-- One call of the sink sends one frame, with the payload of its protocol. -/
lemma broadcastSink_step {payloads : WireProtocol → List UInt8} (hfit : FramesFit payloads)
    {st : BroadcastState} (hst : CachesOk payloads st) {call : SinkCall}
    (hcall : call.payload = payloads call.protocol) :
    CachesOk payloads (broadcastSink st call) ∧
      (broadcastSink st call).sent
        = st.sent ++ [(call.clientId, wsFrame (opcodeOf call.protocol) call.payload)] := by
  unfold broadcastSink
  cases hprotocol : call.protocol with
  | sbe =>
    rw [hprotocol] at hcall
    rw [hcall]
    have hholds := hst.1.fill hfit.1
    exact ⟨⟨.inr hholds, hst.2⟩, congrArg (st.sent ++ ·) (FrameCache.frames_of_holds hholds _)⟩
  | json =>
    rw [hprotocol] at hcall
    rw [hcall]
    have hholds := hst.2.fill hfit.2
    exact ⟨⟨hst.1, .inr hholds⟩, congrArg (st.sent ++ ·) (FrameCache.frames_of_holds hholds _)⟩

/-- The calls of a dispatch are sent as one frame each, in order. -/
lemma sent_foldl_broadcastSink {payloads : WireProtocol → List UInt8} (hfit : FramesFit payloads)
    {calls : List SinkCall} (hcalls : ∀ call ∈ calls, call.payload = payloads call.protocol)
    (st : BroadcastState) (hst : CachesOk payloads st) :
    (calls.foldl broadcastSink st).sent
      = st.sent ++ calls.map fun call =>
          (call.clientId, wsFrame (opcodeOf call.protocol) call.payload) := by
  induction calls generalizing st with
  | nil => rw [List.foldl_nil, List.map_nil, List.append_nil]
  | cons call calls ih =>
    obtain ⟨hst', hsent⟩ := broadcastSink_step hfit hst (hcalls call List.mem_cons_self)
    rw [List.foldl_cons, ih (fun call' hmem => hcalls call' (List.mem_cons_of_mem _ hmem)) _ hst',
      hsent, List.append_assoc]
    rfl

/-! ## The encodings of an event -/

/-- The encodings of a best bid and offer. -/
def IsBboEncoding (bbo : NormalizedBbo) : WireProtocol → List UInt8 → Prop
  | .sbe => Encoding (Sbe.encodeBboSbe bbo)
  | .json => Encoding (serializeBboJson bbo)

/-- The encodings of a trade. -/
def IsTradeEncoding (trade : UnifiedTrade) : WireProtocol → List UInt8 → Prop
  | .sbe => Encoding (Sbe.encodeTradeSbe trade)
  | .json => Encoding (serializeTradeJson trade)

/-- An event whose payloads are its encodings, and small enough for every buffer. -/
structure Broadcasts (out : Outbound) (IsEncoding : WireProtocol → List UInt8 → Prop) : Prop where
  whole : out.Whole
  payload : ∀ p, IsEncoding p (out.payload p)
  fit : FramesFit out.payload

/-- An event with an encoding for either protocol that its buffers have room for. -/
lemma Broadcasts.of_encodings {ε ε' : Type} {encodeSbe : List UInt8 → Except ε ℕ × List UInt8}
    {encodeJson : List UInt8 → Except ε' ℕ × List UInt8} {sbe json : List UInt8}
    (hsbe : Encoding encodeSbe sbe) (hjson : Encoding encodeJson json) {sbeCapacity : ℕ}
    (hsbeLen : sbe.length ≤ sbeCapacity) (hcapacity : sbeCapacity ≤ 246)
    (hjsonLen : json.length ≤ 512) {IsEncoding : WireProtocol → List UInt8 → Prop}
    (hIsSbe : IsEncoding .sbe sbe) (hIsJson : IsEncoding .json json)
    (accepts : ClientFilterPredicate → Bool) :
    Broadcasts
      { accepts := accepts, sbeCapacity := sbeCapacity
        encodeSbe := fun buf => (encodeSbe buf).map Except.toOption id
        encodeJson := fun buf => (encodeJson buf).map Except.toOption id } IsEncoding := by
  have hsbeEq := (hsbe.fresh hsbeLen).2
  have hjsonEq := (hjson.fresh hjsonLen).2
  refine ⟨.of_encodings hsbe hjson hsbeLen hjsonLen accepts, ?_, ?_⟩
  · intro p
    unfold Outbound.payload
    rw [hsbeEq, hjsonEq]
    cases p with
    | sbe => exact hIsSbe
    | json => exact hIsJson
  · have hbinary := length_wsFrame_le .binary sbe
    have htext := length_wsFrame_le .text json
    unfold FramesFit Outbound.payload
    rw [hsbeEq, hjsonEq]
    dsimp only
    omega

lemma broadcasts_bbo (bbo : NormalizedBbo) : Broadcasts (bboOutbound bbo) (IsBboEncoding bbo) := by
  have hsbe := encoding_bboSbe bbo
  have hjson := encoding_of_serializes (serializes_bboJson bbo)
  apply Broadcasts.of_encodings hsbe hjson _ (by decide) _ hsbe hjson
  · exact (Sbe.length_pack_bboFields bbo).le
  · exact (length_bboText_le bbo).trans (by decide)

lemma broadcasts_trade (trade : UnifiedTrade) (matchesTrade : ClientFilterPredicate → Bool) :
    Broadcasts (tradeOutbound trade matchesTrade) (IsTradeEncoding trade) := by
  have hsbe := encoding_tradeSbe trade
  have hjson := encoding_of_serializes (serializes_tradeJson trade)
  apply Broadcasts.of_encodings hsbe hjson _ (by decide) _ hsbe hjson
  · exact (Sbe.length_pack_tradeFields trade).le
  · exact (length_tradeText_le trade).trans (by decide)

/-! ## The deliveries of a broadcast -/

/-- The frames a broadcast of an event sends are the deliveries it counts: one to each
candidate with an active session that passes its filter and obtains a token, which reads as
an encoding of the event in the client's protocol. -/
structure Delivers (r : InvertedTopicRouter) (nowMs : UInt64) (out : Outbound)
    (Candidate : UInt32 → Prop) (IsEncoding : WireProtocol → List UInt8 → Prop)
    (metrics : DispatchMetrics) (sent : List (UInt32 × List UInt8)) : Prop where
  counted : sent.length = metrics.deliveredClients
  once : (sent.map Prod.fst).Pairwise (· < ·)
  clients : ∀ c, c ∈ sent.map Prod.fst ↔
    Candidate c ∧ ∃ session, r.clients.lookup c = some session ∧ session.isActive = true ∧
      Obtains out nowMs session
  frames : ∀ c frame, (c, frame) ∈ sent →
    ∃ session payload, r.clients.lookup c = some session ∧
      ReadsAs frame (opcodeOf session.protocol) payload ∧ IsEncoding session.protocol payload

/-- The frame that carries a call of the sink. -/
def frameOf (call : SinkCall) : UInt32 × List UInt8 :=
  (call.clientId, wsFrame (opcodeOf call.protocol) call.payload)

lemma length_lt_of_framesFit {payloads : WireProtocol → List UInt8} (h : FramesFit payloads)
    (p : WireProtocol) : (payloads p).length < 2 ^ 64 := by
  have hsbe := length_wsFrame .binary (payloads .sbe)
  have hjson := length_wsFrame .text (payloads .json)
  obtain ⟨hbinary, htext⟩ := h
  cases p with
  | sbe => omega
  | json => omega

/-- The frames of a broadcast carry the calls of its dispatch. -/
lemma sent_dispatch (r : InvertedTopicRouter) (nowMs : UInt64) {out : Outbound}
    {IsEncoding : WireProtocol → List UInt8 → Prop} (hout : Broadcasts out IsEncoding)
    (candidates : ClientBitmap) :
    ((r.dispatch out candidates nowMs).2.2.foldl broadcastSink {}).sent
      = (r.dispatch out candidates nowMs).2.2.map frameOf := by
  refine sent_foldl_broadcastSink hout.fit ?_ {} ⟨.inl rfl, .inl rfl⟩
  intro call hcall
  obtain ⟨-, session, -, -, -, heq⟩ := (mem_calls_dispatch hout.whole).mp hcall
  rw [heq]

/-- A broadcast sends a frame to the clients that its dispatch calls the sink for. -/
lemma mem_broadcastBbo (r : InvertedTopicRouter) (bbo : NormalizedBbo) (nowMs : UInt64)
    (c : UInt32) :
    (∃ frame, (c, frame) ∈ (broadcastBbo r bbo nowMs).2.2) ↔
      ∃ p payload, ⟨c, p, payload⟩ ∈ (r.dispatchBbo bbo nowMs).2.2 := by
  have hsent : (broadcastBbo r bbo nowMs).2.2 = (r.dispatchBbo bbo nowMs).2.2.map frameOf :=
    sent_dispatch r nowMs (broadcasts_bbo bbo) (r.bboCandidates bbo)
  simp only [hsent, List.mem_map]
  constructor
  · rintro ⟨frame, call, hcall, heq⟩
    cases heq
    exact ⟨call.protocol, call.payload, hcall⟩
  · rintro ⟨p, payload, hcall⟩
    exact ⟨_, ⟨c, p, payload⟩, hcall, rfl⟩

lemma delivers_dispatch (r : InvertedTopicRouter) (nowMs : UInt64) {out : Outbound}
    {IsEncoding : WireProtocol → List UInt8 → Prop} (hout : Broadcasts out IsEncoding)
    (candidates : ClientBitmap) {Candidate : UInt32 → Prop}
    (hcandidate : ∀ c, c ∈ candidates.ids ↔ Candidate c) :
    Delivers r nowMs out Candidate IsEncoding (r.dispatch out candidates nowMs).2.1
      ((r.dispatch out candidates nowMs).2.2.foldl broadcastSink {}).sent := by
  have hids : ((r.dispatch out candidates nowMs).2.2.map frameOf).map Prod.fst
      = (r.dispatch out candidates nowMs).2.2.map (·.clientId) := by
    rw [List.map_map]
    rfl
  rw [sent_dispatch r nowMs hout]
  refine ⟨?_, ?_, ?_, ?_⟩
  · rw [List.length_map]
    exact (accounts_dispatch r hout.whole candidates nowMs).delivered.symm
  · rw [hids]
    exact clientIds_dispatch r hout.whole candidates nowMs
  · intro c
    rw [hids, List.mem_map, ← hcandidate]
    constructor
    · rintro ⟨call, hcall, rfl⟩
      obtain ⟨hc, session, hlookup, hactive, hobtains, -⟩ :=
        (mem_calls_dispatch hout.whole).mp hcall
      exact ⟨hc, session, hlookup, hactive, hobtains⟩
    · rintro ⟨hc, session, hlookup, hactive, hobtains⟩
      refine ⟨⟨c, session.protocol, out.payload session.protocol⟩, ?_, rfl⟩
      exact (mem_calls_dispatch hout.whole).mpr ⟨hc, session, hlookup, hactive, hobtains, rfl⟩
  · intro c frame hframe
    obtain ⟨call, hcall, heq⟩ := List.mem_map.mp hframe
    obtain ⟨-, session, hlookup, -, -, hcallEq⟩ := (mem_calls_dispatch hout.whole).mp hcall
    rw [hcallEq] at heq
    cases heq
    exact ⟨session, out.payload session.protocol, hlookup,
      readsAs_wsFrame _ (length_lt_of_framesFit hout.fit _), hout.payload _⟩

/-- Every delivery a broadcast counts reaches its client as one frame with the encoding of
the event, from any state of the router and for any event. -/
theorem broadcast_delivers (r : InvertedTopicRouter) (bbo : NormalizedBbo) (trade : UnifiedTrade)
    (matchesTrade : ClientFilterPredicate → Bool) (nowMs : UInt64) :
    Delivers r nowMs (bboOutbound bbo)
        (fun c => r.Indexed (exactTopic bbo) c ∨ r.Indexed (defaultTopic bbo) c)
        (IsBboEncoding bbo) (broadcastBbo r bbo nowMs).2.1 (broadcastBbo r bbo nowMs).2.2 ∧
      Delivers r nowMs (tradeOutbound trade matchesTrade) (r.Indexed (tradeTopic trade))
        (IsTradeEncoding trade) (broadcastTrade r trade matchesTrade nowMs).2.1
        (broadcastTrade r trade matchesTrade nowMs).2.2 := by
  constructor
  · exact delivers_dispatch r nowMs (broadcasts_bbo bbo) (r.bboCandidates bbo)
      (mem_bboCandidates r bbo)
  · exact delivers_dispatch r nowMs (broadcasts_trade trade matchesTrade) (r.tradeCandidates trade)
      (ClientBitmap.mem_ids _)

end WebSocket
end ChainMarketPrice.Distribution
