import ChainMarketPrice.Distribution.ClientBitmapTheorems
import ChainMarketPrice.Distribution.FastJsonText
import ChainMarketPrice.Distribution.Router
import ChainMarketPrice.Distribution.SbeTheorems

/-!
# One dispatch

What a dispatch makes of a session (`serve`) and hands to the sink for it (`callFor`) depends on
that session alone: the wire buffers are filled by the first client of a protocol and hold the
same payload for the rest (`LazyBuffer.Holds`). So a dispatch over distinct candidates serves
each on its own, and its metrics are sums over the candidates (`Settles`, `accounts_dispatch`).
-/

namespace ChainMarketPrice.Distribution
namespace InvertedTopicRouter

open FiniteMap FastJson

/-! ## Payloads -/

/-- What an encoder leaves in a buffer of the given capacity. -/
def encoded (encode : List UInt8 → Option ℕ × List UInt8) (capacity : ℕ) : List UInt8 :=
  let result := encode (List.replicate capacity 0)
  result.2.take (result.1.getD 0)

/-- The payload of an event for either protocol. -/
def Outbound.payload (out : Outbound) : WireProtocol → List UInt8
  | .sbe => encoded out.encodeSbe out.sbeCapacity
  | .json => encoded out.encodeJson 512

/-- Both encoders fill their buffer with the whole payload. -/
structure Outbound.Whole (out : Outbound) : Prop where
  sbe : (out.encodeSbe (List.replicate out.sbeCapacity 0)).1 = some (out.payload .sbe).length
  json : (out.encodeJson (List.replicate 512 0)).1 = some (out.payload .json).length

/-- The bytes an encoder writes of an event, into any buffer with room for them. -/
def Encoding {ε : Type} (encode : List UInt8 → Except ε ℕ × List UInt8) (payload : List UInt8) :
    Prop :=
  ∀ out, payload.length ≤ out.length →
    (encode out).1 = .ok payload.length ∧ (encode out).2.take payload.length = payload

/-- A fresh buffer with room for it gets the encoding. -/
lemma Encoding.fresh {ε : Type} {encode : List UInt8 → Except ε ℕ × List UInt8}
    {payload : List UInt8} (h : Encoding encode payload) {capacity : ℕ}
    (hroom : payload.length ≤ capacity) :
    ((encode (List.replicate capacity 0)).map Except.toOption id).1 = some payload.length ∧
      encoded (fun buf => (encode buf).map Except.toOption id) capacity = payload := by
  have hout : payload.length ≤ (List.replicate capacity (0 : UInt8)).length := by
    rw [List.length_replicate]
    exact hroom
  obtain ⟨hlen, htake⟩ := h _ hout
  unfold encoded
  simp only [Prod.map_fst, Prod.map_snd, hlen]
  exact ⟨rfl, htake⟩

lemma encoding_bboSbe (bbo : NormalizedBbo) :
    Encoding (Sbe.encodeBboSbe bbo) (Bytes.pack (Sbe.bboFields bbo)) := by
  intro out hroom
  have hlen := Sbe.length_pack_bboFields bbo
  rw [hlen] at hroom
  rw [Sbe.encodeBboSbe_eq hroom, List.take_left, hlen]
  exact ⟨rfl, rfl⟩

lemma encoding_tradeSbe (trade : UnifiedTrade) :
    Encoding (Sbe.encodeTradeSbe trade) (Bytes.pack (Sbe.tradeFields trade)) := by
  intro out hroom
  have hlen := Sbe.length_pack_tradeFields trade
  rw [hlen] at hroom
  rw [Sbe.encodeTradeSbe_eq hroom, List.take_left, hlen]
  exact ⟨rfl, rfl⟩

lemma encoding_of_serializes {serialize : List UInt8 → Except JsonError ℕ × List UInt8}
    {text : List UInt8} (h : Serializes serialize text) : Encoding serialize text :=
  fun out hroom => (h out).1 hroom

/-- An event with an encoding for either protocol that its buffers have room for. -/
lemma Outbound.Whole.of_encodings {ε ε' : Type}
    {encodeSbe : List UInt8 → Except ε ℕ × List UInt8}
    {encodeJson : List UInt8 → Except ε' ℕ × List UInt8} {sbe json : List UInt8}
    (hsbe : Encoding encodeSbe sbe) (hjson : Encoding encodeJson json) {sbeCapacity : ℕ}
    (hsbeLen : sbe.length ≤ sbeCapacity) (hjsonLen : json.length ≤ 512)
    (accepts : ClientFilterPredicate → Bool) :
    Outbound.Whole
      { accepts := accepts, sbeCapacity := sbeCapacity
        encodeSbe := fun buf => (encodeSbe buf).map Except.toOption id
        encodeJson := fun buf => (encodeJson buf).map Except.toOption id } := by
  obtain ⟨hsbeLength, hsbeEq⟩ := hsbe.fresh hsbeLen
  obtain ⟨hjsonLength, hjsonEq⟩ := hjson.fresh hjsonLen
  constructor
  · rw [Outbound.payload, hsbeEq]
    exact hsbeLength
  · rw [Outbound.payload, hjsonEq]
    exact hjsonLength

/-- The router's buffers are large enough. -/
lemma whole_bbo (bbo : NormalizedBbo) : (bboOutbound bbo).Whole := by
  have hjson := encoding_of_serializes (serializes_bboJson bbo)
  apply Outbound.Whole.of_encodings (encoding_bboSbe bbo) hjson
  · exact (Sbe.length_pack_bboFields bbo).le
  · exact (length_bboText_le bbo).trans (by decide)

lemma whole_trade (trade : UnifiedTrade) (matchesTrade : ClientFilterPredicate → Bool) :
    (tradeOutbound trade matchesTrade).Whole := by
  have hjson := encoding_of_serializes (serializes_tradeJson trade)
  apply Outbound.Whole.of_encodings (encoding_tradeSbe trade) hjson
  · exact (Sbe.length_pack_tradeFields trade).le
  · exact (length_tradeText_le trade).trans (by decide)

/-! ## Wire buffers -/

/-- A wire buffer is fresh, or it holds the payload with its length. -/
def LazyBuffer.Holds (b : LazyBuffer) (capacity : ℕ) (payload : List UInt8) : Prop :=
  b = { buf := List.replicate capacity 0 } ∨
    b.encoded = true ∧ b.buf.take b.len = payload ∧ b.len = payload.length

lemma LazyBuffer.Holds.fill {b : LazyBuffer} {encode : List UInt8 → Option ℕ × List UInt8}
    {capacity : ℕ} (h : b.Holds capacity (InvertedTopicRouter.encoded encode capacity))
    (hwhole : (encode (List.replicate capacity 0)).1
      = some (InvertedTopicRouter.encoded encode capacity).length) :
    (b.fill encode).encoded = true ∧
      (b.fill encode).buf.take (b.fill encode).len = InvertedTopicRouter.encoded encode capacity ∧
      (b.fill encode).len = (InvertedTopicRouter.encoded encode capacity).length := by
  rcases h with rfl | h
  · rcases hres : encode (List.replicate capacity 0) with ⟨res, buf⟩
    rw [hres] at hwhole
    dsimp only at hwhole
    subst hwhole
    have htake : buf.take (InvertedTopicRouter.encoded encode capacity).length
        = InvertedTopicRouter.encoded encode capacity := by
      conv_rhs => rw [InvertedTopicRouter.encoded, hres]
      rfl
    simp only [LazyBuffer.fill, Bool.false_eq_true, if_false, hres]
    exact ⟨trivial, htake, trivial⟩
  · rw [LazyBuffer.fill, if_pos h.1]
    exact h

/-- The buffers of a dispatch in progress. -/
def BuffersHold (out : Outbound) (st : DispatchState) : Prop :=
  st.sbe.Holds out.sbeCapacity (out.payload .sbe) ∧ st.json.Holds 512 (out.payload .json)

/-! ## One session -/

/-- The client passes the event's filter and its bucket grants a token. -/
def Obtains (out : Outbound) (nowMs : UInt64) (session : ClientSession) : Prop :=
  out.accepts session.filter = true ∧ (session.tryConsumeToken 1 nowMs).1 = true

instance decidableObtains (out : Outbound) (nowMs : UInt64) (session : ClientSession) :
    Decidable (Obtains out nowMs session) :=
  inferInstanceAs (Decidable (_ ∧ _))

/-- The token is that of the bucket. -/
lemma obtains_iff (out : Outbound) (nowMs : UInt64) (session : ClientSession) :
    Obtains out nowMs session ↔
      out.accepts session.filter = true ∧ (session.rateLimiter.tryConsume 1 nowMs).1 = true := by
  rw [Obtains]
  apply and_congr_right
  intro _
  simp [ClientSession.tryConsumeToken, apply_ite Prod.fst]

/-- The session passes the event's filter, and its bucket refuses the token. -/
def Denied (out : Outbound) (nowMs : UInt64) (session : ClientSession) : Prop :=
  session.isActive = true ∧ out.accepts session.filter = true ∧
    (session.tryConsumeToken 1 nowMs).1 = false

instance decidableDenied (out : Outbound) (nowMs : UInt64) (session : ClientSession) :
    Decidable (Denied out nowMs session) :=
  inferInstanceAs (Decidable (_ ∧ _))

/-- What a dispatch makes of the session of a candidate. -/
def serve (out : Outbound) (nowMs : UInt64) (session : ClientSession) : ClientSession :=
  if !session.isActive || !out.accepts session.filter then session
  else
    let (allowed, after) := session.tryConsumeToken 1 nowMs
    if allowed then after.recordDelivery (out.payload session.protocol).length else after

/-- The parts of a session that a dispatch leaves alone. -/
def SameClient (s s' : ClientSession) : Prop :=
  s'.id = s.id ∧ s'.protocol = s.protocol ∧ s'.state = s.state ∧ s'.filter = s.filter

lemma sameClient_tryConsumeToken (s : ClientSession) (tokens : UInt32) (nowMs : UInt64) :
    SameClient s (s.tryConsumeToken tokens nowMs).2 := by
  unfold ClientSession.tryConsumeToken
  dsimp only
  split <;> exact ⟨rfl, rfl, rfl, rfl⟩

lemma sameClient_serve (out : Outbound) (nowMs : UInt64) (session : ClientSession) :
    SameClient session (serve out nowMs session) := by
  have hsame := sameClient_tryConsumeToken session 1 nowMs
  unfold serve
  split
  · exact ⟨rfl, rfl, rfl, rfl⟩
  · dsimp only
    split
    · exact hsame
    · exact hsame

/-! ## One candidate -/

variable {out : Outbound} {nowMs : UInt64} {clients clients' : Map UInt32 ClientSession}
  {st st' st'' : DispatchState} {c : UInt32} {ids : List UInt32}

/-- The call of the sink a candidate gets, if any. -/
def callFor (out : Outbound) (nowMs : UInt64) (clients : Map UInt32 ClientSession)
    (c : UInt32) : Option SinkCall :=
  match clients.lookup c with
  | some session =>
    if session.isActive = true ∧ Obtains out nowMs session then
      some ⟨c, session.protocol, out.payload session.protocol⟩
    else none
  | none => none

lemma callFor_eq_some_iff {call : SinkCall} :
    callFor out nowMs clients c = some call ↔
      ∃ session, clients.lookup c = some session ∧ session.isActive = true ∧
        Obtains out nowMs session ∧ call = ⟨c, session.protocol, out.payload session.protocol⟩ := by
  unfold callFor
  cases hlookup : clients.lookup c with
  | none => simp
  | some session =>
    simp only [Option.ite_none_right_eq_some, Option.some.injEq]
    constructor
    · rintro ⟨⟨hactive, hobtains⟩, rfl⟩
      exact ⟨session, rfl, hactive, hobtains, rfl⟩
    · rintro ⟨session', rfl, hactive, hobtains, rfl⟩
      exact ⟨⟨hactive, hobtains⟩, rfl⟩

/-- A call goes to the candidate it was made for. -/
lemma clientId_callFor {call : SinkCall} (h : callFor out nowMs clients c = some call) :
    call.clientId = c := by
  obtain ⟨-, -, -, -, rfl⟩ := callFor_eq_some_iff.mp h
  rfl

/-- Whether the candidate has an active session. -/
def hasActive (clients : Map UInt32 ClientSession) (c : UInt32) : Bool :=
  (clients.lookup c).any (·.isActive)

/-- Whether the candidate has a session whose bucket refuses the token. -/
def refuses (out : Outbound) (nowMs : UInt64) (clients : Map UInt32 ClientSession) (c : UInt32) :
    Bool :=
  match clients.lookup c with
  | some session => decide (Denied out nowMs session)
  | none => false

/-- What is said of candidates depends on their sessions alone. -/
lemma callFor_congr (h : clients'.lookup c = clients.lookup c) :
    callFor out nowMs clients' c = callFor out nowMs clients c := by
  unfold callFor
  rw [h]

lemma hasActive_congr (h : clients'.lookup c = clients.lookup c) :
    hasActive clients' c = hasActive clients c := by
  unfold hasActive
  rw [h]

lemma refuses_congr (h : clients'.lookup c = clients.lookup c) :
    refuses out nowMs clients' c = refuses out nowMs clients c := by
  unfold refuses
  rw [h]

/-- The clients a dispatch counts as done with: delivered, filtered or rate-limited. -/
def DispatchMetrics.settled (m : DispatchMetrics) : ℕ :=
  m.deliveredClients + m.filteredClients + m.rateLimitedClients

/-- The bytes a dispatch counts. -/
def DispatchMetrics.bytes (m : DispatchMetrics) : ℕ := m.sbeBytesDispatched + m.jsonBytesDispatched

/-- The bytes of a list of sink calls. -/
def payloadBytes (calls : List SinkCall) : ℕ := (calls.map (·.payload.length)).sum

lemma payloadBytes_append (calls calls' : List SinkCall) :
    payloadBytes (calls ++ calls') = payloadBytes calls + payloadBytes calls' := by
  rw [payloadBytes, payloadBytes, payloadBytes, List.map_append, List.sum_append]

/-- What candidates do to a dispatch, in full. -/
structure Settles (out : Outbound) (nowMs : UInt64) (st st' : DispatchState) (ids : List UInt32) :
    Prop where
  buffers : BuffersHold out st'
  sent : st'.sent = st.sent ++ ids.filterMap (callFor out nowMs st.clients)
  clients : ∀ c, st'.clients.lookup c
    = if c ∈ ids then (st.clients.lookup c).map (serve out nowMs) else st.clients.lookup c
  matched : st'.metrics.matchedClients = st.metrics.matchedClients + ids.length
  delivered : st'.metrics.deliveredClients
    = st.metrics.deliveredClients + (ids.filterMap (callFor out nowMs st.clients)).length
  settled : DispatchMetrics.settled st'.metrics
    = DispatchMetrics.settled st.metrics + ids.countP (hasActive st.clients)
  bytes : DispatchMetrics.bytes st'.metrics
    = DispatchMetrics.bytes st.metrics + payloadBytes (ids.filterMap (callFor out nowMs st.clients))
  denied : st'.metrics.rateLimitedClients
    = st.metrics.rateLimitedClients + ids.countP (refuses out nowMs st.clients)

/-- A candidate whose session stays as it is. -/
lemma lookup_kept {f : ClientSession → ClientSession}
    (h : (clients.lookup c).map f = clients.lookup c) (c' : UInt32) :
    clients.lookup c' = if c' ∈ [c] then (clients.lookup c').map f else clients.lookup c' := by
  split
  · rename_i hmem
    rw [List.mem_singleton.mp hmem, h]
  · rfl

/-- A candidate whose session is written back. -/
lemma lookup_written {session : ClientSession} {f : ClientSession → ClientSession}
    (hlookup : clients.lookup c = some session) (c' : UInt32) :
    (clients.insert c (f session)).lookup c'
      = if c' ∈ [c] then (clients.lookup c').map f else clients.lookup c' := by
  rw [lookup_insert_eq]
  simp only [List.mem_singleton]
  split
  · rename_i heq
    rw [heq, hlookup, Option.map_some]
  · rfl

/-- A candidate without an active session is only counted as matched. -/
lemma settles_passed (hbuf : BuffersHold out st) (hactive : hasActive st.clients c = false) :
    Settles out nowMs st
      { st with metrics := { st.metrics with matchedClients := st.metrics.matchedClients + 1 } }
      [c] := by
  have hnone : ∀ session, st.clients.lookup c = some session → session.isActive = false := by
    intro session hlookup
    simpa [hasActive, hlookup] using hactive
  have hcall : callFor out nowMs st.clients c = none := by
    unfold callFor
    split
    · rename_i session hlookup
      rw [if_neg (by simp [hnone session hlookup])]
    · rfl
  have hno : refuses out nowMs st.clients c = false := by
    unfold refuses
    split
    · rename_i session hlookup
      simp [Denied, hnone session hlookup]
    · rfl
  have hserve : (st.clients.lookup c).map (serve out nowMs) = st.clients.lookup c := by
    cases hlookup : st.clients.lookup c with
    | none => rfl
    | some session => simp [serve, hnone session hlookup]
  exact
    { buffers := hbuf
      sent := by simp [hcall]
      clients := lookup_kept hserve
      matched := rfl
      delivered := by simp [hcall]
      settled := by simp [DispatchMetrics.settled, hactive]
      bytes := by simp [DispatchMetrics.bytes, payloadBytes, hcall]
      denied := by simp [hno] }

/-- An active candidate that passes the filter and obtains a token: the branch of its protocol. -/
lemma settles_served (hout : out.Whole) (hbuf : BuffersHold out st) {session : ClientSession}
    (hlookup : st.clients.lookup c = some session) (hactive : session.isActive = true)
    (hobtains : Obtains out nowMs session) :
    Settles out nowMs st (dispatchClient out nowMs st c) [c] := by
  obtain ⟨hacc, htok⟩ := hobtains
  have hcall : callFor out nowMs st.clients c
      = some ⟨c, session.protocol, out.payload session.protocol⟩ :=
    callFor_eq_some_iff.mpr ⟨session, hlookup, hactive, ⟨hacc, htok⟩, rfl⟩
  have hone : hasActive st.clients c = true := by simp [hasActive, hlookup, hactive]
  have hno : refuses out nowMs st.clients c = false := by simp [refuses, hlookup, Denied, htok]
  have hserve : serve out nowMs session = (session.tryConsumeToken 1 nowMs).2.recordDelivery
      (out.payload session.protocol).length := by
    simp [serve, hactive, hacc, htok]
  have hwritten := lookup_written (f := serve out nowMs) hlookup
  have hprotocol : (session.tryConsumeToken 1 nowMs).2.protocol = session.protocol :=
    (sameClient_tryConsumeToken session 1 nowMs).2.1
  unfold dispatchClient
  simp only [hlookup, hactive, hacc, htok, Bool.not_true, Bool.false_eq_true, if_false, hprotocol]
  -- either buffer is filled by the first client of its protocol and shared by the rest
  cases hp : session.protocol with
  | sbe =>
    obtain ⟨hencoded, htake, hlen⟩ := hbuf.1.fill hout.sbe
    have hpayload := htake
    rw [hlen] at hpayload
    rw [hserve, hp] at hwritten
    rw [hp] at hcall
    simp only [hencoded, if_true, hlen, hpayload]
    exact
      { buffers := ⟨.inr ⟨hencoded, htake, hlen⟩, hbuf.2⟩
        sent := by simp [hcall, Outbound.payload]
        clients := hwritten
        matched := rfl
        delivered := by simp [hcall]
        settled := by simp [DispatchMetrics.settled, hone]; omega
        bytes := by simp [DispatchMetrics.bytes, payloadBytes, hcall, Outbound.payload]; omega
        denied := by simp [hno] }
  | json =>
    obtain ⟨hencoded, htake, hlen⟩ := hbuf.2.fill hout.json
    have hpayload := htake
    rw [hlen] at hpayload
    rw [hserve, hp] at hwritten
    rw [hp] at hcall
    simp only [hencoded, if_true, hlen, hpayload]
    exact
      { buffers := ⟨hbuf.1, .inr ⟨hencoded, htake, hlen⟩⟩
        sent := by simp [hcall, Outbound.payload]
        clients := hwritten
        matched := rfl
        delivered := by simp [hcall]
        settled := by simp [DispatchMetrics.settled, hone]; omega
        bytes := by simp [DispatchMetrics.bytes, payloadBytes, hcall, Outbound.payload]; omega
        denied := by simp [hno] }

lemma settles_one (hout : out.Whole) (nowMs : UInt64) (hbuf : BuffersHold out st) (c : UInt32) :
    Settles out nowMs st (dispatchClient out nowMs st c) [c] := by
  cases hlookup : st.clients.lookup c with
  | none =>
    unfold dispatchClient
    rw [hlookup]
    exact settles_passed hbuf (by simp [hasActive, hlookup])
  | some session =>
    by_cases hactive : session.isActive = true
    · have hone : hasActive st.clients c = true := by simp [hasActive, hlookup, hactive]
      by_cases hacc : out.accepts session.filter = true
      · by_cases htok : (session.tryConsumeToken 1 nowMs).1 = true
        · exact settles_served hout hbuf hlookup hactive ⟨hacc, htok⟩
        -- the bucket refuses: its session is written back and the refusal counted
        · have hrefused : (session.tryConsumeToken 1 nowMs).1 = false := by simpa using htok
          have hcall : callFor out nowMs st.clients c = none := by
            simp [callFor, hlookup, Obtains, hrefused]
          have hdenied : refuses out nowMs st.clients c = true := by
            simp [refuses, hlookup, Denied, hactive, hacc, hrefused]
          have hserve : serve out nowMs session = (session.tryConsumeToken 1 nowMs).2 := by
            simp [serve, hactive, hacc, hrefused]
          have hwritten := lookup_written (f := serve out nowMs) hlookup
          rw [hserve] at hwritten
          unfold dispatchClient
          simp only [hlookup, hactive, hacc, hrefused, Bool.not_true, Bool.not_false,
            Bool.false_eq_true, if_false, if_true]
          exact
            { buffers := hbuf
              sent := by simp [hcall]
              clients := hwritten
              matched := rfl
              delivered := by simp [hcall]
              settled := by simp [DispatchMetrics.settled, hone]; omega
              bytes := by simp [DispatchMetrics.bytes, payloadBytes, hcall]
              denied := by simp [hdenied] }
      -- the filter rejects the event
      · have hacc' : out.accepts session.filter = false := by simpa using hacc
        have hcall : callFor out nowMs st.clients c = none := by
          simp [callFor, hlookup, Obtains, hacc']
        have hno : refuses out nowMs st.clients c = false := by
          simp [refuses, hlookup, Denied, hacc']
        have hserve : (st.clients.lookup c).map (serve out nowMs) = st.clients.lookup c := by
          simp [hlookup, serve, hacc']
        unfold dispatchClient
        simp only [hlookup, hactive, hacc', Bool.not_true, Bool.not_false, Bool.false_eq_true,
          if_false, if_true]
        exact
          { buffers := hbuf
            sent := by simp [hcall]
            clients := lookup_kept hserve
            matched := rfl
            delivered := by simp [hcall]
            settled := by simp [DispatchMetrics.settled, hone]; omega
            bytes := by simp [DispatchMetrics.bytes, payloadBytes, hcall]
            denied := by simp [hno] }
    -- an inactive session is passed over
    · have hactive' : session.isActive = false := by simpa using hactive
      unfold dispatchClient
      simp only [hlookup, hactive', Bool.not_false, if_true]
      exact settles_passed hbuf (by simp [hasActive, hlookup, hactive'])

/-! ## All candidates -/

/-- A candidate and then others: the sessions of these are untouched by the first. -/
lemma Settles.cons (h : Settles out nowMs st st' [c]) (h' : Settles out nowMs st' st'' ids)
    (hc : c ∉ ids) : Settles out nowMs st st'' (c :: ids) := by
  have hlater : ∀ c' ∈ ids, st'.clients.lookup c' = st.clients.lookup c' := by
    intro c' hc'
    rw [h.clients, if_neg]
    rw [List.mem_singleton]
    rintro rfl
    exact hc hc'
  have hcalls : ids.filterMap (callFor out nowMs st'.clients)
      = ids.filterMap (callFor out nowMs st.clients) :=
    List.filterMap_congr fun c' hc' => callFor_congr (hlater c' hc')
  have hactives : ids.countP (hasActive st'.clients) = ids.countP (hasActive st.clients) :=
    List.countP_congr fun c' hc' => by rw [hasActive_congr (hlater c' hc')]
  have hrefuses : ids.countP (refuses out nowMs st'.clients)
      = ids.countP (refuses out nowMs st.clients) :=
    List.countP_congr fun c' hc' => by rw [refuses_congr (hlater c' hc')]
  have hcons : (c :: ids).filterMap (callFor out nowMs st.clients)
      = [c].filterMap (callFor out nowMs st.clients)
        ++ ids.filterMap (callFor out nowMs st.clients) := by
    rw [← List.filterMap_append]
    rfl
  have hcount (p : UInt32 → Bool) : (c :: ids).countP p = [c].countP p + ids.countP p := by
    rw [← List.countP_append]
    rfl
  exact
    { buffers := h'.buffers
      sent := by rw [h'.sent, hcalls, h.sent, hcons, List.append_assoc]
      clients := by
        intro c'
        rw [h'.clients]
        by_cases hmem : c' ∈ ids
        · rw [if_pos hmem, if_pos (List.mem_cons_of_mem _ hmem), hlater c' hmem]
        · rw [if_neg hmem, h.clients]
          simp only [List.mem_cons, hmem, List.not_mem_nil, or_false]
      matched := by rw [h'.matched, h.matched, List.length_singleton, List.length_cons]; omega
      delivered := by rw [h'.delivered, hcalls, h.delivered, hcons, List.length_append]; omega
      settled := by rw [h'.settled, hactives, h.settled, hcount, Nat.add_assoc]
      bytes := by rw [h'.bytes, hcalls, h.bytes, hcons, payloadBytes_append, Nat.add_assoc]
      denied := by rw [h'.denied, hrefuses, h.denied, hcount, Nat.add_assoc] }

/-- Distinct candidates, one after the other. -/
lemma settles_foldl (hout : out.Whole) (nowMs : UInt64) (hnodup : ids.Nodup)
    (st : DispatchState) (hbuf : BuffersHold out st) :
    Settles out nowMs st (ids.foldl (dispatchClient out nowMs) st) ids := by
  induction ids generalizing st with
  | nil =>
    exact
      { buffers := hbuf
        sent := (List.append_nil _).symm
        clients := fun c => by rw [if_neg List.not_mem_nil]; rfl
        matched := rfl
        delivered := rfl
        settled := rfl
        bytes := rfl
        denied := rfl }
  | cons c ids ih =>
    obtain ⟨hc, hnodup'⟩ := List.nodup_cons.mp hnodup
    have hstep := settles_one hout nowMs hbuf c
    exact hstep.cons (ih hnodup' _ hstep.buffers) hc

/-! ## A whole dispatch -/

/-- The state a dispatch starts from. -/
def startState (r : InvertedTopicRouter) (out : Outbound) : DispatchState where
  metrics := {}
  clients := r.clients
  sbe := { buf := List.replicate out.sbeCapacity 0 }
  json := { buf := List.replicate 512 0 }
  sent := []

/-- A dispatch without candidates is no special case. -/
lemma dispatch_eq (r : InvertedTopicRouter) (out : Outbound) (candidates : ClientBitmap)
    (nowMs : UInt64) :
    r.dispatch out candidates nowMs
      = let st := candidates.ids.foldl (dispatchClient out nowMs) (startState r out)
        ({ r with clients := st.clients }, st.metrics, st.sent) := by
  rw [dispatch]
  split
  · rename_i hempty
    rw [ClientBitmap.ids_eq_nil hempty]
    rfl
  · rw [ClientBitmap.forEach_eq]
    rfl

lemma topics_dispatch (r : InvertedTopicRouter) (out : Outbound) (candidates : ClientBitmap)
    (nowMs : UInt64) : (r.dispatch out candidates nowMs).1.topics = r.topics := by
  rw [dispatch_eq]

/-- What a dispatch leaves: the sessions of its candidates as served, and metrics that count
its candidates, its calls, their bytes and the refusals. -/
structure Accounts (r : InvertedTopicRouter) (out : Outbound) (candidates : ClientBitmap)
    (nowMs : UInt64) : Prop where
  calls : (r.dispatch out candidates nowMs).2.2
    = candidates.ids.filterMap (callFor out nowMs r.clients)
  clients : ∀ c, (r.dispatch out candidates nowMs).1.clients.lookup c
    = if c ∈ candidates.ids then (r.clients.lookup c).map (serve out nowMs)
      else r.clients.lookup c
  matched : (r.dispatch out candidates nowMs).2.1.matchedClients = candidates.ids.length
  delivered : (r.dispatch out candidates nowMs).2.1.deliveredClients
    = (r.dispatch out candidates nowMs).2.2.length
  settled : DispatchMetrics.settled (r.dispatch out candidates nowMs).2.1
    = candidates.ids.countP (hasActive r.clients)
  bytes : DispatchMetrics.bytes (r.dispatch out candidates nowMs).2.1
    = payloadBytes (r.dispatch out candidates nowMs).2.2
  denied : (r.dispatch out candidates nowMs).2.1.rateLimitedClients
    = candidates.ids.countP (refuses out nowMs r.clients)

lemma accounts_dispatch (r : InvertedTopicRouter) (hout : out.Whole) (candidates : ClientBitmap)
    (nowMs : UInt64) : Accounts r out candidates nowMs := by
  have hall := settles_foldl hout nowMs candidates.nodup_ids (startState r out)
    ⟨.inl rfl, .inl rfl⟩
  have hsent : (candidates.ids.foldl (dispatchClient out nowMs) (startState r out)).sent
      = candidates.ids.filterMap (callFor out nowMs r.clients) := hall.sent
  have hdelivered := hall.delivered
  have hbytes := hall.bytes
  rw [show (startState r out).clients = r.clients from rfl, ← hsent] at hdelivered hbytes
  constructor
  all_goals rw [dispatch_eq]
  · exact hsent
  · exact hall.clients
  · exact hall.matched.trans (Nat.zero_add _)
  · exact hdelivered.trans (Nat.zero_add _)
  · exact hall.settled.trans (Nat.zero_add _)
  · exact hbytes.trans (Nat.zero_add _)
  · exact hall.denied.trans (Nat.zero_add _)

/-- Who the sink of a dispatch is called for, with what, whatever the maps hold. -/
lemma mem_calls_dispatch {r : InvertedTopicRouter} (hout : out.Whole) {candidates : ClientBitmap}
    {nowMs : UInt64} {call : SinkCall} :
    call ∈ (r.dispatch out candidates nowMs).2.2 ↔
      call.clientId ∈ candidates.ids ∧
      ∃ session, r.clients.lookup call.clientId = some session ∧ session.isActive = true ∧
        Obtains out nowMs session ∧
        call = ⟨call.clientId, session.protocol, out.payload session.protocol⟩ := by
  rw [(accounts_dispatch r hout candidates nowMs).calls, List.mem_filterMap]
  constructor
  · rintro ⟨c, hc, hcall⟩
    obtain ⟨session, hlookup, hactive, hobtains, rfl⟩ := callFor_eq_some_iff.mp hcall
    exact ⟨hc, session, hlookup, hactive, hobtains, rfl⟩
  · rintro ⟨hc, hsession⟩
    exact ⟨call.clientId, hc, callFor_eq_some_iff.mpr hsession⟩

/-- The calls are made in the increasing order of the ids. -/
lemma clientIds_dispatch (r : InvertedTopicRouter) (hout : out.Whole) (candidates : ClientBitmap)
    (nowMs : UInt64) :
    ((r.dispatch out candidates nowMs).2.2.map (·.clientId)).Pairwise (· < ·) := by
  rw [(accounts_dispatch r hout candidates nowMs).calls, List.pairwise_map,
    List.pairwise_filterMap]
  apply candidates.ids_increasing.imp
  intro c c' hlt call hcall call' hcall'
  rw [clientId_callFor hcall, clientId_callFor hcall']
  exact hlt

/-- The candidates are all registered and active. -/
def AllActive (clients : Map UInt32 ClientSession) (ids : List UInt32) : Prop :=
  ∀ c ∈ ids, ∃ session, clients.lookup c = some session ∧ session.isActive = true

lemma countP_hasActive (h : AllActive clients ids) : ids.countP (hasActive clients) = ids.length := by
  rw [List.countP_eq_length]
  intro c hc
  obtain ⟨session, hlookup, hactive⟩ := h c hc
  simp [hasActive, hlookup, hactive]

/-- A dispatch whose candidates are the clients that want the event, all of them active. -/
lemma dispatch_spec {r : InvertedTopicRouter} (hout : out.Whole) {candidates : ClientBitmap}
    (nowMs : UInt64) (hactive : AllActive r.clients candidates.ids) {Wants : UInt32 → Prop}
    (hwants : ∀ c, c ∈ candidates.ids ↔ Wants c) :
    let metrics := (r.dispatch out candidates nowMs).2.1
    let sent := (r.dispatch out candidates nowMs).2.2
    (sent.map (·.clientId)).Pairwise (· < ·) ∧
    (∀ c p payload, ⟨c, p, payload⟩ ∈ sent ↔
      Wants c ∧ ∃ session, r.clients.lookup c = some session ∧ Obtains out nowMs session ∧
        p = session.protocol ∧ payload = out.payload p) ∧
    metrics.deliveredClients = sent.length ∧
    metrics.matchedClients
      = metrics.deliveredClients + metrics.filteredClients + metrics.rateLimitedClients ∧
    ∃ subscribed : List UInt32, subscribed.Nodup ∧ (∀ c, c ∈ subscribed ↔ Wants c) ∧
      metrics.matchedClients = subscribed.length := by
  have hacc := accounts_dispatch r hout candidates nowMs
  refine ⟨clientIds_dispatch r hout candidates nowMs, ?_, hacc.delivered, ?_, candidates.ids,
    candidates.nodup_ids, hwants, hacc.matched⟩
  · intro c p payload
    rw [mem_calls_dispatch hout]
    dsimp only
    rw [hwants]
    apply and_congr_right
    intro hc
    constructor
    · rintro ⟨session, hlookup, -, hobtains, heq⟩
      cases heq
      exact ⟨session, hlookup, hobtains, rfl, rfl⟩
    · rintro ⟨session, hlookup, hobtains, rfl, rfl⟩
      obtain ⟨session', hlookup', hactive'⟩ := hactive c ((hwants c).mpr hc)
      rw [hlookup] at hlookup'
      cases hlookup'
      exact ⟨session, hlookup, hactive', hobtains, rfl⟩
  · rw [hacc.matched, ← countP_hasActive hactive, ← hacc.settled]
    rfl

end InvertedTopicRouter
end ChainMarketPrice.Distribution
