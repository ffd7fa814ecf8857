import ChainMarketPrice.Lib.Projection
import ChainMarketPrice.Distribution.MixedDispatch
import ChainMarketPrice.Distribution.SubscriptionIsolation

/-!
# Clients are served independently

A server for one client alone needs the session of the client and the topics it has a bit
in (`Account`). For each of its clients the engine does what that server does with the
requests of the client and the broadcasts (`clients_served_alone`): the requests of other
clients, of any kind and in any number, make no difference to a client, as long as none of
them aborts the process.
-/

namespace ChainMarketPrice.Distribution
namespace WebSocket

open FiniteMap InvertedTopicRouter

/-! ## The engine -/

/-- One call on the engine or, to set a filter, on its router. -/
inductive Request
  | connect (clientId : UInt32) (protocol : WireProtocol) (ratePerSec burstCapacity : UInt32)
      (nowMs : UInt64)
  | disconnect (clientId : UInt32)
  | inboundFrame (clientId : UInt32) (frameBytes : List UInt8) (nowMs : UInt64)
  | updateFilter (clientId : UInt32) (filter : ClientFilterPredicate)
  | broadcast (event : Event) (nowMs : UInt64)

/-- What a client gets to see. -/
inductive Reply
  | connected (result : Except WsError UInt32)
  | handled (result : Except FrameError Unit) (responses : List (List UInt8))
  | filterSet (result : Except RouterError Unit)
  | frame (frameBytes : List UInt8)

/-- The router after a broadcast and the frames sent. -/
def broadcast (r : InvertedTopicRouter) (nowMs : UInt64) :
    Event → InvertedTopicRouter × DispatchMetrics × List (UInt32 × List UInt8)
  | .ofBbo bbo => broadcastBbo r bbo nowMs
  | .ofTrade trade matchesTrade => broadcastTrade r trade matchesTrade nowMs

/-- The replies to the clients and the router after a request. There is none after a panic: the
release profile aborts the process. -/
def serveRequest (r : InvertedTopicRouter) :
    Request → List (UInt32 × Reply) × Option InvertedTopicRouter
  | .connect c protocol ratePerSec burstCapacity nowMs =>
    let (result, r) := handleClientConnect r c protocol ratePerSec burstCapacity nowMs
    ([(c, .connected result)], some r)
  | .disconnect c => ([], some (handleClientDisconnect r c))
  | .inboundFrame c frameBytes nowMs =>
    let inbound := handleInboundFrame r c frameBytes nowMs
    if inbound.result = .error .panicked then ([], none)
    else ([(c, .handled inbound.result inbound.responses)], some inbound.router)
  | .updateFilter c filter =>
    let (result, r) := r.updateFilter c filter
    ([(c, .filterSet result)], some r)
  | .broadcast event nowMs =>
    let (r, _, sent) := broadcast r nowMs event
    (sent.map fun (c, frameBytes) => (c, .frame frameBytes), some r)

/-- The requests that concern a client: its own and the broadcasts. -/
def Request.Concerns (c : UInt32) : Request → Prop
  | .connect c' _ _ _ _ | .disconnect c' | .inboundFrame c' _ _ | .updateFilter c' _ => c' = c
  | .broadcast _ _ => True

instance Request.decidableConcerns (c : UInt32) : DecidablePred (Request.Concerns c)
  | .connect c' _ _ _ _ | .disconnect c' | .inboundFrame c' _ _ | .updateFilter c' _ =>
    inferInstanceAs (Decidable (c' = c))
  | .broadcast _ _ => .isTrue trivial

/-- The request does not abort the process. -/
def Request.Harmless : Request → Prop
  | .inboundFrame _ frameBytes _ => readFrame frameBytes ≠ .error .panicked
  | _ => True

/-! ## A server for one client -/

/-- What a server keeps of its only client. -/
structure Account where
  session : Option ClientSession := none
  topics : TopicKey → Bool := fun _ => false

namespace Account

def close (account : Account) : Account :=
  match account.session with
  | some _ => {}
  | none => account

/-- The reply with one frame, if it fits a buffer of the given size. -/
def answer (opcode : WsOpcode) (payload : List UInt8) (capacity : ℕ) : Reply :=
  match encodeWsFrame opcode payload (List.replicate capacity 0) with
  | (.ok len, buf) => .handled (.ok ()) [buf.take len]
  | (.error e, _) => .handled (.error (.error e)) []

/-- A text frame of the client. -/
def text (account : Account) (c : UInt32) (payload : List UInt8) (nowMs : UInt64) :
    Reply × Account :=
  match parseClientCommand payload with
  | some (.subscribe topic) =>
    match account.session with
    | some session =>
      (answer .text (subscribedJson topic) 256,
        { session := some (session.setState .subscribed)
          topics := fun t =>
            account.topics t || decide (t = topic ∧ c.toNat < maxClientCapacity) })
    | none => (.handled (.error (.error (.clientNotFound c))) [], account)
  | some (.unsubscribe topic) =>
    (.handled (.ok ()) [], { account with topics := fun t => account.topics t && decide (t ≠ topic) })
  | some .ping => (answer .text (pongJson nowMs) 128, account)
  | some (.filter _) | some .pong | none => (.handled (.ok ()) [], account)

/-- A frame of the client. -/
def inbound (account : Account) (c : UInt32) (frameBytes : List UInt8) (nowMs : UInt64) :
    List Reply × Option Account :=
  match readFrame frameBytes with
  | .error .panicked => ([], none)
  | .error e => ([.handled (.error e) []], some account)
  | .ok (header, payload) =>
    match header.opcode with
    | .ping => ([answer .pong payload 256], some account)
    | .close => ([answer .close [] 16], some account.close)
    | .text => ([(account.text c payload nowMs).1], some (account.text c payload nowMs).2)
    | .pong | .binary | .continuation => ([.handled (.ok ()) []], some account)

/-- The frame of an event for an active session that passes its filter and obtains a token. -/
def frames (event : Event) (nowMs : UInt64) (session : ClientSession) : List Reply :=
  if session.isActive ∧ Obtains event.outbound nowMs session then
    [.frame (wsFrame (opcodeOf session.protocol) (event.outbound.payload session.protocol))]
  else []

/-- The server of one client. -/
def serveRequest (c : UInt32) (account : Account) : Request → List Reply × Option Account
  | .connect _ protocol ratePerSec burstCapacity nowMs =>
    match account.session with
    | some _ => ([.connected (.error (.clientNotFound c))], some account)
    | none =>
      ([.connected (.ok c)],
        some { account with session := some (.new c protocol ratePerSec burstCapacity nowMs) })
  | .disconnect _ => ([], some account.close)
  | .inboundFrame _ frameBytes nowMs => account.inbound c frameBytes nowMs
  | .updateFilter _ filter =>
    match account.session with
    | some session =>
      ([.filterSet (.ok ())], some { account with session := some (session.withFilter filter) })
    | none => ([.filterSet (.error (.clientNotFound c))], some account)
  | .broadcast event nowMs =>
    match account.session with
    | some session =>
      if event.topics.any account.topics then
        (frames event nowMs session,
          some { account with session := some (serve event.outbound nowMs session) })
      else ([], some account)
    | none => ([], some account)

end Account

/-! ## What the router keeps of a client -/

/-- What the router keeps of a client. -/
def accountOf (c : UInt32) (r : InvertedTopicRouter) : Account where
  session := r.clients.lookup c
  topics := fun t => decide (r.Indexed t c)

/-- Two accounts with the same session and the same topics. -/
lemma accountOf_eq {c : UInt32} {r : InvertedTopicRouter} {account : Account}
    (hsession : r.clients.lookup c = account.session)
    (htopics : ∀ t, r.Indexed t c ↔ account.topics t = true) : accountOf c r = account := by
  cases account
  simp only [accountOf, Account.mk.injEq]
  refine ⟨hsession, ?_⟩
  funext t
  rw [Bool.eq_iff_iff, decide_eq_true_eq]
  exact htopics t

lemma accountOf_congr {c : UInt32} {r r' : InvertedTopicRouter}
    (hsession : r'.clients.lookup c = r.clients.lookup c)
    (htopics : ∀ t, r'.Indexed t c ↔ r.Indexed t c) : accountOf c r' = accountOf c r := by
  apply accountOf_eq hsession
  intro t
  rw [htopics]
  exact decide_eq_true_iff.symm

lemma topics_accountOf (c : UInt32) (r : InvertedTopicRouter) (t : TopicKey) :
    (accountOf c r).topics t = true ↔ r.Indexed t c := decide_eq_true_iff

/-- Registration is seen by the client registered. -/
lemma registerClient_own (r : InvertedTopicRouter) (session : ClientSession) :
    match r.clients.lookup session.id with
    | some _ => r.registerClient session = (.error (.clientAlreadyExists session.id), r)
    | none => (r.registerClient session).1 = .ok session.id ∧
        accountOf session.id (r.registerClient session).2
          = { accountOf session.id r with session := some session } := by
  unfold registerClient
  cases hlookup : r.clients.lookup session.id with
  | some _ => simp [hlookup]
  | none =>
    simp only [hlookup, true_and]
    apply accountOf_eq
    · exact AList.lookup_insert _
    · intro t
      rw [topics_accountOf]
      exact indexed_congr rfl t session.id

lemma accountOf_registerClient_foreign {c : UInt32} (r : InvertedTopicRouter)
    {session : ClientSession} (hc : session.id ≠ c) :
    accountOf c (r.registerClient session).2 = accountOf c r := by
  apply accountOf_congr
  · unfold registerClient
    cases hlookup : r.clients.lookup session.id with
    | some _ => simp [hlookup]
    | none =>
      simp only [hlookup]
      exact AList.lookup_insert_ne (Ne.symm hc)
  · intro t
    exact indexed_congr (topics_registerClient r session) t c

lemma accountOf_unregisterClient_own (c : UInt32) (r : InvertedTopicRouter) :
    accountOf c (r.unregisterClient c).2 = (accountOf c r).close := by
  unfold unregisterClient removeClient Account.close
  cases hlookup : r.clients.lookup c with
  | none => simp [accountOf, hlookup]
  | some session =>
    simp only [accountOf, hlookup]
    apply accountOf_eq
    · exact AList.lookup_erase _ _
    · intro t
      rw [indexed_removeFromTopics]
      simp

lemma accountOf_unregisterClient_foreign {c c' : UInt32} (r : InvertedTopicRouter) (hc : c' ≠ c) :
    accountOf c (r.unregisterClient c').2 = accountOf c r := by
  unfold unregisterClient removeClient
  cases hlookup : r.clients.lookup c' with
  | none => rfl
  | some session =>
    apply accountOf_congr
    · exact AList.lookup_erase_ne (Ne.symm hc)
    · intro t
      rw [indexed_removeFromTopics]
      exact and_iff_left (Ne.symm hc)

/-- A subscription of the client to a topic it has a bit for. -/
lemma subscribe_own (c : UInt32) (r : InvertedTopicRouter) (topic : TopicKey) :
    match r.clients.lookup c with
    | some session => (r.subscribe c topic).1 = .ok () ∧
        accountOf c (r.subscribe c topic).2
          = { session := some (session.setState .subscribed)
              topics := fun t => (accountOf c r).topics t
                || decide (t = topic ∧ c.toNat < maxClientCapacity) }
    | none => r.subscribe c topic = (.error (.clientNotFound c), r) := by
  unfold subscribe markSubscribed
  cases hlookup : r.clients.lookup c with
  | none => simp
  | some session =>
    simp only [true_and]
    apply accountOf_eq
    · exact AList.lookup_insert _
    · intro t
      rw [indexed_insertIntoTopic]
      simp [topics_accountOf, Indexed]

lemma accountOf_subscribe_foreign {c c' : UInt32} (r : InvertedTopicRouter) (topic : TopicKey)
    (hc : c' ≠ c) : accountOf c (r.subscribe c' topic).2 = accountOf c r := by
  unfold subscribe markSubscribed
  cases hlookup : r.clients.lookup c' with
  | none => rfl
  | some session =>
    apply accountOf_congr
    · exact AList.lookup_insert_ne (Ne.symm hc)
    · intro t
      rw [indexed_insertIntoTopic]
      simp [Ne.symm hc, Indexed]

/-- `unsubscribe` never fails. -/
lemma unsubscribe_eq (r : InvertedTopicRouter) (c : UInt32) (topic : TopicKey) :
    r.unsubscribe c topic = (.ok (), (r.unsubscribe c topic).2) := by
  unfold unsubscribe
  cases r.topics.lookup topic <;> rfl

lemma clients_unsubscribe (r : InvertedTopicRouter) (c : UInt32) (topic : TopicKey) :
    (r.unsubscribe c topic).2.clients = r.clients := by
  unfold unsubscribe
  cases r.topics.lookup topic <;> rfl

lemma accountOf_unsubscribe_own (c : UInt32) (r : InvertedTopicRouter) (topic : TopicKey) :
    accountOf c (r.unsubscribe c topic).2
      = { accountOf c r with topics := fun t => (accountOf c r).topics t && decide (t ≠ topic) } := by
  apply accountOf_eq
  · rw [clients_unsubscribe]
    rfl
  · intro t
    rw [indexed_unsubscribe]
    simp [topics_accountOf]

lemma accountOf_unsubscribe_foreign {c c' : UInt32} (r : InvertedTopicRouter) (topic : TopicKey)
    (hc : c' ≠ c) : accountOf c (r.unsubscribe c' topic).2 = accountOf c r := by
  apply accountOf_congr
  · rw [clients_unsubscribe]
  · intro t
    rw [indexed_unsubscribe]
    simp [Ne.symm hc]

lemma updateFilter_own (c : UInt32) (r : InvertedTopicRouter) (filter : ClientFilterPredicate) :
    match r.clients.lookup c with
    | some session => (r.updateFilter c filter).1 = .ok () ∧
        accountOf c (r.updateFilter c filter).2
          = { accountOf c r with session := some (session.withFilter filter) }
    | none => r.updateFilter c filter = (.error (.clientNotFound c), r) := by
  unfold updateFilter
  cases hlookup : r.clients.lookup c with
  | none => simp
  | some session =>
    simp only [true_and]
    apply accountOf_eq
    · exact AList.lookup_insert _
    · intro t
      rw [topics_accountOf]
      exact indexed_congr rfl t c

lemma accountOf_updateFilter_foreign {c c' : UInt32} (r : InvertedTopicRouter)
    (filter : ClientFilterPredicate) (hc : c' ≠ c) :
    accountOf c (r.updateFilter c' filter).2 = accountOf c r := by
  apply accountOf_congr
  · unfold updateFilter
    cases hlookup : r.clients.lookup c' with
    | none => rfl
    | some session => exact AList.lookup_insert_ne (Ne.symm hc)
  · intro t
    exact indexed_congr (topics_updateFilter r c' filter) t c

/-- A call on the router that names another client. -/
lemma accountOf_apply_foreign {c c' : UInt32} (r : InvertedTopicRouter) {op : Op}
    (hop : op.clientId? = some c') (hc : c' ≠ c) : accountOf c (r.apply op) = accountOf c r := by
  cases op with
  | register session =>
    cases hop
    exact accountOf_registerClient_foreign r hc
  | unregister c0 =>
    cases hop
    exact accountOf_unregisterClient_foreign r hc
  | subscribe c0 topic =>
    cases hop
    exact accountOf_subscribe_foreign r topic hc
  | unsubscribe c0 topic =>
    cases hop
    exact accountOf_unsubscribe_foreign r topic hc
  | updateFilter c0 filter =>
    cases hop
    exact accountOf_updateFilter_foreign r filter hc
  | dispatchBbo bbo nowMs => cases hop

/-! ## Requests of the client -/

/-- The replies to one client. -/
def see (c : UInt32) (sent : UInt32 × Reply) : Option Reply :=
  if sent.1 = c then some sent.2 else none

lemma respond_answer (r : InvertedTopicRouter) (opcode : WsOpcode) (payload : List UInt8)
    (capacity : ℕ) :
    Reply.handled (respond r opcode payload capacity).result
        (respond r opcode payload capacity).responses = Account.answer opcode payload capacity ∧
      (respond r opcode payload capacity).result ≠ .error .panicked := by
  unfold respond Account.answer
  rcases encodeWsFrame opcode payload (List.replicate capacity 0) with ⟨_ | _, buf⟩
  · simp
  · simp

/-- A text frame never aborts, and the client's account decides the reply. -/
lemma handleText_own (c : UInt32) (r : InvertedTopicRouter) (payload : List UInt8)
    (nowMs : UInt64) :
    let inbound := handleText r c payload nowMs
    inbound.result ≠ .error .panicked ∧
      Reply.handled inbound.result inbound.responses
        = ((accountOf c r).text c payload nowMs).1 ∧
      accountOf c inbound.router = ((accountOf c r).text c payload nowMs).2 := by
  unfold handleText Account.text
  rcases parseClientCommand payload with _ | (topic | topic | filter | _ | _)
  · simp
  · have hown := subscribe_own c r topic
    cases hlookup : r.clients.lookup c with
    | none =>
      rw [hlookup] at hown
      simp only [hown, accountOf, hlookup]
      simp
    | some session =>
      rw [hlookup] at hown
      have hsubscribe : r.subscribe c topic = (.ok (), (r.subscribe c topic).2) :=
        Prod.ext hown.1 rfl
      obtain ⟨hreply, hpanic⟩ :=
        respond_answer (r.subscribe c topic).2 .text (subscribedJson topic) 256
      have hsession : (accountOf c r).session = some session := hlookup
      dsimp only
      rw [hsubscribe, hsession]
      dsimp only
      rw [respond_router]
      exact ⟨hpanic, hreply, hown.2⟩
  · dsimp only
    rw [unsubscribe_eq]
    exact ⟨by simp, rfl, accountOf_unsubscribe_own c r topic⟩
  · simp
  · obtain ⟨hreply, hpanic⟩ := respond_answer r .text (pongJson nowMs) 128
    dsimp only
    rw [respond_router]
    exact ⟨hpanic, hreply, rfl⟩
  · simp

/-- A frame aborts only in its header. -/
lemma handleInboundFrame_panicked_iff (r : InvertedTopicRouter) (c : UInt32)
    (frameBytes : List UInt8) (nowMs : UInt64) :
    (handleInboundFrame r c frameBytes nowMs).result = .error .panicked ↔
      readFrame frameBytes = .error .panicked := by
  unfold handleInboundFrame
  rcases readFrame frameBytes with e | ⟨header, payload⟩
  · simp
  · dsimp only
    have hok : Except.ok (header, payload) ≠ Except.error FrameError.panicked := by simp
    rcases header.opcode with _ | _ | _ | _ | _ | _
    · simp
    · exact iff_of_false (handleText_own c r payload nowMs).1 hok
    · simp
    · exact iff_of_false (respond_answer _ _ _ _).2 hok
    · exact iff_of_false (respond_answer _ _ _ _).2 hok
    · simp

lemma serveRequest_inbound_own (c : UInt32) (r : InvertedTopicRouter) (frameBytes : List UInt8)
    (nowMs : UInt64) :
    (serveRequest r (.inboundFrame c frameBytes nowMs)).1.filterMap (see c)
        = ((accountOf c r).inbound c frameBytes nowMs).1 ∧
      (serveRequest r (.inboundFrame c frameBytes nowMs)).2.map (accountOf c)
        = ((accountOf c r).inbound c frameBytes nowMs).2 := by
  have hpanicked := handleInboundFrame_panicked_iff r c frameBytes nowMs
  unfold serveRequest Account.inbound
  dsimp only
  cases hread : readFrame frameBytes with
  | error e =>
    have hframe : handleInboundFrame r c frameBytes nowMs = ⟨.error e, r, []⟩ := by
      rw [handleInboundFrame, hread]
    rw [hframe]
    cases e with
    | panicked => simp
    | error e => simp [see]
  | ok decoded =>
    obtain ⟨header, payload⟩ := decoded
    rw [hread] at hpanicked
    rw [if_neg (hpanicked.not.mpr (by simp))]
    unfold handleInboundFrame
    rw [hread]
    dsimp only
    rcases header.opcode with _ | _ | _ | _ | _ | _
    · simp [see]
    · obtain ⟨-, hreply, haccount⟩ := handleText_own c r payload nowMs
      simp [see, hreply, haccount]
    · simp [see]
    · obtain ⟨hreply, -⟩ := respond_answer (handleClientDisconnect r c) .close [] 16
      have hclose : accountOf c (handleClientDisconnect r c) = (accountOf c r).close :=
        accountOf_unregisterClient_own c r
      simp [see, hreply, respond_router, hclose]
    · obtain ⟨hreply, -⟩ := respond_answer r .pong payload 256
      simp [see, hreply, respond_router]
    · simp [see]

lemma serveRequest_inbound_foreign {c c' : UInt32} (hc : c' ≠ c) (r : InvertedTopicRouter)
    {frameBytes : List UInt8} (hread : readFrame frameBytes ≠ .error .panicked) (nowMs : UInt64) :
    (serveRequest r (.inboundFrame c' frameBytes nowMs)).1.filterMap (see c) = [] ∧
      (serveRequest r (.inboundFrame c' frameBytes nowMs)).2.map (accountOf c)
        = some (accountOf c r) := by
  have hpanicked := (handleInboundFrame_panicked_iff r c' frameBytes nowMs).not.mpr hread
  unfold serveRequest
  dsimp only
  rw [if_neg hpanicked]
  refine ⟨by simp [see, hc], ?_⟩
  -- the router calls behind the frame all name the other client
  have hops : ∀ op ∈ (EngineOp.inboundFrame c' frameBytes nowMs).routerOps,
      op.clientId? = some c' := by
    have hone : ∀ o : Op, o.clientId? = some c' → ∀ op ∈ [o], op.clientId? = some c' := by
      intro o ho op hop
      rw [List.mem_singleton.mp hop, ho]
    have hnil : ∀ op ∈ ([] : List Op), op.clientId? = some c' := by simp
    simp only [EngineOp.routerOps]
    rcases readFrame frameBytes with e | ⟨header, payload⟩
    · exact hnil
    · dsimp only
      rcases header.opcode with _ | _ | _ | _ | _ | _
      · exact hnil
      · unfold EngineOp.textOps
        rcases parseClientCommand payload with _ | (topic | topic | filter | _ | _)
        · exact hnil
        · exact hone _ rfl
        · exact hone _ rfl
        · exact hnil
        · exact hnil
        · exact hnil
      · exact hnil
      · exact hone _ rfl
      · exact hnil
      · exact hnil
  have hkept : ∀ (ops : List Op) (r : InvertedTopicRouter), (∀ op ∈ ops, op.clientId? = some c') →
      accountOf c (ops.foldl InvertedTopicRouter.apply r) = accountOf c r := by
    intro ops
    induction ops with
    | nil => exact fun _ _ => rfl
    | cons op ops ih =>
      intro r hall
      rw [List.foldl_cons, ih _ fun op' hop' => hall op' (List.mem_cons_of_mem _ hop')]
      exact accountOf_apply_foreign r (hall op List.mem_cons_self) hc
  have hrouter : (handleInboundFrame r c' frameBytes nowMs).router
      = (EngineOp.inboundFrame c' frameBytes nowMs).routerOps.foldl InvertedTopicRouter.apply r :=
    apply_eq r (.inboundFrame c' frameBytes nowMs)
  rw [Option.map_some, hrouter, hkept _ r hops]

/-! ## Broadcasts -/

lemma broadcast_eq (r : InvertedTopicRouter) (event : Event) (nowMs : UInt64) :
    (broadcast r nowMs event).1 = (r.dispatch event.outbound (event.candidates r) nowMs).1 ∧
      (broadcast r nowMs event).2.2
        = (r.dispatch event.outbound (event.candidates r) nowMs).2.2.map frameOf := by
  cases event with
  | ofBbo bbo => exact ⟨rfl, sent_dispatch r nowMs (broadcasts_bbo bbo) _⟩
  | ofTrade trade matchesTrade =>
    exact ⟨rfl, sent_dispatch r nowMs (broadcasts_trade trade matchesTrade) _⟩

/-- Of the frames of a broadcast, those of one client carry its own calls. -/
lemma see_frames (c : UInt32) (calls : List SinkCall) :
    ((calls.map frameOf).map fun sent : UInt32 × List UInt8 =>
        (sent.1, Reply.frame sent.2)).filterMap (see c)
      = (deliveriesTo c calls).map fun call => .frame (frameOf call).2 := by
  induction calls with
  | nil => rfl
  | cons call calls ih =>
    rw [List.map_cons, List.map_cons, List.filterMap_cons, ih]
    by_cases hc : call.clientId = c
    · simp [see, frameOf, hc, deliveriesTo]
    · simp [see, frameOf, hc, deliveriesTo]

lemma serveRequest_broadcast (c : UInt32) (r : InvertedTopicRouter) (event : Event)
    (nowMs : UInt64) :
    (serveRequest r (.broadcast event nowMs)).1.filterMap (see c)
        = ((accountOf c r).serveRequest c (.broadcast event nowMs)).1 ∧
      (serveRequest r (.broadcast event nowMs)).2.map (accountOf c)
        = ((accountOf c r).serveRequest c (.broadcast event nowMs)).2 := by
  obtain ⟨hrouter, hsent⟩ := broadcast_eq r event nowMs
  have hacc := accounts_dispatch r event.whole (event.candidates r) nowMs
  have hcandidate : c ∈ (event.candidates r).ids ↔ event.topics.any (accountOf c r).topics = true := by
    rw [Event.mem_candidates, List.any_eq_true]
    simp only [topics_accountOf]
  have hreplies : (serveRequest r (.broadcast event nowMs)).1.filterMap (see c)
      = (if c ∈ (event.candidates r).ids then (callFor event.outbound nowMs r.clients c).toList
          else []).map fun call => .frame (frameOf call).2 := by
    show ((broadcast r nowMs event).2.2.map fun sent : UInt32 × List UInt8 =>
        (sent.1, Reply.frame sent.2)).filterMap (see c) = _
    rw [hsent, see_frames, hacc.calls,
      deliveriesTo_candidates event.outbound nowMs r.clients c (event.candidates r).nodup_ids]
  have haccount : (serveRequest r (.broadcast event nowMs)).2.map (accountOf c)
      = some { accountOf c r with
          session := if c ∈ (event.candidates r).ids
            then (r.clients.lookup c).map (serve event.outbound nowMs) else r.clients.lookup c } := by
    show some (accountOf c (broadcast r nowMs event).1) = _
    congr 1
    apply accountOf_eq
    · rw [hrouter, hacc.clients]
    · intro t
      rw [hrouter, indexed_congr (topics_dispatch r event.outbound _ nowMs)]
      exact (topics_accountOf c r t).symm
  rw [hreplies, haccount]
  unfold Account.serveRequest
  cases hlookup : r.clients.lookup c with
  | none =>
    have hsession : (accountOf c r).session = none := hlookup
    have hcall : callFor event.outbound nowMs r.clients c = none := by rw [callFor, hlookup]
    rw [hsession, hcall]
    simp [accountOf, hlookup]
  | some session =>
    have hsession : (accountOf c r).session = some session := hlookup
    rw [hsession]
    dsimp only
    by_cases hmem : c ∈ (event.candidates r).ids
    · rw [if_pos hmem, if_pos hmem, if_pos (hcandidate.mp hmem)]
      refine ⟨?_, rfl⟩
      unfold callFor Account.frames
      rw [hlookup]
      dsimp only
      by_cases hactive : session.isActive = true
      · by_cases hobtains : Obtains event.outbound nowMs session
        · simp [hactive, hobtains, frameOf]
        · simp [hactive, hobtains]
      · simp [hactive]
    · rw [if_neg hmem, if_neg hmem, if_neg (hcandidate.not.mp hmem)]
      simp [accountOf, hlookup]

/-! ## Independence -/

/-- What the engine does for one client is what a server of its own does. -/
lemma projects (c : UInt32) :
    Projection.Projects serveRequest (Account.serveRequest c) (accountOf c) (see c)
      (Request.Concerns c) Request.Harmless where
  own := by
    intro r request hconcerns
    cases request with
    | connect c' protocol ratePerSec burstCapacity nowMs =>
      cases hconcerns
      have hown := registerClient_own r (.new c protocol ratePerSec burstCapacity nowMs)
      have hid : (ClientSession.new c protocol ratePerSec burstCapacity nowMs).id = c := rfl
      rw [hid] at hown
      unfold serveRequest handleClientConnect Account.serveRequest
      cases hlookup : r.clients.lookup c with
      | some session =>
        rw [hlookup] at hown
        have hsession : (accountOf c r).session = some session := hlookup
        simp only [hown, hsession]
        simp [see]
      | none =>
        rw [hlookup] at hown
        have hsession : (accountOf c r).session = none := hlookup
        have hregister : r.registerClient (.new c protocol ratePerSec burstCapacity nowMs)
            = (.ok c, (r.registerClient (.new c protocol ratePerSec burstCapacity nowMs)).2) :=
          Prod.ext hown.1 rfl
        dsimp only
        rw [hregister, hsession]
        simp [see, hown.2]
    | disconnect c' =>
      cases hconcerns
      exact ⟨rfl, congrArg some (accountOf_unregisterClient_own c r)⟩
    | inboundFrame c' frameBytes nowMs =>
      cases hconcerns
      exact serveRequest_inbound_own c r frameBytes nowMs
    | updateFilter c' filter =>
      cases hconcerns
      have hown := updateFilter_own c r filter
      unfold serveRequest Account.serveRequest
      cases hlookup : r.clients.lookup c with
      | some session =>
        rw [hlookup] at hown
        have hsession : (accountOf c r).session = some session := hlookup
        dsimp only
        rw [hsession]
        simp [see, hown.1, hown.2]
      | none =>
        rw [hlookup] at hown
        have hsession : (accountOf c r).session = none := hlookup
        simp only [hown, hsession]
        simp [see]
    | broadcast event nowMs => exact serveRequest_broadcast c r event nowMs
  foreign := by
    intro r request hconcerns hharmless
    cases request with
    | connect c' protocol ratePerSec burstCapacity nowMs =>
      refine ⟨by simp [serveRequest, see, show ¬ c' = c from hconcerns], ?_⟩
      have happly : (handleClientConnect r c' protocol ratePerSec burstCapacity nowMs).2
          = (r.registerClient (.new c' protocol ratePerSec burstCapacity nowMs)).2 :=
        apply_eq r (.connect c' protocol ratePerSec burstCapacity nowMs)
      show some (accountOf c (handleClientConnect r c' protocol ratePerSec burstCapacity nowMs).2) = _
      rw [happly]
      exact congrArg some (accountOf_registerClient_foreign r hconcerns)
    | disconnect c' =>
      exact ⟨rfl, congrArg some (accountOf_unregisterClient_foreign r hconcerns)⟩
    | inboundFrame c' frameBytes nowMs =>
      exact serveRequest_inbound_foreign hconcerns r hharmless nowMs
    | updateFilter c' filter =>
      refine ⟨by simp [serveRequest, see, show ¬ c' = c from hconcerns], ?_⟩
      exact congrArg some (accountOf_updateFilter_foreign r filter hconcerns)
    | broadcast event nowMs => exact absurd trivial hconcerns

/-- A run of the engine and a run of a server for one client. -/
def serveAll (r : InvertedTopicRouter) (requests : List Request) :
    List (UInt32 × Reply) × Option InvertedTopicRouter :=
  Projection.run serveRequest (some r) requests

def Account.serveAll (c : UInt32) (account : Account) (requests : List Request) :
    List Reply × Option Account :=
  Projection.run (Account.serveRequest c) (some account) requests

/-- What a client sees of a run of the engine is what a server of its own answers it: the
results of its calls, the responses to its frames and the frames of every broadcast, one
after the other, however many requests of other clients come in between. No more is kept
of the client than that server keeps. -/
theorem clients_served_alone (c : UInt32) (r : InvertedTopicRouter) {requests : List Request}
    (hharmless : ∀ request ∈ requests, ¬ request.Concerns c → request.Harmless) :
    (serveAll r requests).1.filterMap (see c)
        = ((accountOf c r).serveAll c (requests.filter (Request.Concerns c ·))).1 ∧
      (serveAll r requests).2.map (accountOf c)
        = ((accountOf c r).serveAll c (requests.filter (Request.Concerns c ·))).2 :=
  Projection.run_projects (projects c) hharmless (some r)

/-- A client subscribes to the trades of a market, and another comes and goes in between. -/
def sharedRequests : List Request :=
  [.connect 1 .json 1000 10 0, .connect 2 .sbe 1 1 0,
    .inboundFrame 2 (wsFrame .ping [1, 2, 3]) 5, .broadcast (.ofBbo {}) 6, .disconnect 2]

theorem clients_served_alone_shared :
    (serveAll .new sharedRequests).1.filterMap (see 1)
        = ((accountOf 1 .new).serveAll 1
            [.connect 1 .json 1000 10 0, .broadcast (.ofBbo {}) 6]).1 ∧
      (serveAll .new sharedRequests).2.map (accountOf 1)
        = ((accountOf 1 .new).serveAll 1
            [.connect 1 .json 1000 10 0, .broadcast (.ofBbo {}) 6]).2 := by
  have hread : readFrame (wsFrame .ping [1, 2, 3]) ≠ .error .panicked := by decide +kernel
  have hharmless : ∀ request ∈ sharedRequests, ¬ request.Concerns 1 → request.Harmless := by
    intro request hrequest _
    simp only [sharedRequests, List.mem_cons, List.not_mem_nil, or_false] at hrequest
    rcases hrequest with rfl | rfl | rfl | rfl | rfl
    · exact trivial
    · exact trivial
    · exact hread
    · exact trivial
    · exact trivial
  exact clients_served_alone 1 .new hharmless

/-- Two runs with the same broadcasts and the same requests of a client look the same to it, in
states of the router that keep the same of it. -/
theorem clients_do_not_interfere {c : UInt32} {r r' : InvertedTopicRouter}
    {requests requests' : List Request}
    (hharmless : ∀ request ∈ requests, ¬ request.Concerns c → request.Harmless)
    (hharmless' : ∀ request ∈ requests', ¬ request.Concerns c → request.Harmless)
    (hview : accountOf c r = accountOf c r')
    (hsame : requests.filter (Request.Concerns c ·) = requests'.filter (Request.Concerns c ·)) :
    (serveAll r requests).1.filterMap (see c) = (serveAll r' requests').1.filterMap (see c) :=
  Projection.observed_eq (projects c) hharmless hharmless' (congrArg some hview) hsame

end WebSocket
end ChainMarketPrice.Distribution
