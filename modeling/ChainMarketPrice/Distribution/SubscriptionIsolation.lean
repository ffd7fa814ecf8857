import ChainMarketPrice.Distribution.Broadcast

/-!
# Subscriptions from the wire command to delivery

Runs of the engine: connections, frames of clients and broadcasts, in any order. What the
engine does to its router is a sequence of router calls (`engineRun_eq`), so a broadcast
reaches a client by the history of these calls.

A client with a single confirmed subscribe command gets the events of the topic that the
command names (`broadcast_iff_topic`), that is, of the venue, the market and the flags of the
command as far as the fields of a `TopicKey` hold them (`subscription_isolated`).
-/

namespace ChainMarketPrice.Distribution
namespace WebSocket

open Bytes History InvertedTopicRouter

/-! ## Runs of the engine -/

/-- One call on the engine. -/
inductive EngineOp
  | connect (clientId : UInt32) (protocol : WireProtocol) (ratePerSec burstCapacity : UInt32)
      (nowMs : UInt64)
  | disconnect (clientId : UInt32)
  | inboundFrame (clientId : UInt32) (frameBytes : List UInt8) (nowMs : UInt64)
  | broadcastBbo (bbo : NormalizedBbo) (nowMs : UInt64)
deriving Repr, DecidableEq

namespace EngineOp

/-- The router after a call. -/
def apply (r : InvertedTopicRouter) : EngineOp → InvertedTopicRouter
  | .connect c protocol ratePerSec burstCapacity nowMs =>
    (handleClientConnect r c protocol ratePerSec burstCapacity nowMs).2
  | .disconnect c => handleClientDisconnect r c
  | .inboundFrame c frameBytes nowMs => (handleInboundFrame r c frameBytes nowMs).router
  | .broadcastBbo bbo nowMs => (WebSocket.broadcastBbo r bbo nowMs).1

/-- The router call behind a text frame. -/
def textOps (c : UInt32) (text : List UInt8) : List Op :=
  match parseClientCommand text with
  | some (.subscribe topic) => [.subscribe c topic]
  | some (.unsubscribe topic) => [.unsubscribe c topic]
  | some (.filter _) | some .ping | some .pong | none => []

/-- The router calls behind a call on the engine. -/
def routerOps : EngineOp → List Op
  | .connect c protocol ratePerSec burstCapacity nowMs =>
    [.register (.new c protocol ratePerSec burstCapacity nowMs)]
  | .disconnect c => [.unregister c]
  | .inboundFrame c frameBytes _ =>
    match readFrame frameBytes with
    | .error _ => []
    | .ok (header, payload) =>
      match header.opcode with
      | .close => [.unregister c]
      | .text => textOps c payload
      | .ping | .pong | .binary | .continuation => []
  | .broadcastBbo bbo nowMs => [.dispatchBbo bbo nowMs]

/-- The call neither subscribes, unsubscribes nor removes the client. -/
def Spares (c : UInt32) (op : EngineOp) : Prop :=
  ∀ o ∈ op.routerOps, o ≠ .unregister c ∧ ∀ t, o ≠ .subscribe c t ∧ o ≠ .unsubscribe c t

end EngineOp

/-- The router after a sequence of calls on a fresh engine. -/
def engineRun (ops : List EngineOp) : InvertedTopicRouter := ops.foldl EngineOp.apply .new

lemma handleText_router (r : InvertedTopicRouter) (c : UInt32) (text : List UInt8)
    (nowMs : UInt64) :
    (handleText r c text nowMs).router
      = (EngineOp.textOps c text).foldl InvertedTopicRouter.apply r := by
  unfold handleText EngineOp.textOps
  rcases parseClientCommand text with _ | (topic | topic | filter | _ | _)
  · rfl
  · show _ = (r.subscribe c topic).2
    dsimp only
    split
    · rename_i heq
      rw [respond_router, heq]
    · rename_i heq
      rw [heq]
  · show _ = (r.unsubscribe c topic).2
    dsimp only
    split
    · rename_i heq
      rw [heq]
    · rename_i heq
      rw [heq]
  · rfl
  · exact respond_router r _ _ _
  · rfl

/-- A call on the engine is its router calls. -/
lemma apply_eq (r : InvertedTopicRouter) (op : EngineOp) :
    op.apply r = op.routerOps.foldl InvertedTopicRouter.apply r := by
  cases op with
  | connect c protocol ratePerSec burstCapacity nowMs =>
    show (handleClientConnect r c protocol ratePerSec burstCapacity nowMs).2
      = (r.registerClient (.new c protocol ratePerSec burstCapacity nowMs)).2
    unfold handleClientConnect
    dsimp only
    split
    · rename_i heq
      rw [heq]
    · rename_i heq
      rw [heq]
  | disconnect c => rfl
  | inboundFrame c frameBytes nowMs =>
    show (handleInboundFrame r c frameBytes nowMs).router = _
    unfold handleInboundFrame EngineOp.routerOps
    dsimp only
    rcases readFrame frameBytes with _ | ⟨header, payload⟩
    · rfl
    · dsimp only
      -- only a text frame reaches the router; the others are answered or ignored
      rcases header.opcode with _ | _ | _ | _ | _ | _
      · rfl
      · exact handleText_router r c payload nowMs
      · rfl
      · exact respond_router _ _ _ _
      · exact respond_router r _ _ _
      · rfl
  | broadcastBbo bbo nowMs => rfl

/-- A run of the engine is a run of the router. -/
lemma engineRun_eq (ops : List EngineOp) :
    engineRun ops = InvertedTopicRouter.run (ops.flatMap EngineOp.routerOps) := by
  induction ops using List.reverseRecOn with
  | nil => rfl
  | append_singleton ops op ih =>
    have hrun : engineRun (ops ++ [op]) = op.apply (engineRun ops) := by
      rw [engineRun, List.foldl_append]
      rfl
    rw [hrun, apply_eq, ih, List.flatMap_append, InvertedTopicRouter.run,
      InvertedTopicRouter.run, List.foldl_append, List.flatMap_singleton]

/-- The engine's router is in step with its history. -/
lemma follows_engineRun (ops : List EngineOp) :
    Follows (engineRun ops) (ops.flatMap EngineOp.routerOps) := by
  rw [engineRun_eq]
  exact follows_run _

/-! ## A client with one command -/

/-- The client has connected, `text` is its only command since then, and the command was
confirmed. -/
structure SoleCommand (c : UInt32) (text : List UInt8) (history : List EngineOp) : Prop where
  intro ::
  exists_split : ∃ before protocol ratePerSec burstCapacity connectMs quiet frame header nowMs quiet',
    history = (before ++ .connect c protocol ratePerSec burstCapacity connectMs :: quiet)
      ++ .inboundFrame c frame nowMs :: quiet' ∧
    (handleClientConnect (engineRun before) c protocol ratePerSec burstCapacity connectMs).1 = .ok c ∧
    (∀ op ∈ quiet, op.Spares c) ∧ (∀ op ∈ quiet', op.Spares c) ∧
    readFrame frame = .ok (header, text) ∧
    ∃ response ∈ (handleInboundFrame
        (engineRun (before ++ .connect c protocol ratePerSec burstCapacity connectMs :: quiet))
        c frame nowMs).responses, IsConfirmation response

/-- The router calls of spared operations leave the client's subscriptions as they are. -/
lemma subscribed_append_of_spares {c : UInt32} {quiet : List EngineOp}
    (h : ∀ op ∈ quiet, op.Spares c) (ops : List Op) (t : TopicKey) :
    Subscribed c t (ops ++ quiet.flatMap EngineOp.routerOps) ↔ Subscribed c t ops := by
  unfold Subscribed
  apply since_append_of_quiet
  intro o ho
  obtain ⟨op, hop, hmem⟩ := List.mem_flatMap.mp ho
  obtain ⟨hunregister, hother⟩ := h op hop o hmem
  refine ⟨⟨hunregister, (hother t).2⟩, ?_⟩
  rintro before ⟨heq, -⟩
  exact (hother t).1 heq

/-- A client that may connect has no subscription left. -/
lemma not_subscribed_of_connect {r : InvertedTopicRouter} {ops : List Op} (h : Follows r ops)
    {c : UInt32} (hcap : c.toNat < maxClientCapacity) {protocol : WireProtocol}
    {ratePerSec burstCapacity : UInt32} {nowMs : UInt64}
    (hconnect : (handleClientConnect r c protocol ratePerSec burstCapacity nowMs).1 = .ok c)
    (t : TopicKey) : ¬ Subscribed c t ops := by
  intro hsub
  obtain ⟨session, hlookup, -⟩ := h.active t c ((h.indexed t c).mpr ⟨hsub, hcap⟩)
  have hrejected : r.registerClient (.new c protocol ratePerSec burstCapacity nowMs)
      = (.error (.clientAlreadyExists c), r) := by
    have hid : (ClientSession.new c protocol ratePerSec burstCapacity nowMs).id = c := rfl
    unfold registerClient
    dsimp only
    rw [hid, hlookup]
  unfold handleClientConnect at hconnect
  dsimp only at hconnect
  rw [hrejected] at hconnect
  cases hconnect

/-- An accepted subscription is the client's, who is registered. -/
lemma registered_of_subscribe {r : InvertedTopicRouter} {ops : List Op} (h : Follows r ops)
    {c : UInt32} {t : TopicKey} (hok : (r.subscribe c t).1 = .ok ()) : Registered c ops := by
  rcases hlookup : r.clients.lookup c with _ | session
  · unfold InvertedTopicRouter.subscribe markSubscribed at hok
    simp only [hlookup] at hok
    cases hok
  · exact registered_of_lookup h hlookup

/-- The only subscription of such a client is the one of its command. -/
lemma SoleCommand.subscribed_iff {c : UInt32} {text : List UInt8} {history : List EngineOp}
    (h : SoleCommand c text history) (hcap : c.toNat < maxClientCapacity) :
    ∃ topic, parseClientCommand text = some (.subscribe topic) ∧
      ∀ t, Subscribed c t (history.flatMap EngineOp.routerOps) ↔ t = topic := by
  obtain ⟨before, protocol, rate, burst, connectMs, quiet, frame, header, nowMs, quiet', rfl,
    hconnect, hquiet, hquiet', hread, response, hresponse, hconfirms⟩ := h.exists_split
  obtain ⟨header', text', topic, hread', hopcode, hparse, hok⟩ := confirmed hresponse hconfirms
  rw [hread] at hread'
  cases hread'
  refine ⟨topic, hparse, ?_⟩
  intro t
  set connected := before ++ .connect c protocol rate burst connectMs :: quiet with hconnected
  have hframe : (EngineOp.inboundFrame c frame nowMs).routerOps = [.subscribe c topic] := by
    simp only [EngineOp.routerOps, hread, hopcode, EngineOp.textOps, hparse]
  -- nothing before the command, the command itself, nothing after it
  have hnone : ¬ Subscribed c t (connected.flatMap EngineOp.routerOps) := by
    rw [hconnected, List.flatMap_append, List.flatMap_cons, ← List.append_assoc,
      subscribed_append_of_spares hquiet]
    intro hsub
    rcases (since_concat _ _).mp hsub with ⟨heq, -⟩ | ⟨hsub, -⟩
    · cases heq
    · exact not_subscribed_of_connect (follows_engineRun before) hcap hconnect t hsub
  rw [List.flatMap_append, List.flatMap_cons, ← List.append_assoc,
    subscribed_append_of_spares hquiet', hframe, Subscribed, since_concat]
  constructor
  · rintro (⟨heq, -⟩ | ⟨hsub, -⟩)
    · cases heq
      rfl
    · exact absurd hsub hnone
  · rintro rfl
    exact .inl ⟨rfl, registered_of_subscribe (follows_engineRun connected) hok⟩

/-- The client passes every spread and has a token. -/
structure Ready (r : InvertedTopicRouter) (c : UInt32) (nowMs : UInt64) : Prop where
  intro ::
  exists_session : ∃ session, r.clients.lookup c = some session ∧
    session.filter.maxSpreadBps = 0 ∧ (session.rateLimiter.tryConsume 1 nowMs).1 = true

/-- A broadcast reaches such a client if the topic of its command is the exact or the default
topic of the event. -/
lemma broadcast_iff_topic {c : UInt32} {text : List UInt8} {history : List EngineOp}
    (h : SoleCommand c text history) (hcap : c.toNat < maxClientCapacity) {nowMs : UInt64}
    (hready : Ready (engineRun history) c nowMs) {topic : TopicKey}
    (hparse : parseClientCommand text = some (.subscribe topic)) (bbo : NormalizedBbo) :
    (∃ frame, (c, frame) ∈ (broadcastBbo (engineRun history) bbo nowMs).2.2) ↔
      exactTopic bbo = topic ∨ defaultTopic bbo = topic := by
  obtain ⟨topic', hparse', hsub⟩ := h.subscribed_iff hcap
  obtain ⟨session, hlookup, hfilter, htoken⟩ := hready.exists_session
  have hfollows := follows_engineRun history
  have htopic : topic' = topic := by
    rw [hparse] at hparse'
    cases hparse'
    rfl
  subst htopic
  rw [mem_broadcastBbo]
  simp only [hfollows.mem_sent_iff, Matched, hsub]
  constructor
  · rintro ⟨p, payload, ⟨⟨-, hmatch⟩, -⟩, -⟩
    exact hmatch
  · intro hmatch
    exact ⟨session.protocol, _, ⟨⟨registered_of_lookup hfollows hlookup, hmatch⟩, hcap⟩, session,
      hlookup, .inl hfilter, htoken, rfl, rfl⟩

/-! ## The fields of the topic -/

lemma toNat_venue (v : ℕ) : (UInt64.ofNat v).toUInt8.toNat = v % 2 ^ 8 := by
  rw [UInt64.toNat_toUInt8, UInt64.toNat_ofNat']
  omega

lemma toNat_market (m : ℕ) : (UInt64.ofNat m).toUInt32.toNat % 2 ^ 24 = m % 2 ^ 24 := by
  rw [UInt64.toNat_toUInt32, UInt64.toNat_ofNat']
  omega

/-- A client with a single confirmed subscribe command gets an event exactly when the venue of
the event agrees with the command in the 8 bits that a topic has for it, the market in its 24
bits, and the flags of the command are zero there or those of the event. Flags beyond 64 bits
count as zero. -/
theorem subscription_isolated {c : UInt32} {text : List UInt8} {history : List EngineOp}
    (h : SoleCommand c text history) (hcap : c.toNat < maxClientCapacity) {nowMs : UInt64}
    (hready : Ready (engineRun history) c nowMs) {v m f : ℕ} (hv : Carries text "venue" v)
    (hm : Carries text "market_id" m) (hs : Carries text "stream_type" 1)
    (hf : Carries text "flags" f) (bbo : NormalizedBbo) :
    (∃ frame, (c, frame) ∈ (broadcastBbo (engineRun history) bbo nowMs).2.2) ↔
      bbo.venue.toNat % 2 ^ 8 = v % 2 ^ 8 ∧ bbo.marketId.toNat % 2 ^ 24 = m % 2 ^ 24 ∧
        (2 ^ 64 ≤ f ∨ f % 2 ^ 24 = 0 ∨ f % 2 ^ 24 = bbo.flags.toNat) := by
  obtain ⟨topic, hparse, -⟩ := h.subscribed_iff hcap
  have htopic := topic_of_carries hparse hv hm hs hf
  rw [broadcast_iff_topic h hcap hready hparse, htopic, exactTopic, defaultTopic,
    TopicKey.new_eq_iff, TopicKey.new_eq_iff, ← UInt8.toNat_inj, toNat_venue, toNat_market]
  have hvenue : bbo.venue.toUInt8.toNat = bbo.venue.toNat % 2 ^ 8 := UInt16.toNat_toUInt8 _
  have hstream : streamTypeBbo = (UInt64.ofNat 1).toUInt8 := by decide
  -- flags of an event have 16 bits, so the 24 bits of a topic hold them
  have hflags : bbo.flags.toUInt32.toNat % 2 ^ 24 = bbo.flags.toNat := by
    have hlt := bbo.flags.toNat_lt
    rw [UInt16.toNat_toUInt32]
    omega
  -- those of a command are a number of any size
  have hcommand : (if f < 2 ^ 64 then UInt64.ofNat f else 0).toUInt32.toNat % 2 ^ 24
      = if f < 2 ^ 64 then f % 2 ^ 24 else 0 := by
    split
    · exact toNat_market f
    · rfl
  have hzero : (0 : UInt32).toNat % 2 ^ 24 = 0 := rfl
  rw [hvenue, hflags, hcommand, hzero]
  simp only [hstream, true_and]
  by_cases hbig : f < 2 ^ 64
  · rw [if_pos hbig]
    omega
  · rw [if_neg hbig]
    omega

/-- A subscribe command for the given venue, as the clients of the tests write it. -/
def subscribeText (venue : String) : List UInt8 :=
  ofString ("\x7b\"action\":\"subscribe\",\"venue\":" ++ venue
    ++ ",\"market_id\":42,\"stream_type\":1,\"flags\":0\x7d")

/-- A client connects and subscribes. -/
def subscribeRun (venue : String) : List EngineOp :=
  [.connect 10 .sbe 1000 10 0,
    .inboundFrame 10 (wsFrame .text (subscribeText venue)) 1000]

lemma soleCommand_subscribeRun {venue : String} (header : WsFrameHeader) (topic : TopicKey)
    (hread : readFrame (wsFrame .text (subscribeText venue)) = .ok (header, subscribeText venue))
    (hresponses : (handleInboundFrame (engineRun [.connect 10 .sbe 1000 10 0]) 10
      (wsFrame .text (subscribeText venue)) 1000).responses
        = [wsFrame .text (subscribedJson topic)]) :
    SoleCommand 10 (subscribeText venue) (subscribeRun venue) := by
  refine ⟨[], .sbe, 1000, 10, 0, [], _, header, 1000, [], rfl, rfl, by simp, by simp, hread, ?_⟩
  rw [List.nil_append, hresponses]
  exact ⟨_, List.mem_cons_self, topic, rfl⟩

/-- The header of the frame that carries `n` bytes of text. -/
def textHeader (n : ℕ) : WsFrameHeader :=
  { fin := true, opcode := .text, masked := false, payloadLen := n, maskKey := [0, 0, 0, 0],
    headerLen := 2 }

theorem subscription_isolated_subscribeRun :
    (∃ frame, (10, frame) ∈ (broadcastBbo (engineRun (subscribeRun "1"))
      { venue := 1, marketId := 42, flags := 5 } 1000).2.2) ∧
    ¬ ∃ frame, (10, frame) ∈ (broadcastBbo (engineRun (subscribeRun "1"))
      { venue := 1, marketId := 43 } 1000).2.2 := by
  have hsole : SoleCommand 10 (subscribeText "1") (subscribeRun "1") :=
    soleCommand_subscribeRun (textHeader 73) (.new 1 42 1 0) (by decide +kernel) (by decide +kernel)
  have hready : Ready (engineRun (subscribeRun "1")) 10 1000 :=
    ⟨(ClientSession.new 10 .sbe 1000 10 0).setState .subscribed, by decide +kernel, by decide +kernel⟩
  have hvenue : Carries (subscribeText "1") "venue" 1 :=
    ⟨22, by decide +kernel, _, rfl, by decide +kernel, by decide +kernel⟩
  have hmarket : Carries (subscribeText "1") "market_id" 42 :=
    ⟨32, by decide +kernel, _, rfl, by decide +kernel, by decide +kernel⟩
  have hstream : Carries (subscribeText "1") "stream_type" 1 :=
    ⟨47, by decide +kernel, _, rfl, by decide +kernel, by decide +kernel⟩
  have hflags : Carries (subscribeText "1") "flags" 0 :=
    ⟨63, by decide +kernel, _, rfl, by decide +kernel, by decide +kernel⟩
  have hcap : (10 : UInt32).toNat < maxClientCapacity := by decide
  refine ⟨?_, ?_⟩
  · exact (subscription_isolated hsole hcap hready hvenue hmarket hstream hflags _).mpr (by decide)
  · intro hsent
    have hmarkets := (subscription_isolated hsole hcap hready hvenue hmarket hstream hflags _).mp hsent
    revert hmarkets
    decide

/-- The client asks for venue 257, which a topic cannot tell from venue 1, and gets the quotes
of venue 1. -/
theorem venue_narrowed :
    SoleCommand 10 (subscribeText "257") (subscribeRun "257") ∧
    Carries (subscribeText "257") "venue" 257 ∧ Carries (subscribeText "257") "market_id" 42 ∧
    Carries (subscribeText "257") "stream_type" 1 ∧ Carries (subscribeText "257") "flags" 0 ∧
    Ready (engineRun (subscribeRun "257")) 10 1000 ∧
    ∃ frame, (10, frame) ∈ (broadcastBbo (engineRun (subscribeRun "257"))
      { venue := 1, marketId := 42 } 1000).2.2 := by
  have hsole : SoleCommand 10 (subscribeText "257") (subscribeRun "257") :=
    soleCommand_subscribeRun (textHeader 75) (.new 1 42 1 0) (by decide +kernel) (by decide +kernel)
  have hready : Ready (engineRun (subscribeRun "257")) 10 1000 :=
    ⟨(ClientSession.new 10 .sbe 1000 10 0).setState .subscribed, by decide +kernel, by decide +kernel⟩
  refine ⟨hsole, ⟨22, ?_⟩, ⟨34, ?_⟩, ⟨49, ?_⟩, ⟨65, ?_⟩, hready, ?_⟩
  · exact ⟨by decide +kernel, _, rfl, by decide +kernel, by decide +kernel⟩
  · exact ⟨by decide +kernel, _, rfl, by decide +kernel, by decide +kernel⟩
  · exact ⟨by decide +kernel, _, rfl, by decide +kernel, by decide +kernel⟩
  · exact ⟨by decide +kernel, _, rfl, by decide +kernel, by decide +kernel⟩
  · have hparse : parseClientCommand (subscribeText "257") = some (.subscribe (.new 1 42 1 0)) := by
      decide +kernel
    exact (broadcast_iff_topic hsole (by decide) hready hparse _).mpr (by decide)

end WebSocket
end ChainMarketPrice.Distribution
