import Mathlib.Data.UInt
import ChainMarketPrice.LiveFeed.SessionTheorems

/-!
# Detection of lost messages

The exchange sends a product's tickers and heartbeats with increasing sequence numbers;
tickers carry consecutive trade ids and heartbeats repeat the last one. Some of these messages
are dropped, the others reach the session between the messages of other products.

The registers of a session follow what it has received (`tracks_feed`), so it asks for a
resubscription at the first message after a lost ticker, and at no message if none is lost
(`detects_lost_tickers`).
-/

namespace ChainMarketPrice.LiveFeed

open CefiIngest Session

/-! ## Streams and deliveries -/

/-- The two channels of a product. -/
inductive Channel
  | ticker
  | heartbeat
deriving Repr, DecidableEq

/-- One message of the exchange about the product. -/
structure ExchangeMessage where
  channel : Channel
  sequence : UInt64
  tradeId : UInt64
  payload : List UInt8
deriving Repr, DecidableEq

/-- The payload is a complete message of the product with these numbers. -/
def ExchangeMessage.Carries (name : List UInt8) (m : ExchangeMessage) : Prop :=
  match m.channel with
  | .ticker => IsTicker name m.payload m.sequence m.tradeId
  | .heartbeat => IsHeartbeat name m.payload m.sequence m.tradeId

/-- The trade id of the last ticker. -/
def lastTickerId (messages : List ExchangeMessage) : Option UInt64 :=
  ((messages.filter (·.channel = .ticker)).getLast?).map (·.tradeId)

/-- How far a message's trade id is ahead of the last ticker before it. -/
def ExchangeMessage.ahead (m : ExchangeMessage) : ℕ :=
  match m.channel with
  | .ticker => 1
  | .heartbeat => 0

/-- A stream of the exchange for one product. -/
structure ExchangeStream (name : List UInt8) (messages : List ExchangeMessage) : Prop where
  carries : ∀ m ∈ messages, m.Carries name
  bounded : ∀ m ∈ messages, m.sequence.toNat < 2 ^ 64 - 1 ∧ m.tradeId.toNat < 2 ^ 64 - 1
  increasing : messages.Pairwise (·.sequence < ·.sequence)
  tradeIds : ∀ before m after, messages = before ++ m :: after →
    ∀ last ∈ lastTickerId before, m.tradeId.toNat = last.toNat + m.ahead

/-- What happens to a message: the session gets it, or it is lost on the way. Messages about
other products come in between. -/
inductive FeedEvent
  | deliver (m : ExchangeMessage) (t1Ns nowMs : UInt64)
  | drop (m : ExchangeMessage)
  | other (payload : List UInt8) (t1Ns nowMs : UInt64)
deriving Repr, DecidableEq

/-- The messages the exchange has sent about the product. -/
def sent : List FeedEvent → List ExchangeMessage :=
  List.filterMap fun
    | .deliver m _ _ => some m
    | .drop m => some m
    | .other _ _ _ => none

/-- The messages about the product that have reached the session. -/
def received : List FeedEvent → List ExchangeMessage :=
  List.filterMap fun
    | .deliver m _ _ => some m
    | .drop _ => none
    | .other _ _ _ => none

/-- The session and the output list after an event. -/
def feed (st : Session × List Event) : FeedEvent → Session × List Event
  | .deliver m t1Ns nowMs =>
    let o := st.1.onMessage m.payload t1Ns nowMs st.2
    (o.session, o.out)
  | .drop _ => st
  | .other payload t1Ns nowMs =>
    let o := st.1.onMessage payload t1Ns nowMs st.2
    (o.session, o.out)

/-- The action the session returns for a message that reaches it after some events. -/
def actionFor (st : Session × List Event) (before : List FeedEvent) (m : ExchangeMessage)
    (t1Ns nowMs : UInt64) : Option Action :=
  let st := before.foldl feed st
  (st.1.onMessage m.payload t1Ns nowMs st.2).action

/-- A ticker is lost between the first delivered ticker and the last delivered message. -/
structure LostTicker (events before : List FeedEvent) (m : ExchangeMessage)
    (after : List FeedEvent) : Prop where
  split : events = before ++ .drop m :: after
  ticker : m.channel = .ticker
  baseline : ∃ first ∈ received before, first.channel = .ticker
  followed : received after ≠ []

/-! ## Facts about streams -/

lemma sent_append (before after : List FeedEvent) :
    sent (before ++ after) = sent before ++ sent after := List.filterMap_append

lemma received_append (before after : List FeedEvent) :
    received (before ++ after) = received before ++ received after := List.filterMap_append

lemma lastTickerId_concat (messages : List ExchangeMessage) (m : ExchangeMessage) :
    lastTickerId (messages ++ [m])
      = if m.channel = .ticker then some m.tradeId else lastTickerId messages := by
  unfold lastTickerId
  rw [List.filter_append]
  split
  · rename_i h
    simp [h]
  · rename_i h
    simp [h]

/-- A list with a ticker has a last one. -/
lemma lastTickerId_of_mem {messages : List ExchangeMessage} {m : ExchangeMessage}
    (hm : m ∈ messages) (hticker : m.channel = .ticker) :
    ∃ k ∈ messages, k.channel = .ticker ∧ lastTickerId messages = some k.tradeId := by
  induction messages using List.reverseRecOn with
  | nil => cases hm
  | append_singleton messages k ih =>
    rw [lastTickerId_concat]
    by_cases hk : k.channel = .ticker
    · refine ⟨k, ?_, hk, if_pos hk⟩
      exact List.mem_append_right _ List.mem_cons_self
    · have hmem : m ∈ messages := by
        rcases List.mem_append.mp hm with hmem | hmem
        · exact hmem
        · rw [List.mem_singleton.mp hmem] at hticker
          exact absurd hticker hk
      obtain ⟨last, hlast, hlastTicker, heq⟩ := ih hmem
      rw [if_neg hk]
      exact ⟨last, List.mem_append_left _ hlast, hlastTicker, heq⟩

/-- A stream up to some point is a stream. -/
lemma ExchangeStream.left {name : List UInt8} {before after : List ExchangeMessage}
    (h : ExchangeStream name (before ++ after)) : ExchangeStream name before where
  carries := fun m hm => h.carries m (List.mem_append_left _ hm)
  bounded := fun m hm => h.bounded m (List.mem_append_left _ hm)
  increasing := (List.pairwise_append.mp h.increasing).1
  tradeIds := fun pre m post heq last hlast =>
    h.tradeIds pre m (post ++ after) (by rw [heq, List.append_assoc, List.cons_append]) last hlast

/-- The last ticker has the largest trade id. -/
lemma ExchangeStream.le_lastTickerId {name : List UInt8} {messages : List ExchangeMessage}
    (h : ExchangeStream name messages) {m : ExchangeMessage} (hm : m ∈ messages)
    (hticker : m.channel = .ticker) :
    ∃ last, lastTickerId messages = some last ∧ m.tradeId.toNat ≤ last.toNat := by
  induction messages using List.reverseRecOn with
  | nil => cases hm
  | append_singleton messages k ih =>
    rw [lastTickerId_concat]
    rcases List.mem_append.mp hm with hmem | hmem
    · obtain ⟨last, hlast, hle⟩ := ih h.left hmem
      have hk := h.tradeIds messages k [] rfl last hlast
      split
      · refine ⟨k.tradeId, rfl, ?_⟩
        omega
      · exact ⟨last, hlast, hle⟩
    · rw [List.mem_singleton.mp hmem] at hticker ⊢
      exact ⟨k.tradeId, if_pos hticker, le_refl _⟩

/-! ## The registers follow the deliveries -/

/-- The trade register holds the last ticker received, and the sequence register a number
that the exchange has sent. -/
structure Tracks (s : Session) (name : List UInt8) (events : List FeedEvent) : Prop where
  product : ∃ p, s.productOf name = some p ∧ p.lastTradeId = lastTickerId (received events) ∧
    ∀ last ∈ p.lastSeq, ∃ m ∈ sent events, m.sequence = last

/-- A message that reaches the session gets past the sequence check. -/
lemma sequence_lt {name : List UInt8} {before : List FeedEvent} {m : ExchangeMessage}
    (h : ExchangeStream name (sent before ++ [m])) {lastSeq : Option UInt64}
    (hseq : ∀ last ∈ lastSeq, ∃ k ∈ sent before, k.sequence = last) :
    ∀ last ∈ lastSeq, last < m.sequence := by
  intro last hlast
  obtain ⟨k, hk, rfl⟩ := hseq last hlast
  exact (List.pairwise_append.mp h.increasing).2.2 k hk m List.mem_cons_self

/-- The answers that say whether a message continues what the session has received. -/
structure Answers (action : Option Action) (received : Option UInt64) (m : ExchangeMessage) :
    Prop where
  quiet : (∀ last ∈ received, m.tradeId.toNat = last.toNat + m.ahead) → action = none
  alarm : ∀ last ∈ received, last.toNat + m.ahead < m.tradeId.toNat →
    ∃ reason, action = some (.resubscribe reason)

/-- A ticker one ahead of the trade register is quiet, any other one is not. The register is
below `2 ^ 64 - 1`, so that adding one does not wrap. -/
lemma answers_ticker {m : ExchangeMessage} (hticker : m.channel = .ticker)
    {lastTradeId : Option UInt64} (hbound : ∀ last ∈ lastTradeId, last.toNat < 2 ^ 64 - 1) :
    Answers (lastTradeId.bind fun last =>
      if m.tradeId ≠ last + 1 then some (.resubscribe (.tradeIdGap (last + 1) m.tradeId))
      else none) lastTradeId m := by
  have hahead : m.ahead = 1 := by
    unfold ExchangeMessage.ahead
    rw [hticker]
  -- where the register can move on, adding one is exact
  have hsucc : ∀ last ∈ lastTradeId, (last + 1).toNat = last.toNat + 1 := by
    intro last hlast
    have hlt := hbound last hlast
    rw [UInt64.toNat_add, UInt64.toNat_one]
    omega
  refine ⟨?_, ?_⟩
  · intro hquiet
    rcases lastTradeId with _ | last
    · rfl
    · have heq : m.tradeId = last + 1 := by
        apply UInt64.toNat_inj.mp
        rw [hquiet last rfl, hsucc last rfl, hahead]
      exact if_neg (not_not.mpr heq)
  · intro last hlast hgap
    cases hlast
    have hne : m.tradeId ≠ last + 1 := by
      intro heq
      rw [heq, hsucc last rfl, hahead] at hgap
      omega
    exact ⟨_, if_pos hne⟩

/-- A heartbeat that repeats the trade register is quiet, one ahead of it is not. -/
lemma answers_heartbeat {m : ExchangeMessage} (hheartbeat : m.channel = .heartbeat)
    (lastTradeId : Option UInt64) :
    Answers (lastTradeId.bind fun ours =>
      if m.tradeId > ours then some (.resubscribe (.heartbeatBehindExchange ours m.tradeId))
      else none) lastTradeId m := by
  have hahead : m.ahead = 0 := by
    unfold ExchangeMessage.ahead
    rw [hheartbeat]
  refine ⟨?_, ?_⟩
  · intro hquiet
    rcases lastTradeId with _ | last
    · rfl
    · refine if_neg ?_
      have heq := hquiet last rfl
      rw [gt_iff_lt, UInt64.lt_iff_toNat_lt]
      omega
  · intro last hlast hgap
    cases hlast
    refine ⟨_, if_pos ?_⟩
    rw [gt_iff_lt, UInt64.lt_iff_toNat_lt]
    omega

lemma received_subset_sent (events : List FeedEvent) : received events ⊆ sent events := by
  intro m hm
  obtain ⟨e, he, heq⟩ := List.mem_filterMap.mp hm
  refine List.mem_filterMap.mpr ⟨e, he, ?_⟩
  cases e with
  | deliver k t1Ns nowMs => exact heq
  | drop k => cases heq
  | other payload t1Ns nowMs => cases heq

lemma lastTickerId_mem {messages : List ExchangeMessage} {last : UInt64}
    (h : last ∈ lastTickerId messages) :
    ∃ m ∈ messages, m.channel = .ticker ∧ m.tradeId = last := by
  unfold lastTickerId at h
  obtain ⟨m, hm, rfl⟩ := Option.map_eq_some_iff.mp h
  have hmem := List.mem_filter.mp (List.mem_of_getLast? hm)
  exact ⟨m, hmem.1, of_decide_eq_true hmem.2, rfl⟩

/-- A delivered message: the session answers by its trade id alone, and keeps on tracking. -/
lemma deliver_spec {s : Session} {name : List UInt8} {before : List FeedEvent}
    {m : ExchangeMessage} (htracks : Tracks s name before)
    (h : ExchangeStream name (sent before ++ [m])) (t1Ns nowMs : UInt64) (out : List Event) :
    Tracks (s.onMessage m.payload t1Ns nowMs out).session name (before ++ [.deliver m t1Ns nowMs]) ∧
      Answers (s.onMessage m.payload t1Ns nowMs out).action (lastTickerId (received before)) m := by
  obtain ⟨p, hp, htrade, hseq⟩ := htracks.product
  have hnew := sequence_lt h hseq
  have hcarries : m.Carries name := h.carries m (List.mem_append_right _ List.mem_cons_self)
  -- an id that leaves room for its successor, as the stream promises
  have hbound : ∀ last ∈ lastTickerId (received before), last.toNat < 2 ^ 64 - 1 := by
    intro last hlast
    obtain ⟨k, hk, -, rfl⟩ := lastTickerId_mem hlast
    exact (h.bounded k (List.mem_append_left _ (received_subset_sent before hk))).2
  have hself : m ∈ sent (before ++ [.deliver m t1Ns nowMs]) := by
    rw [sent_append]
    exact List.mem_append_right _ List.mem_cons_self
  have hlast : lastTickerId (received (before ++ [.deliver m t1Ns nowMs]))
      = if m.channel = .ticker then some m.tradeId else lastTickerId (received before) := by
    rw [received_append]
    exact lastTickerId_concat _ _
  -- the two channels: only a ticker moves the baseline
  unfold ExchangeMessage.Carries at hcarries
  split at hcarries
  · rename_i hticker
    obtain ⟨stats, p', haction, hp', hseq', htrade'⟩ := onMessage_ticker hp hcarries t1Ns nowMs out
    refine ⟨⟨p', hp', ?_, ?_⟩, ?_⟩
    · rw [hlast, if_pos hticker, htrade']
    · intro last hmem
      rw [hseq'] at hmem
      cases hmem
      exact ⟨m, hself, rfl⟩
    · rw [haction, checkTicker_action hnew, htrade]
      exact answers_ticker hticker hbound
  · rename_i hheartbeat
    obtain ⟨stats, p', haction, hp', hseq', htrade'⟩ :=
      onMessage_heartbeat hp hcarries hnew t1Ns nowMs out
    refine ⟨⟨p', hp', ?_, ?_⟩, ?_⟩
    · rw [hlast, if_neg (by simp [hheartbeat]), htrade', htrade]
    · intro last hmem
      rw [hseq'] at hmem
      obtain ⟨_, -, rfl⟩ := Option.map_eq_some_iff.mp hmem
      exact ⟨m, hself, rfl⟩
    · rw [haction, checkHeartbeat_action, htrade]
      exact answers_heartbeat hheartbeat _

/-- A session with a fresh baseline tracks the stream from the start, through every message. -/
lemma tracks_feed {s : Session} {name : List UInt8} {p : Product} (hp : s.productOf name = some p)
    (hseq : p.lastSeq = none) (htrade : p.lastTradeId = none) (out : List Event)
    {events : List FeedEvent} (hstream : ExchangeStream name (sent events))
    (hother : ∀ payload t1Ns nowMs, .other payload t1Ns nowMs ∈ events →
      CefiParser.coinbaseProductId payload ≠ some name) :
    Tracks (events.foldl feed (s, out)).1 name events := by
  -- from the end: the session has answered every event but the last
  induction events using List.reverseRecOn with
  | nil =>
    refine ⟨p, hp, htrade, ?_⟩
    rw [hseq]
    intro last hlast
    cases hlast
  | append_singleton events e ih =>
    rw [sent_append] at hstream
    have htracks := ih hstream.left fun payload t1Ns nowMs hmem =>
      hother payload t1Ns nowMs (List.mem_append_left _ hmem)
    rw [List.foldl_append]
    cases e with
    | deliver m t1Ns nowMs => exact (deliver_spec htracks hstream t1Ns nowMs _).1
    | drop m =>
      obtain ⟨q, hq, htrade, hseq⟩ := htracks.product
      refine ⟨q, hq, ?_, ?_⟩
      · rw [htrade, received_append]
        exact congrArg lastTickerId (List.append_nil _).symm
      · intro last hlast
        obtain ⟨k, hk, heq⟩ := hseq last hlast
        rw [sent_append]
        exact ⟨k, List.mem_append_left _ hk, heq⟩
    | other payload t1Ns nowMs =>
      obtain ⟨q, hq, htrade, hseq⟩ := htracks.product
      -- a message of another product touches no baseline of this one
      have hne := hother payload t1Ns nowMs (List.mem_append_right _ List.mem_cons_self)
      refine ⟨q, (productOf_onMessage_of_ne hne t1Ns nowMs _).trans hq, ?_, ?_⟩
      · rw [htrade, received_append]
        exact congrArg lastTickerId (List.append_nil _).symm
      · intro last hlast
        obtain ⟨k, hk, heq⟩ := hseq last hlast
        rw [sent_append]
        exact ⟨k, List.mem_append_left _ hk, heq⟩

/-! ## Lost tickers -/

/-- While no ticker is dropped after the first delivered one, the last ticker received is the
last one sent. -/
lemma lastTickerId_received {events : List FeedEvent}
    (h : ∀ before m after, events = before ++ .drop m :: after → m.channel = .ticker →
      ∀ k ∈ received before, k.channel ≠ .ticker) :
    (∀ k ∈ received events, k.channel ≠ .ticker) ∨
      lastTickerId (received events) = lastTickerId (sent events) := by
  -- from the end, since the last ticker is the one that counts
  induction events using List.reverseRecOn with
  | nil => exact .inr rfl
  | append_singleton events e ih =>
    have hprev := ih fun before m after heq =>
      h before m (after ++ [e]) (by rw [heq, List.append_assoc, List.cons_append])
    rw [received_append, sent_append]
    cases e with
    | deliver m t1Ns nowMs =>
      show (∀ k ∈ received events ++ [m], _) ∨
        lastTickerId (received events ++ [m]) = lastTickerId (sent events ++ [m])
      rw [lastTickerId_concat, lastTickerId_concat]
      by_cases hm : m.channel = .ticker
      · rw [if_pos hm, if_pos hm]
        exact .inr rfl
      · rw [if_neg hm, if_neg hm]
        refine hprev.imp_left fun hnone k hk => ?_
        rcases List.mem_append.mp hk with hk | hk
        · exact hnone k hk
        · rw [List.mem_singleton.mp hk]
          exact hm
    | drop m =>
      show (∀ k ∈ received events ++ [], _) ∨
        lastTickerId (received events ++ []) = lastTickerId (sent events ++ [m])
      rw [List.append_nil, lastTickerId_concat]
      by_cases hm : m.channel = .ticker
      -- a dropped ticker: by the hypothesis none was received before it
      · exact .inl (h events m [] rfl hm)
      · rw [if_neg hm]
        exact hprev
    | other payload t1Ns nowMs =>
      show (∀ k ∈ received events ++ [], _) ∨
        lastTickerId (received events ++ []) = lastTickerId (sent events ++ [])
      rw [List.append_nil, List.append_nil]
      exact hprev

/-- A received list that is not empty starts with a first delivery. -/
lemma exists_first_delivery {events : List FeedEvent} (h : received events ≠ []) :
    ∃ mid m t1Ns nowMs rest, events = mid ++ .deliver m t1Ns nowMs :: rest ∧ received mid = [] := by
  induction events with
  | nil => exact absurd rfl h
  | cons e events ih =>
    cases e with
    | deliver m t1Ns nowMs => exact ⟨[], m, t1Ns, nowMs, events, rfl, rfl⟩
    | drop k =>
      obtain ⟨mid, m, t1Ns, nowMs, rest, heq, hmid⟩ := ih h
      refine ⟨.drop k :: mid, m, t1Ns, nowMs, rest, ?_, hmid⟩
      rw [heq, List.cons_append]
    | other payload t1 now =>
      obtain ⟨mid, m, t1Ns, nowMs, rest, heq, hmid⟩ := ih h
      refine ⟨.other payload t1 now :: mid, m, t1Ns, nowMs, rest, ?_, hmid⟩
      rw [heq, List.cons_append]

/-- After a lost ticker the last ticker received is older than the last one sent. -/
lemma lastTickerId_lt_of_lost {name : List UInt8} {before mid : List FeedEvent}
    {m : ExchangeMessage} (hstream : ExchangeStream name (sent (before ++ .drop m :: mid)))
    (hticker : m.channel = .ticker) (hbaseline : ∃ first ∈ received before, first.channel = .ticker)
    (hmid : received mid = []) :
    ∃ ours exchange, lastTickerId (received (before ++ .drop m :: mid)) = some ours ∧
      lastTickerId (sent (before ++ .drop m :: mid)) = some exchange ∧
      ours.toNat < exchange.toNat := by
  have hreceived : received (before ++ .drop m :: mid) = received before := by
    rw [received_append]
    show received before ++ received mid = received before
    rw [hmid, List.append_nil]
  have hsent : sent (before ++ .drop m :: mid) = sent before ++ m :: sent mid := sent_append _ _
  obtain ⟨first, hfirst, hfirstTicker⟩ := hbaseline
  obtain ⟨k, hk, hkTicker, hours⟩ := lastTickerId_of_mem hfirst hfirstTicker
  rw [hreceived, hsent]
  rw [hsent] at hstream
  -- the last ticker received, the dropped one and the last one sent, in this order
  obtain ⟨prev, hprev, hkle⟩ :=
    hstream.left.le_lastTickerId (received_subset_sent before hk) hkTicker
  have hstep := hstream.tradeIds (sent before) m (sent mid) rfl prev hprev
  have hahead : m.ahead = 1 := by
    unfold ExchangeMessage.ahead
    rw [hticker]
  obtain ⟨exchange, hexchange, hmle⟩ :=
    hstream.le_lastTickerId (List.mem_append_right _ List.mem_cons_self) hticker
  exact ⟨k.tradeId, exchange, hours, hexchange, by omega⟩

/-- A session with a fresh baseline that gets any part of a product's stream, between any
messages of other products: without a lost ticker it never answers with an action, and after
each lost ticker the first message it gets makes it ask for a resubscription. -/
theorem detects_lost_tickers {s : Session} {name : List UInt8} {p : Product}
    (hp : s.productOf name = some p) (hseq : p.lastSeq = none) (htrade : p.lastTradeId = none)
    (out : List Event) {events : List FeedEvent} (hstream : ExchangeStream name (sent events))
    (hother : ∀ payload t1Ns nowMs, .other payload t1Ns nowMs ∈ events →
      CefiParser.coinbaseProductId payload ≠ some name) :
    ((∀ before m after, ¬ LostTicker events before m after) →
      ∀ before m t1Ns nowMs after, events = before ++ .deliver m t1Ns nowMs :: after →
        actionFor (s, out) before m t1Ns nowMs = none) ∧
    (∀ before m after, LostTicker events before m after →
      ∃ mid next t1Ns nowMs rest, after = mid ++ .deliver next t1Ns nowMs :: rest ∧
        received mid = [] ∧
        ∃ reason, actionFor (s, out) (before ++ .drop m :: mid) next t1Ns nowMs
          = some (.resubscribe reason)) := by
  -- what the session answers to a delivery, wherever it comes
  have hanswer : ∀ before m t1Ns nowMs after, events = before ++ .deliver m t1Ns nowMs :: after →
      ExchangeStream name (sent before ++ [m]) ∧
      Answers (actionFor (s, out) before m t1Ns nowMs) (lastTickerId (received before)) m := by
    intro before m t1Ns nowMs after heq
    have hsplit : sent events = (sent before ++ [m]) ++ sent after := by
      rw [heq, sent_append, List.append_assoc]
      rfl
    rw [hsplit] at hstream
    have htracks := tracks_feed hp hseq htrade out hstream.left.left
      fun payload t1 now hmem => hother payload t1 now (heq ▸ List.mem_append_left _ hmem)
    exact ⟨hstream.left, (deliver_spec htracks hstream.left t1Ns nowMs _).2⟩
  refine ⟨?_, ?_⟩
  · intro hlost before m t1Ns nowMs after heq
    obtain ⟨hpre, hans⟩ := hanswer before m t1Ns nowMs after heq
    apply hans.quiet
    intro last hlast
    have hnodrop : ∀ pre k post, before = pre ++ .drop k :: post → k.channel = .ticker →
        ∀ j ∈ received pre, j.channel ≠ .ticker := by
      intro pre k post hbefore hk j hj hjTicker
      refine hlost pre k (post ++ .deliver m t1Ns nowMs :: after)
        ⟨?_, hk, ⟨j, hj, hjTicker⟩, ?_⟩
      · rw [heq, hbefore, List.append_assoc, List.cons_append]
      · rw [received_append]
        exact List.append_ne_nil_of_right_ne_nil _ (List.cons_ne_nil _ _)
    rcases lastTickerId_received hnodrop with hnone | hsame
    · obtain ⟨k, hk, hkTicker, -⟩ := lastTickerId_mem hlast
      exact absurd hkTicker (hnone k hk)
    · rw [hsame] at hlast
      exact hpre.tradeIds (sent before) m [] rfl last hlast
  · intro before m after hlost
    obtain ⟨mid, next, t1Ns, nowMs, rest, hafter, hmid⟩ := exists_first_delivery hlost.followed
    have heq : events = (before ++ .drop m :: mid) ++ .deliver next t1Ns nowMs :: rest := by
      rw [hlost.split, hafter, List.append_assoc, List.cons_append]
    obtain ⟨hpre, hans⟩ := hanswer _ next t1Ns nowMs rest heq
    obtain ⟨ours, exchange, hours, hexchange, hlt⟩ :=
      lastTickerId_lt_of_lost hpre.left hlost.ticker hlost.baseline hmid
    refine ⟨mid, next, t1Ns, nowMs, rest, hafter, hmid, ?_⟩
    apply hans.alarm ours hours
    have hnext := hpre.tradeIds _ next [] rfl exchange hexchange
    omega

/-- The bytes of a heartbeat in the format of the exchange. -/
def heartbeatBytes (product sequence lastTradeId : String) : List UInt8 :=
  Bytes.ofString ("\x7b\"type\":\"heartbeat\",\"last_trade_id\":" ++ lastTradeId
    ++ ",\"product_id\":\"" ++ product ++ "\",\"sequence\":" ++ sequence ++ "\x7d")

/-- The ticker that sets the baseline, the one that is lost, and the heartbeat after it. -/
def baselineTicker : ExchangeMessage := ⟨.ticker, 10, 100, tickerBytes "BTC-USD" "10" "100"⟩

def lostTicker : ExchangeMessage := ⟨.ticker, 13, 101, tickerBytes "BTC-USD" "13" "101"⟩

def nextHeartbeat : ExchangeMessage :=
  ⟨.heartbeat, 14, 101, heartbeatBytes "BTC-USD" "14" "101"⟩

def lossyFeed : List FeedEvent :=
  [.deliver baselineTicker 1 1, .drop lostTicker,
    .other (heartbeatBytes "ETH-USD" "7" "3") 2 2, .deliver nextHeartbeat 3 3]

lemma exchangeStream_lossyFeed : ExchangeStream (Bytes.ofString "BTC-USD") (sent lossyFeed) := by
  have hsent : sent lossyFeed = [baselineTicker, lostTicker, nextHeartbeat] := rfl
  rw [hsent]
  refine ⟨?_, ?_, ?_, ?_⟩
  · have hbaseline : IsTicker (Bytes.ofString "BTC-USD") baselineTicker.payload 10 100 := by
      decide +kernel
    have hlost : IsTicker (Bytes.ofString "BTC-USD") lostTicker.payload 13 101 := by
      decide +kernel
    have hnext : IsHeartbeat (Bytes.ofString "BTC-USD") nextHeartbeat.payload 14 101 := by
      decide +kernel
    simp only [List.forall_mem_cons]
    exact ⟨hbaseline, hlost, hnext, by simp⟩
  · simp only [List.forall_mem_cons]
    decide
  · decide
  · intro before m after heq last hlast
    -- a message after the first or after the second
    rcases before with _ | ⟨m0, _ | ⟨m1, _ | ⟨m2, before⟩⟩⟩
    · cases hlast
    · obtain ⟨rfl, rfl, -⟩ : baselineTicker = m0 ∧ lostTicker = m ∧ _ := by simpa using heq
      cases hlast
      rfl
    · obtain ⟨rfl, rfl, rfl, -⟩ :
          baselineTicker = m0 ∧ lostTicker = m1 ∧ nextHeartbeat = m ∧ _ := by simpa using heq
      cases hlast
      rfl
    · simp at heq

theorem detects_lost_tickers_lossyFeed :
    LostTicker lossyFeed [.deliver baselineTicker 1 1] lostTicker (lossyFeed.drop 2) ∧
    ∃ mid next t1Ns nowMs rest, lossyFeed.drop 2 = mid ++ .deliver next t1Ns nowMs :: rest ∧
      received mid = [] ∧
      ∃ reason, actionFor (Session.new [Bytes.ofString "BTC-USD", Bytes.ofString "ETH-USD"] 10000, [])
        ([.deliver baselineTicker 1 1] ++ .drop lostTicker :: mid) next t1Ns nowMs
          = some (.resubscribe reason) := by
  have hlost :
      LostTicker lossyFeed [.deliver baselineTicker 1 1] lostTicker (lossyFeed.drop 2) :=
    ⟨rfl, rfl, ⟨baselineTicker, List.mem_cons_self, rfl⟩, List.cons_ne_nil _ _⟩
  refine ⟨hlost, ?_⟩
  refine (detects_lost_tickers (p := ⟨Bytes.ofString "BTC-USD", 1, none, none, 0⟩) ?_ rfl rfl []
    exchangeStream_lossyFeed ?_).2 _ _ _ hlost
  · decide +kernel
  · intro payload t1Ns nowMs hmem
    simp only [lossyFeed, List.mem_cons, FeedEvent.other.injEq, reduceCtorEq, false_or,
      List.not_mem_nil, or_false] at hmem
    rw [hmem.1]
    decide +kernel

end ChainMarketPrice.LiveFeed
