import ChainMarketPrice.LiveFeed.TradeEmission

/-!
# Messages that cannot be used

A ticker or a heartbeat that the session cannot use is counted as malformed or under an unknown
product and changes nothing else, but for one kind: a heartbeat of a known product without its
sequence number or its trade id is dropped without a trace.
-/

namespace ChainMarketPrice.LiveFeed

open CefiIngest Session SessionRun

/-- The messages that belong to a product. -/
inductive MessageKind
  | ticker
  | heartbeat
deriving Repr, DecidableEq

namespace MessageKind

/-- The `type` field. -/
def type : MessageKind → List UInt8
  | ticker => Bytes.ofString "ticker"
  | heartbeat => Bytes.ofString "heartbeat"

/-- The fields that the handler of a message needs are present. -/
def HasFields (payload : List UInt8) : MessageKind → Prop
  | ticker =>
    (extractJsonIntField payload (keyOf "sequence")).isSome ∧
      (extractJsonIntField payload (keyOf "trade_id")).isSome ∧
      ∀ field ∈ tickerFields, HasStrField payload field
  | heartbeat =>
    (CefiParser.coinbaseSequence payload).isSome ∧ (CefiParser.coinbaseTradeId payload).isSome

instance decidableHasFields (payload : List UInt8) : (kind : MessageKind) →
    Decidable (kind.HasFields payload)
  | ticker => inferInstanceAs (Decidable (_ ∧ _ ∧ ∀ field ∈ tickerFields, _))
  | heartbeat => inferInstanceAs (Decidable (_ ∧ _))

/-- The handler of a message. -/
def handle (s : Session) (payload : List UInt8) (t1Ns : UInt64) (out : List Event) :
    MessageKind → Outcome
  | ticker => s.onTicker payload t1Ns out
  | heartbeat => s.onHeartbeat payload out

end MessageKind

/-- The counter goes up by one; at its bound it cannot. -/
def Grows (before after : UInt64) : Prop := after.toNat = before.toNat + 1

instance decidableGrows (before after : UInt64) : Decidable (Grows before after) :=
  inferInstanceAs (Decidable (_ = _))

/-- The product is known, the fields are present, and neither counter moves. -/
def Used (s : Session) (kind : MessageKind) (payload : List UInt8) (o : Outcome) : Prop :=
  (productFor s payload).isSome ∧ kind.HasFields payload ∧
    o.session.stats.malformed = s.stats.malformed ∧
    o.session.stats.unknownProduct = s.stats.unknownProduct

instance decidableUsed (s : Session) (kind : MessageKind) (payload : List UInt8) (o : Outcome) :
    Decidable (Used s kind payload o) :=
  inferInstanceAs (Decidable (_ ∧ _))

/-- One of the two counters goes up by one, and the products and the output stay. -/
def CountedOnce (s : Session) (out : List Event) (o : Outcome) : Prop :=
  (Grows s.stats.malformed o.session.stats.malformed ∧
        o.session.stats.unknownProduct = s.stats.unknownProduct ∨
      o.session.stats.malformed = s.stats.malformed ∧
        Grows s.stats.unknownProduct o.session.stats.unknownProduct) ∧
    o.session.products = s.products ∧ o.out = out

instance decidableCountedOnce (s : Session) (out : List Event) (o : Outcome) :
    Decidable (CountedOnce s out o) :=
  inferInstanceAs (Decidable ((_ ∨ _) ∧ _))

/-- When a message is accounted for: a heartbeat of a known product is complete, and the counter
that an unusable message needs is not at its bound. -/
def Accountable (s : Session) (kind : MessageKind) (payload : List UInt8) : Prop :=
  match CefiParser.coinbaseProductId payload with
  | none => s.stats.malformed.toNat + 1 < 2 ^ 64
  | some name =>
    if (s.productOf name).isSome then
      kind.HasFields payload ∨ kind = .ticker ∧ s.stats.malformed.toNat + 1 < 2 ^ 64
    else s.stats.unknownProduct.toNat + 1 < 2 ^ 64

instance decidableAccountable (s : Session) (kind : MessageKind) (payload : List UInt8) :
    Decidable (Accountable s kind payload) :=
  match hid : CefiParser.coinbaseProductId payload with
  | none =>
    decidable_of_iff (s.stats.malformed.toNat + 1 < 2 ^ 64) (by rw [Accountable, hid])
  | some name =>
    decidable_of_iff
      (if (s.productOf name).isSome then
        kind.HasFields payload ∨ kind = .ticker ∧ s.stats.malformed.toNat + 1 < 2 ^ 64
      else s.stats.unknownProduct.toNat + 1 < 2 ^ 64) (by rw [Accountable, hid])

/-! ## The two counters -/

lemma grows_iff (counter : UInt64) :
    Grows counter (counter + 1) ↔ counter.toNat + 1 < 2 ^ 64 := by
  have hsum : (counter + 1).toNat = (counter.toNat + 1) % 2 ^ 64 := UInt64.toNat_add counter 1
  have hlt : counter.toNat < 2 ^ 64 := counter.toNat_lt
  unfold Grows
  omega

lemma not_grows_self (counter : UInt64) : ¬ Grows counter counter := by
  unfold Grows
  omega

/-- Neither counter moved. -/
structure Kept (before after : Stats) : Prop where
  malformed : after.malformed = before.malformed
  unknownProduct : after.unknownProduct = before.unknownProduct

/-- An outcome that leaves the products and the output alone, with the counters after it. -/
structure PassedOver (products : List Product) (out : List Event)
    (malformed unknownProduct : UInt64) (o : Outcome) : Prop where
  malformed : o.session.stats.malformed = malformed
  unknownProduct : o.session.stats.unknownProduct = unknownProduct
  products : o.session.products = products
  out : o.out = out

variable {s : Session} {payload name : List UInt8} {kind : MessageKind} {out : List Event}
  {o : Outcome}

lemma PassedOver.countedOnce_malformed
    (h : PassedOver s.products out (s.stats.malformed + 1) s.stats.unknownProduct o) :
    CountedOnce s out o ↔ s.stats.malformed.toNat + 1 < 2 ^ 64 := by
  unfold CountedOnce
  rw [h.malformed, h.unknownProduct, h.products, h.out, grows_iff]
  constructor
  · rintro ⟨⟨hroom, -⟩ | ⟨-, hgrows⟩, -⟩
    · exact hroom
    · exact absurd hgrows (not_grows_self _)
  · intro hroom
    exact ⟨.inl ⟨hroom, rfl⟩, rfl, rfl⟩

lemma PassedOver.countedOnce_unknownProduct
    (h : PassedOver s.products out s.stats.malformed (s.stats.unknownProduct + 1) o) :
    CountedOnce s out o ↔ s.stats.unknownProduct.toNat + 1 < 2 ^ 64 := by
  unfold CountedOnce
  rw [h.malformed, h.unknownProduct, h.products, h.out, grows_iff]
  constructor
  · rintro ⟨⟨hgrows, -⟩ | ⟨-, hroom⟩, -⟩
    · exact absurd hgrows (not_grows_self _)
    · exact hroom
  · intro hroom
    exact ⟨.inr ⟨rfl, hroom⟩, rfl, rfl⟩

/-- A message that moves neither counter is not counted. -/
lemma Kept.not_countedOnce (h : Kept s.stats o.session.stats) : ¬ CountedOnce s out o := by
  unfold CountedOnce
  rw [h.malformed, h.unknownProduct]
  rintro ⟨⟨hgrows, -⟩ | ⟨-, hgrows⟩, -⟩
  · exact not_grows_self _ hgrows
  · exact not_grows_self _ hgrows

/-! ## The handlers -/

/-- The session as a handler finds it. -/
def withMessage (s : Session) (nowMs : UInt64) : Session :=
  { s with
    stats := { s.stats with messages := s.stats.messages + 1 }
    lastMessageMs := nowMs }

lemma onMessage_kind (htype : CefiParser.coinbaseMessageType payload = some kind.type)
    (s : Session) (t1Ns nowMs : UInt64) (out : List Event) :
    s.onMessage payload t1Ns nowMs out
      = kind.handle (withMessage s nowMs) payload t1Ns out := by
  unfold onMessage
  rw [htype]
  cases kind with
  | ticker => exact if_pos rfl
  | heartbeat =>
    have hne : MessageKind.heartbeat.type ≠ Bytes.ofString "ticker" := by decide
    exact (if_neg hne).trans (if_pos rfl)

lemma productIndex_of_no_id (hid : CefiParser.coinbaseProductId payload = none) (s : Session) :
    s.productIndex payload = (none, { s.stats with malformed := s.stats.malformed + 1 }) := by
  unfold productIndex
  rw [hid]

lemma findIdx_of_find_none {products : List Product}
    (h : (products.find? fun p => p.name = name) = none) :
    (products.findIdx? fun p => p.name = name) = none := by
  rw [List.findIdx?_eq_none_iff]
  intro p hp
  simpa using List.find?_eq_none.mp h p hp

lemma productIndex_of_unknown {products : List Product} {lastMessageMs staleAfterMs : UInt64}
    {stats : Stats} (hid : CefiParser.coinbaseProductId payload = some name)
    (hunknown : (products.find? fun p => p.name = name) = none) :
    productIndex ⟨products, lastMessageMs, staleAfterMs, stats⟩ payload
      = (none, { stats with unknownProduct := stats.unknownProduct + 1 }) := by
  unfold productIndex
  rw [hid]
  dsimp only
  rw [findIdx_of_find_none hunknown]

/-- Without a product id. -/
lemma handle_no_product (hid : CefiParser.coinbaseProductId payload = none) (t1Ns : UInt64) :
    PassedOver s.products out (s.stats.malformed + 1) s.stats.unknownProduct
      (kind.handle s payload t1Ns out) := by
  cases kind with
  | ticker =>
    show PassedOver _ _ _ _ (s.onTicker payload t1Ns out)
    unfold onTicker
    dsimp only
    rw [productIndex_of_no_id hid]
    exact ⟨rfl, rfl, rfl, rfl⟩
  | heartbeat =>
    show PassedOver _ _ _ _ (s.onHeartbeat payload out)
    unfold onHeartbeat
    dsimp only
    rw [productIndex_of_no_id hid]
    exact ⟨rfl, rfl, rfl, rfl⟩

/-- With the id of a product that the session does not have. -/
lemma handle_unknown_product (hid : CefiParser.coinbaseProductId payload = some name)
    (hunknown : s.productOf name = none) (t1Ns : UInt64) :
    PassedOver s.products out s.stats.malformed (s.stats.unknownProduct + 1)
      (kind.handle s payload t1Ns out) := by
  cases kind with
  | ticker =>
    show PassedOver _ _ _ _ (s.onTicker payload t1Ns out)
    unfold onTicker
    dsimp only
    rw [productIndex_of_unknown hid hunknown]
    exact ⟨rfl, rfl, rfl, rfl⟩
  | heartbeat =>
    show PassedOver _ _ _ _ (s.onHeartbeat payload out)
    unfold onHeartbeat
    dsimp only
    rw [productIndex_of_unknown hid hunknown]
    exact ⟨rfl, rfl, rfl, rfl⟩

lemma kept_checkTicker (p : Product) (stats : Stats) (seq tradeId : UInt64) :
    Kept stats (checkTicker p stats seq tradeId).2 := by
  have hsequence : Kept stats (checkSequence p stats seq).2 := by
    unfold checkSequence
    split
    · split
      · exact ⟨rfl, rfl⟩
      · exact ⟨rfl, rfl⟩
    · exact ⟨rfl, rfl⟩
  unfold checkTicker
  dsimp only
  split
  · split
    · exact ⟨hsequence.malformed, hsequence.unknownProduct⟩
    · exact hsequence
  · exact hsequence

lemma kept_checkHeartbeat (p : Product) (stats : Stats) (tradeId : UInt64) :
    Kept stats (checkHeartbeat p stats tradeId).2 := by
  unfold checkHeartbeat
  split
  · split
    · exact ⟨rfl, rfl⟩
    · exact ⟨rfl, rfl⟩
  · exact ⟨rfl, rfl⟩

variable {p : Product}

/-- A complete message of a known product is not counted. -/
lemma handle_complete (hid : CefiParser.coinbaseProductId payload = some name)
    (hp : s.productOf name = some p)
    (htype : CefiParser.coinbaseMessageType payload = some kind.type)
    (hfields : kind.HasFields payload) (t1Ns : UInt64) :
    Kept s.stats (kind.handle s payload t1Ns out).session.stats := by
  obtain ⟨idx, hidx, hget⟩ := exists_findIdx_of_find hp
  cases kind with
  | ticker =>
    obtain ⟨hsequence, htradeId, hstrings⟩ := hfields
    obtain ⟨sequence, hsequence⟩ := Option.isSome_iff_exists.mp hsequence
    obtain ⟨tradeId, htradeId⟩ := Option.isSome_iff_exists.mp htradeId
    -- a ticker with all its fields parses both as a quote and as a trade
    have hticker : IsTicker name payload sequence tradeId :=
      ⟨htype, hid, hsequence, htradeId, hstrings⟩
    obtain ⟨bbo, hbbo, -, -⟩ := hticker.parseBbo p.marketId t1Ns
    obtain ⟨trade, htrade, -, -, -⟩ := hticker.parseTrade p.marketId t1Ns
    show Kept s.stats (s.onTicker payload t1Ns out).session.stats
    unfold onTicker
    dsimp only
    rw [productIndex_of_find hid hidx]
    dsimp only
    rw [hget]
    dsimp only
    rw [hbbo, htrade]
    dsimp only
    have hcheck := kept_checkTicker p { s.stats with tickers := s.stats.tickers + 1 } bbo.sequence
      trade.tradeId
    split
    · exact ⟨hcheck.malformed, hcheck.unknownProduct⟩
    · exact ⟨hcheck.malformed, hcheck.unknownProduct⟩
  | heartbeat =>
    obtain ⟨seq, hseq⟩ := Option.isSome_iff_exists.mp hfields.1
    obtain ⟨tradeId, htradeId⟩ := Option.isSome_iff_exists.mp hfields.2
    show Kept s.stats (s.onHeartbeat payload out).session.stats
    unfold onHeartbeat
    dsimp only
    rw [productIndex_of_find hid hidx, hseq, htradeId]
    dsimp only
    rw [hget]
    dsimp only
    -- only the counters of gaps and heartbeats move
    have hcheck : ∀ p, Kept s.stats
        (checkHeartbeat p { s.stats with heartbeats := s.stats.heartbeats + 1 } tradeId).2 :=
      fun p => ⟨(kept_checkHeartbeat p _ tradeId).malformed,
        (kept_checkHeartbeat p _ tradeId).unknownProduct⟩
    split
    · split
      · exact ⟨rfl, rfl⟩
      · exact hcheck _
    · exact hcheck _

/-- An incomplete ticker of a known product is malformed. -/
lemma handle_incomplete_ticker (hid : CefiParser.coinbaseProductId payload = some name)
    (hp : s.productOf name = some p)
    (htype : CefiParser.coinbaseMessageType payload = some MessageKind.ticker.type)
    (hfields : ¬ MessageKind.ticker.HasFields payload) (t1Ns : UInt64) :
    PassedOver s.products out (s.stats.malformed + 1) s.stats.unknownProduct
      (MessageKind.ticker.handle s payload t1Ns out) := by
  obtain ⟨idx, hidx, hget⟩ := exists_findIdx_of_find hp
  show PassedOver _ _ _ _ (s.onTicker payload t1Ns out)
  unfold onTicker
  dsimp only
  rw [productIndex_of_find hid hidx]
  dsimp only
  rw [hget]
  dsimp only
  split
  · rename_i bbo trade hbbo htrade
    obtain ⟨sequence, tradeId, hticker⟩ := isTicker_of_parse htype hid hbbo htrade
    refine absurd ⟨?_, ?_, hticker.fields⟩ hfields
    · rw [hticker.sequence]
      rfl
    · rw [hticker.tradeId]
      rfl
  · exact ⟨rfl, rfl, rfl, rfl⟩

/-- An incomplete heartbeat of a known product is dropped and not counted. -/
lemma handle_incomplete_heartbeat (hid : CefiParser.coinbaseProductId payload = some name)
    (hp : s.productOf name = some p) (hfields : ¬ MessageKind.heartbeat.HasFields payload)
    (t1Ns : UInt64) :
    Kept s.stats (MessageKind.heartbeat.handle s payload t1Ns out).session.stats := by
  obtain ⟨idx, hidx, hget⟩ := exists_findIdx_of_find hp
  show Kept s.stats (s.onHeartbeat payload out).session.stats
  unfold onHeartbeat
  dsimp only
  rw [productIndex_of_find hid hidx]
  dsimp only
  split
  · rename_i seq tradeId hseq htradeId
    refine absurd ⟨?_, ?_⟩ hfields
    · rw [hseq]
      rfl
    · rw [htradeId]
      rfl
  · exact ⟨rfl, rfl⟩

/-! ## Every message -/

/-- The claim about one call: the message is used, or it is counted once, and not both. -/
def AccountedFor (s : Session) (kind : MessageKind) (payload : List UInt8) (out : List Event)
    (o : Outcome) : Prop :=
  Xor (Used s kind payload o) (CountedOnce s out o)

instance decidableAccountedFor (s : Session) (kind : MessageKind) (payload : List UInt8)
    (out : List Event) (o : Outcome) : Decidable (AccountedFor s kind payload out o) :=
  inferInstanceAs (Decidable (Xor _ _))

lemma accountedFor_of_not_used (h : ¬ Used s kind payload o) :
    AccountedFor s kind payload out o ↔ CountedOnce s out o := by
  constructor
  · rintro (⟨hused, -⟩ | ⟨hcounted, -⟩)
    · exact absurd hused h
    · exact hcounted
  · intro hcounted
    exact .inr ⟨hcounted, h⟩

lemma productFor_isSome_iff (hid : CefiParser.coinbaseProductId payload = some name)
    (s : Session) : (productFor s payload).isSome ↔ (s.productOf name).isSome := by
  rw [productFor_eq hid]

/-- A message of a known product is used when it is complete, and else counted if it is a
ticker. -/
lemma accountedFor_known_iff (hid : CefiParser.coinbaseProductId payload = some name)
    (hp : s.productOf name = some p)
    (htype : CefiParser.coinbaseMessageType payload = some kind.type) (t1Ns nowMs : UInt64) :
    AccountedFor s kind payload out (kind.handle (withMessage s nowMs) payload t1Ns out)
      ↔ kind.HasFields payload ∨
        kind = .ticker ∧ s.stats.malformed.toNat + 1 < 2 ^ 64 := by
  have hreceived : (withMessage s nowMs).productOf name = some p := hp
  by_cases hfields : kind.HasFields payload
  · have hkept : Kept s.stats
        (kind.handle (withMessage s nowMs) payload t1Ns out).session.stats := by
      have hcomplete : Kept (withMessage s nowMs).stats
          (kind.handle (withMessage s nowMs) payload t1Ns out).session.stats :=
        handle_complete hid hreceived htype hfields t1Ns
      exact ⟨hcomplete.malformed, hcomplete.unknownProduct⟩
    have hknown : (productFor s payload).isSome := by
      rw [productFor_isSome_iff hid, hp]
      rfl
    have hnot : ¬ CountedOnce s out (kind.handle (withMessage s nowMs) payload t1Ns out) :=
      hkept.not_countedOnce
    constructor
    · intro _
      exact .inl hfields
    · intro _
      exact .inl ⟨⟨hknown, hfields, hkept.malformed, hkept.unknownProduct⟩, hnot⟩
  · rw [accountedFor_of_not_used fun h => hfields h.2.1]
    cases kind with
    | ticker =>
      have hpassed : PassedOver s.products out (s.stats.malformed + 1) s.stats.unknownProduct
          (MessageKind.ticker.handle (withMessage s nowMs) payload t1Ns out) :=
        handle_incomplete_ticker hid hreceived htype hfields t1Ns
      refine hpassed.countedOnce_malformed.trans ?_
      constructor
      · intro hroom
        exact .inr ⟨rfl, hroom⟩
      · rintro (hcomplete | ⟨-, hroom⟩)
        · exact absurd hcomplete hfields
        · exact hroom
    | heartbeat =>
      -- the handler returns early and moves no counter
      have hkept : Kept (withMessage s nowMs).stats
          (MessageKind.heartbeat.handle (withMessage s nowMs) payload t1Ns out).session.stats :=
        handle_incomplete_heartbeat hid hreceived hfields t1Ns
      have hnot : ¬ CountedOnce s out
          (MessageKind.heartbeat.handle (withMessage s nowMs) payload t1Ns out) :=
        Kept.not_countedOnce ⟨hkept.malformed, hkept.unknownProduct⟩
      constructor
      · intro hcounted
        exact absurd hcounted hnot
      · rintro (hcomplete | ⟨hticker, -⟩)
        · exact absurd hcomplete hfields
        · cases hticker

/-- A message is used or counted once, unless it is an incomplete heartbeat of a known product
or the counter stands at its bound. -/
theorem unusable_counted_iff (htype : CefiParser.coinbaseMessageType payload = some kind.type)
    (s : Session) (t1Ns nowMs : UInt64) (out : List Event) :
    AccountedFor s kind payload out (s.onMessage payload t1Ns nowMs out)
      ↔ Accountable s kind payload := by
  rw [onMessage_kind htype]
  unfold Accountable
  rcases hid : CefiParser.coinbaseProductId payload with _ | name
  · have hunknown : ¬ (productFor s payload).isSome := by
      unfold productFor
      rw [hid, Option.bind_none]
      decide
    rw [accountedFor_of_not_used fun h => hunknown h.1]
    exact (handle_no_product (s := withMessage s nowMs) hid t1Ns).countedOnce_malformed
  · dsimp only
    rcases hp : s.productOf name with _ | p
    · have hunknown : ¬ (productFor s payload).isSome := by
        rw [productFor_isSome_iff hid, hp]
        decide
      rw [accountedFor_of_not_used fun h => hunknown h.1]
      exact (handle_unknown_product (s := withMessage s nowMs) hid hp t1Ns).countedOnce_unknownProduct
    · rw [if_pos Option.isSome_some]
      exact accountedFor_known_iff hid hp htype t1Ns nowMs

/-- A session with one product. -/
def oneProduct : Session := Session.new [Bytes.ofString "BTC-USD"] 10000

/-- A ticker without the fields of a ticker. -/
def bareTicker : List UInt8 :=
  Bytes.ofString "\x7b\"type\":\"ticker\",\"product_id\":\"BTC-USD\"\x7d"

theorem unusable_counted_iff_bareTicker :
    AccountedFor oneProduct .ticker bareTicker [] (oneProduct.onMessage bareTicker 1 1 []) := by
  have htype : CefiParser.coinbaseMessageType bareTicker = some MessageKind.ticker.type := by
    decide +kernel
  exact (unusable_counted_iff htype oneProduct 1 1 []).mpr (by decide +kernel)

/-- A heartbeat without the fields of a heartbeat. -/
def bareHeartbeat : List UInt8 :=
  Bytes.ofString "\x7b\"type\":\"heartbeat\",\"product_id\":\"BTC-USD\"\x7d"

/-- It is neither used nor counted. -/
theorem bare_heartbeat_uncounted :
    CefiParser.coinbaseMessageType bareHeartbeat = some MessageKind.heartbeat.type ∧
      ¬ AccountedFor oneProduct .heartbeat bareHeartbeat []
        (oneProduct.onMessage bareHeartbeat 1 1 []) :=
  ⟨by decide +kernel, by decide +kernel⟩

end ChainMarketPrice.LiveFeed
