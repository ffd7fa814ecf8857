import ChainMarketPrice.LiveFeed.Session

/-!
# What a message does to a session

A message changes at most one product, the first one with the message's product id
(`onMessage_products`), so the messages of other products leave a product alone
(`productOf_onMessage_of_ne`). For a product's own well-formed messages the handlers reduce to
their checks against the product's registers (`onMessage_ticker`, `onMessage_heartbeat`).
-/

namespace ChainMarketPrice.LiveFeed
namespace Session

open CefiIngest

/-- The product that messages with this product id go to. -/
def productOf (s : Session) (name : List UInt8) : Option Product :=
  s.products.find? fun p => p.name = name

/-! ## The list of products -/

/-- The product found by name stands at the position found by name. -/
lemma exists_findIdx_of_find {products : List Product} {name : List UInt8} {p : Product}
    (h : (products.find? fun p => p.name = name) = some p) :
    ∃ idx, (products.findIdx? fun p => p.name = name) = some idx ∧ products[idx]? = some p := by
  induction products with
  | nil => simp at h
  | cons q products ih =>
    by_cases hq : q.name = name
    · rw [List.find?_cons_of_pos (by simpa using hq)] at h
      refine ⟨0, ?_, h⟩
      simp [List.findIdx?_cons, hq]
    · rw [List.find?_cons_of_neg (by simpa using hq)] at h
      obtain ⟨idx, hidx, hp⟩ := ih h
      refine ⟨idx + 1, ?_, hp⟩
      simp [List.findIdx?_cons, hq, hidx]

/-- A change of the product at the position found by name shows under this name only. -/
lemma find_set_findIdx {products : List Product} {id : List UInt8} {idx : ℕ} {p p' : Product}
    (hidx : (products.findIdx? fun p => p.name = id) = some idx) (hp : products[idx]? = some p)
    (hname : p'.name = p.name) (name : List UInt8) :
    ((products.set idx p').find? fun p => p.name = name)
      = if name = id then some p' else products.find? fun p => p.name = name := by
  induction products generalizing idx with
  | nil => simp at hidx
  | cons q products ih =>
    rw [List.findIdx?_cons] at hidx
    -- the first product of the name is the one at the position
    by_cases hq : q.name = id
    · simp only [hq, decide_true, if_true, Option.some.injEq] at hidx
      subst hidx
      simp only [List.getElem?_cons_zero, Option.some.injEq] at hp
      subst hp
      rw [List.set_cons_zero]
      by_cases hn : name = id
      · rw [if_pos hn, List.find?_cons_of_pos (by simp [hname, hq, hn])]
      · have hq' : q.name ≠ name := by
          rw [hq]
          exact fun h => hn h.symm
        rw [if_neg hn, List.find?_cons_of_neg (by simpa [hname] using hq'),
          List.find?_cons_of_neg (by simpa using hq')]
    · simp only [hq, decide_false, Bool.false_eq_true, if_false, Option.map_eq_some_iff] at hidx
      obtain ⟨i, hi, rfl⟩ := hidx
      -- the position lies behind this product
      have hrest := ih hi (by simpa using hp)
      rw [List.set_cons_succ]
      by_cases hn : q.name = name
      · have hne : name ≠ id := by
          rw [← hn]
          exact hq
        rw [List.find?_cons_of_pos (by simpa using hn), if_neg hne,
          List.find?_cons_of_pos (by simpa using hn)]
      · rw [List.find?_cons_of_neg (by simpa using hn), hrest,
          List.find?_cons_of_neg (by simpa using hn)]

/-! ## Which product a message changes -/

/-- The products are untouched, or the one the message names has new registers. -/
def Touches (s : Session) (payload : List UInt8) (products : List Product) : Prop :=
  products = s.products ∨
    ∃ id idx p p', CefiParser.coinbaseProductId payload = some id ∧
      (s.products.findIdx? fun p => p.name = id) = some idx ∧ s.products[idx]? = some p ∧
      p'.name = p.name ∧ products = s.products.set idx p'

/-- An index found for a message is the position of the product it names. -/
lemma productIndex_some {s : Session} {payload : List UInt8} {idx : ℕ}
    (h : (s.productIndex payload).1 = some idx) :
    ∃ id, CefiParser.coinbaseProductId payload = some id ∧
      (s.products.findIdx? fun p => p.name = id) = some idx := by
  unfold productIndex at h
  split at h
  · cases h
  · rename_i id hid
    refine ⟨id, hid, ?_⟩
    split at h
    · rename_i i hi
      rw [hi]
      exact h
    · cases h

lemma onTicker_products (s : Session) (payload : List UInt8) (t1Ns : UInt64) (out : List Event) :
    Touches s payload (s.onTicker payload t1Ns out).session.products := by
  unfold onTicker
  dsimp only
  split
  · exact .inl rfl
  · rename_i idx hidx
    obtain ⟨id, hid, hfind⟩ := productIndex_some hidx
    split
    · exact .inl rfl
    · rename_i p hp
      split
      · split
        · refine .inr ⟨id, idx, p, _, hid, hfind, hp, ?_, rfl⟩
          rfl
        · refine .inr ⟨id, idx, p, _, hid, hfind, hp, ?_, rfl⟩
          rfl
      · exact .inl rfl

lemma onHeartbeat_products (s : Session) (payload : List UInt8) (out : List Event) :
    Touches s payload (s.onHeartbeat payload out).session.products := by
  unfold onHeartbeat
  dsimp only
  split
  · exact .inl rfl
  · rename_i idx hidx
    obtain ⟨id, hid, hfind⟩ := productIndex_some hidx
    split
    · split
      · exact .inl rfl
      · rename_i p hp
        split
        · split
          · exact .inl rfl
          · refine .inr ⟨id, idx, p, _, hid, hfind, hp, ?_, rfl⟩
            rfl
        · exact .inl rfl
    · exact .inl rfl

lemma onMessage_products (s : Session) (payload : List UInt8) (t1Ns nowMs : UInt64)
    (out : List Event) : Touches s payload (s.onMessage payload t1Ns nowMs out).session.products := by
  unfold onMessage
  dsimp only
  split
  · exact .inl rfl
  · split
    · exact onTicker_products _ payload t1Ns out
    · split
      · exact onHeartbeat_products _ payload out
      · split
        · exact .inl rfl
        · exact .inl rfl

/-- A message of another product, or of none, leaves the product alone. -/
lemma productOf_onMessage_of_ne {s : Session} {payload name : List UInt8}
    (h : CefiParser.coinbaseProductId payload ≠ some name) (t1Ns nowMs : UInt64)
    (out : List Event) :
    (s.onMessage payload t1Ns nowMs out).session.productOf name = s.productOf name := by
  unfold productOf
  rcases onMessage_products s payload t1Ns nowMs out with
    hsame | ⟨id, idx, p, p', hid, hidx, hp, hname, hset⟩
  · rw [hsame]
  · have hne : name ≠ id := by
      intro heq
      rw [heq] at h
      exact h hid
    rw [hset, find_set_findIdx hidx hp hname, if_neg hne]

/-! ## Well-formed messages of a product -/

/-- A string field is present. -/
def HasStrField (payload : List UInt8) (name : String) : Prop :=
  (extractJsonStrField payload (keyOf name)).toOption.isSome = true

instance decidableHasStrField (payload : List UInt8) (name : String) :
    Decidable (HasStrField payload name) :=
  inferInstanceAs (Decidable (_ = true))

/-- The string fields a ticker must have. -/
def tickerFields : List String :=
  ["best_bid", "best_bid_size", "best_ask", "best_ask_size", "price", "last_size", "side"]

/-- A complete ticker of the product with the given sequence number and trade id. -/
structure IsTicker (name payload : List UInt8) (sequence tradeId : UInt64) : Prop where
  type : CefiParser.coinbaseMessageType payload = some (Bytes.ofString "ticker")
  product : CefiParser.coinbaseProductId payload = some name
  sequence : extractJsonIntField payload (keyOf "sequence") = some sequence
  tradeId : extractJsonIntField payload (keyOf "trade_id") = some tradeId
  fields : ∀ field ∈ tickerFields, HasStrField payload field

/-- A complete heartbeat of the product with the given sequence number and last trade id. -/
structure IsHeartbeat (name payload : List UInt8) (sequence tradeId : UInt64) : Prop where
  type : CefiParser.coinbaseMessageType payload = some (Bytes.ofString "heartbeat")
  product : CefiParser.coinbaseProductId payload = some name
  sequence : CefiParser.coinbaseSequence payload = some sequence
  tradeId : CefiParser.coinbaseTradeId payload = some tradeId

instance decidableIsTicker (name payload : List UInt8) (sequence tradeId : UInt64) :
    Decidable (IsTicker name payload sequence tradeId) :=
  decidable_of_iff
    (CefiParser.coinbaseMessageType payload = some (Bytes.ofString "ticker") ∧
      CefiParser.coinbaseProductId payload = some name ∧
      extractJsonIntField payload (keyOf "sequence") = some sequence ∧
      extractJsonIntField payload (keyOf "trade_id") = some tradeId ∧
      ∀ field ∈ tickerFields, HasStrField payload field)
    ⟨fun ⟨h1, h2, h3, h4, h5⟩ => ⟨h1, h2, h3, h4, h5⟩, fun ⟨h1, h2, h3, h4, h5⟩ =>
      ⟨h1, h2, h3, h4, h5⟩⟩

instance decidableIsHeartbeat (name payload : List UInt8) (sequence tradeId : UInt64) :
    Decidable (IsHeartbeat name payload sequence tradeId) :=
  decidable_of_iff
    (CefiParser.coinbaseMessageType payload = some (Bytes.ofString "heartbeat") ∧
      CefiParser.coinbaseProductId payload = some name ∧
      CefiParser.coinbaseSequence payload = some sequence ∧
      CefiParser.coinbaseTradeId payload = some tradeId)
    ⟨fun ⟨h1, h2, h3, h4⟩ => ⟨h1, h2, h3, h4⟩, fun ⟨h1, h2, h3, h4⟩ => ⟨h1, h2, h3, h4⟩⟩

lemma HasStrField.exists_ok {payload : List UInt8} {name : String} (h : HasStrField payload name) :
    ∃ value, extractJsonStrField payload (keyOf name) = .ok value := by
  unfold HasStrField at h
  rcases hfield : extractJsonStrField payload (keyOf name) with _ | value
  · rw [hfield] at h
    cases h
  · exact ⟨value, rfl⟩

lemma IsTicker.parseBbo {name payload : List UInt8} {sequence tradeId : UInt64}
    (h : IsTicker name payload sequence tradeId) (marketId : UInt32) (t1Ns : UInt64) :
    ∃ bbo, CefiParser.parseCoinbaseTickerBbo marketId payload t1Ns = .ok bbo ∧
      bbo.marketId = marketId ∧ bbo.sequence = sequence := by
  obtain ⟨bid, hbid⟩ := (h.fields "best_bid" (by decide)).exists_ok
  obtain ⟨bidSize, hbidSize⟩ := (h.fields "best_bid_size" (by decide)).exists_ok
  obtain ⟨ask, hask⟩ := (h.fields "best_ask" (by decide)).exists_ok
  obtain ⟨askSize, haskSize⟩ := (h.fields "best_ask_size" (by decide)).exists_ok
  unfold CefiParser.parseCoinbaseTickerBbo
  rw [hbid, hbidSize, hask, haskSize, h.sequence]
  exact ⟨_, rfl, rfl, rfl⟩

lemma IsTicker.parseTrade {name payload : List UInt8} {sequence tradeId : UInt64}
    (h : IsTicker name payload sequence tradeId) (marketId : UInt32) (t1Ns : UInt64) :
    ∃ trade, CefiParser.parseCoinbaseTickerTrade marketId payload t1Ns = .ok trade ∧
      trade.marketId = marketId ∧ trade.sequence = sequence ∧ trade.tradeId = tradeId := by
  obtain ⟨price, hprice⟩ := (h.fields "price" (by decide)).exists_ok
  obtain ⟨size, hsize⟩ := (h.fields "last_size" (by decide)).exists_ok
  obtain ⟨side, hside⟩ := (h.fields "side" (by decide)).exists_ok
  unfold CefiParser.parseCoinbaseTickerTrade
  rw [hprice, hsize, hside, h.tradeId, h.sequence]
  exact ⟨_, rfl, rfl, rfl, rfl⟩

/-- A message that names a product of the session finds its position. -/
lemma productIndex_of_find {products : List Product} {lastMessageMs staleAfterMs : UInt64}
    {stats : Stats} {payload name : List UInt8} {idx : ℕ}
    (hproduct : CefiParser.coinbaseProductId payload = some name)
    (hidx : (products.findIdx? fun p => p.name = name) = some idx) :
    productIndex ⟨products, lastMessageMs, staleAfterMs, stats⟩ payload = (some idx, stats) := by
  unfold productIndex
  rw [hproduct]
  dsimp only
  rw [hidx]

/-- A ticker of a product: the two checks, then both registers follow the message. -/
lemma onTicker_spec {s : Session} {p : Product} {name payload : List UInt8}
    {sequence tradeId : UInt64} (hp : s.productOf name = some p)
    (h : IsTicker name payload sequence tradeId) (t1Ns : UInt64) (out : List Event) :
    ∃ stats p', (s.onTicker payload t1Ns out).action = (checkTicker p stats sequence tradeId).1 ∧
      (s.onTicker payload t1Ns out).session.productOf name = some p' ∧
      p'.lastSeq = some sequence ∧ p'.lastTradeId = some tradeId := by
  obtain ⟨idx, hidx, hget⟩ := exists_findIdx_of_find hp
  obtain ⟨bbo, hbbo, -, rfl⟩ := h.parseBbo p.marketId t1Ns
  obtain ⟨trade, htrade, -, -, rfl⟩ := h.parseTrade p.marketId t1Ns
  unfold onTicker
  dsimp only
  rw [productIndex_of_find h.product hidx]
  dsimp only
  rw [hget]
  dsimp only
  rw [hbbo, htrade]
  dsimp only
  split
  · refine ⟨_, _, rfl, (find_set_findIdx hidx hget ?_ name).trans (if_pos rfl), ?_, ?_⟩
    · rfl
    · rfl
    · rfl
  · refine ⟨_, _, rfl, (find_set_findIdx hidx hget ?_ name).trans (if_pos rfl), ?_, ?_⟩
    · rfl
    · rfl
    · rfl

/-- A heartbeat of a product whose sequence number is newer: the check of the trade id, then
the sequence register follows the message unless there is no baseline yet. -/
lemma onHeartbeat_spec {s : Session} {p : Product} {name payload : List UInt8}
    {sequence tradeId : UInt64} (hp : s.productOf name = some p)
    (h : IsHeartbeat name payload sequence tradeId) (hnew : ∀ last ∈ p.lastSeq, last < sequence)
    (out : List Event) :
    ∃ stats p', (s.onHeartbeat payload out).action = (checkHeartbeat p stats tradeId).1 ∧
      (s.onHeartbeat payload out).session.productOf name = some p' ∧
      p'.lastSeq = p.lastSeq.map (fun _ => sequence) ∧ p'.lastTradeId = p.lastTradeId := by
  obtain ⟨idx, hidx, hget⟩ := exists_findIdx_of_find hp
  unfold onHeartbeat
  dsimp only
  rw [productIndex_of_find h.product hidx, h.sequence, h.tradeId]
  dsimp only
  rw [hget]
  dsimp only
  rcases hseq : p.lastSeq with _ | last
  · exact ⟨_, p, rfl, hp, hseq, rfl⟩
  · have hlt : ¬ sequence ≤ last := UInt64.not_le.mpr (hnew last hseq)
    dsimp only
    rw [if_neg hlt]
    refine ⟨_, _, rfl, (find_set_findIdx hidx hget ?_ name).trans (if_pos rfl), ?_, ?_⟩
    · rfl
    · rfl
    · rfl

lemma onMessage_ticker {s : Session} {p : Product} {name payload : List UInt8}
    {sequence tradeId : UInt64} (hp : s.productOf name = some p)
    (h : IsTicker name payload sequence tradeId) (t1Ns nowMs : UInt64) (out : List Event) :
    ∃ stats p', (s.onMessage payload t1Ns nowMs out).action
        = (checkTicker p stats sequence tradeId).1 ∧
      (s.onMessage payload t1Ns nowMs out).session.productOf name = some p' ∧
      p'.lastSeq = some sequence ∧ p'.lastTradeId = some tradeId := by
  unfold onMessage
  dsimp only
  rw [h.type]
  dsimp only
  rw [if_pos rfl]
  apply onTicker_spec _ h
  exact hp

lemma onMessage_heartbeat {s : Session} {p : Product} {name payload : List UInt8}
    {sequence tradeId : UInt64} (hp : s.productOf name = some p)
    (h : IsHeartbeat name payload sequence tradeId) (hnew : ∀ last ∈ p.lastSeq, last < sequence)
    (t1Ns nowMs : UInt64) (out : List Event) :
    ∃ stats p', (s.onMessage payload t1Ns nowMs out).action
        = (checkHeartbeat p stats tradeId).1 ∧
      (s.onMessage payload t1Ns nowMs out).session.productOf name = some p' ∧
      p'.lastSeq = p.lastSeq.map (fun _ => sequence) ∧ p'.lastTradeId = p.lastTradeId := by
  have htype : Bytes.ofString "heartbeat" ≠ Bytes.ofString "ticker" := by decide
  unfold onMessage
  dsimp only
  rw [h.type]
  dsimp only
  rw [if_neg htype, if_pos rfl]
  apply onHeartbeat_spec _ h hnew
  exact hp

/-! ## The checks of the trade id -/

/-- Behind a newer sequence number the ticker checks come down to the trade id. -/
lemma checkTicker_action {p : Product} {sequence : UInt64}
    (hnew : ∀ last ∈ p.lastSeq, last < sequence) (stats : Stats) (tradeId : UInt64) :
    (checkTicker p stats sequence tradeId).1
      = p.lastTradeId.bind fun last =>
          if tradeId ≠ last + 1 then some (.resubscribe (.tradeIdGap (last + 1) tradeId))
          else none := by
  have hpass : checkSequence p stats sequence = (none, stats) := by
    unfold checkSequence
    rcases hseq : p.lastSeq with _ | last
    · rfl
    · exact if_neg (UInt64.not_le.mpr (hnew last hseq))
  unfold checkTicker
  rw [hpass]
  rcases p.lastTradeId with _ | last
  · rfl
  · dsimp only [Option.bind_some]
    by_cases hgap : tradeId ≠ last + 1
    · rw [if_pos ⟨hgap, rfl⟩, if_pos hgap]
    · rw [if_neg fun h => hgap h.1, if_neg hgap]

lemma checkHeartbeat_action (p : Product) (stats : Stats) (tradeId : UInt64) :
    (checkHeartbeat p stats tradeId).1
      = p.lastTradeId.bind fun ours =>
          if tradeId > ours then some (.resubscribe (.heartbeatBehindExchange ours tradeId))
          else none := by
  unfold checkHeartbeat
  rcases p.lastTradeId with _ | ours
  · rfl
  · dsimp only [Option.bind_some]
    split
    · rfl
    · rfl

end Session

/-- The bytes of a ticker in the format of the exchange. -/
def tickerBytes (product sequence tradeId : String) : List UInt8 :=
  Bytes.ofString ("\x7b\"type\":\"ticker\",\"sequence\":" ++ sequence ++ ",\"product_id\":\""
    ++ product ++ "\",\"price\":\"9\",\"best_bid\":\"8\",\"best_bid_size\":\"1\","
    ++ "\"best_ask\":\"9\",\"best_ask_size\":\"1\",\"side\":\"buy\",\"trade_id\":" ++ tradeId
    ++ ",\"last_size\":\"1\"\x7d")

end ChainMarketPrice.LiveFeed
