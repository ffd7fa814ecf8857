import Mathlib.Data.UInt
import ChainMarketPrice.LiveFeed.TradeEmission

/-!
# Trades are given out once and in order

Products of a new session are numbered from one, as far as `u32` goes, so that the trades of a
market are the trades of one product (`filter_trades_out`). In every run they have increasing
ids, each stands behind its quote, and the counter of events keeps up (`trades_once_in_order`).
-/

namespace ChainMarketPrice.LiveFeed

open CefiIngest Session SessionRun

/-! ## Market ids -/

/-- The first product of a name in a new session is numbered by its position. -/
lemma productOf_new (before after : List (List UInt8)) {name : List UInt8} (h : name ∉ before)
    (staleAfterMs : UInt64) :
    (Session.new (before ++ name :: after) staleAfterMs).productOf name
      = some { name := name, marketId := UInt32.ofNat before.length + 1 } := by
  have hnone : ((before.mapIdx fun i name =>
      ({ name := name, marketId := UInt32.ofNat i + 1 } : Product)).find?
        fun p => p.name = name) = none := by
    apply List.find?_eq_none.mpr
    intro p hp
    obtain ⟨i, hi, rfl⟩ := List.mem_mapIdx.mp hp
    intro heq
    have hname : before[i] = name := of_decide_eq_true heq
    rw [← hname] at h
    exact h (List.getElem_mem hi)
  unfold productOf Session.new
  dsimp only
  rw [List.mapIdx_append, List.find?_append, hnone, List.mapIdx_cons]
  simp

lemma productOf_new_of_mem {names : List (List UInt8)} {name : List UInt8} (h : name ∈ names)
    (staleAfterMs : UInt64) :
    ∃ p, (Session.new names staleAfterMs).productOf name = some p ∧ p.maxEmittedTradeId = 0 := by
  obtain ⟨before, after, rfl, hfirst⟩ := List.eq_append_cons_of_mem h
  exact ⟨_, productOf_new before after hfirst staleAfterMs, rfl⟩

lemma productOf_new_eq_some {names : List (List UInt8)} {staleAfterMs : UInt64}
    {name : List UInt8} {p : Product}
    (h : (Session.new names staleAfterMs).productOf name = some p) :
    name ∈ names ∧ p = { name := name, marketId := UInt32.ofNat (names.idxOf name) + 1 } := by
  have hmem : name ∈ names := by
    have hp := List.mem_of_find?_eq_some h
    obtain ⟨i, hi, hget⟩ := List.mem_mapIdx.mp hp
    have hname : p.name = name := by simpa using List.find?_some h
    rw [← hname, ← hget]
    exact List.getElem_mem hi
  obtain ⟨before, after, rfl, hfirst⟩ := List.eq_append_cons_of_mem hmem
  have hidx : (before ++ name :: after).idxOf name = before.length := by
    rw [List.idxOf_append_of_notMem hfirst, List.idxOf_cons_self, Nat.add_zero]
  rw [productOf_new before after hfirst, Option.some.injEq] at h
  rw [hidx]
  exact ⟨hmem, h.symm⟩

/-- No two names of the session have the same market id. -/
def MarketsDistinct (s : Session) : Prop :=
  ∀ name name' p p', s.productOf name = some p → s.productOf name' = some p' →
    p.marketId = p'.marketId → name = name'

lemma marketsDistinct_new {names : List (List UInt8)} (h : names.length ≤ 2 ^ 32)
    (staleAfterMs : UInt64) : MarketsDistinct (Session.new names staleAfterMs) := by
  intro name name' p p' hp hp' hmarket
  obtain ⟨hmem, rfl⟩ := productOf_new_eq_some hp
  obtain ⟨hmem', rfl⟩ := productOf_new_eq_some hp'
  have hlt := List.idxOf_lt_length_of_mem hmem
  have hlt' := List.idxOf_lt_length_of_mem hmem'
  have hofNat : UInt32.ofNat (names.idxOf name) = UInt32.ofNat (names.idxOf name') := by
    have hsub := congrArg (· - 1) hmarket
    simpa using hsub
  have hidx : names.idxOf name = names.idxOf name' := by
    have htoNat := congrArg UInt32.toNat hofNat
    rw [UInt32.toNat_ofNat', UInt32.toNat_ofNat', Nat.mod_eq_of_lt (by omega),
      Nat.mod_eq_of_lt (by omega)] at htoNat
    exact htoNat
  exact (List.idxOf_inj hmem).mp hidx

/-- A call does not renumber a product. -/
lemma marketId_follow (name : List UInt8) (product : Option Product) (op : SessionOp) :
    (follow name product op).map (·.marketId) = product.map (·.marketId) := by
  unfold follow
  split
  · rw [Option.map_map]
    rfl
  · rw [Option.map_map]
    rfl
  · rename_i payload t1Ns nowMs
    split
    · rename_i hname
      rcases product with _ | p
      · rw [react_none_product]
      · rcases hticker : tickerId name payload with _ | tradeId
        · obtain ⟨-, p', hp', hmarket, -⟩ := react_silent hticker hname p t1Ns
          rw [hp', Option.map_some, Option.map_some, hmarket]
        · obtain ⟨sequence, hcomplete⟩ := tickerId_eq_some.mp hticker
          obtain ⟨bbo, trade, -, -, -, -, -, hreact⟩ := react_ticker hcomplete p t1Ns
          rw [hreact]
          rfl
    · rfl

lemma marketId_run (s : Session) (ops : List SessionOp) (name : List UInt8) :
    ((run s ops).session.productOf name).map (·.marketId)
      = (s.productOf name).map (·.marketId) := by
  induction ops using List.reverseRecOn with
  | nil => rfl
  | append_singleton ops op ih => rw [run_concat, productOf_step, marketId_follow, ih]

lemma marketsDistinct_run {s : Session} (h : MarketsDistinct s) (ops : List SessionOp) :
    MarketsDistinct (run s ops).session := by
  have hstart : ∀ name p, (run s ops).session.productOf name = some p →
      ∃ p₀, s.productOf name = some p₀ ∧ p₀.marketId = p.marketId := by
    intro name p hp
    have hmarket := marketId_run s ops name
    rw [hp] at hmarket
    exact Option.map_eq_some_iff.mp hmarket.symm
  intro name name' p p' hp hp' hmarket
  obtain ⟨p₀, hp₀, hm⟩ := hstart name p hp
  obtain ⟨p₀', hp₀', hm'⟩ := hstart name' p' hp'
  refine h name name' p₀ p₀' hp₀ hp₀' ?_
  rw [hm, hm', hmarket]

/-! ## The trades of a market -/

/-- The trades of a reaction are of the product's market. -/
lemma marketId_of_mem_react {payload name : List UInt8}
    (hname : CefiParser.coinbaseProductId payload = some name) {p : Product} {t1Ns : UInt64}
    {t : UnifiedTrade} (h : t ∈ trades (react (some p) payload t1Ns).events) :
    t.marketId = p.marketId := by
  rcases hticker : tickerId name payload with _ | tradeId
  · rw [(react_silent hticker hname p t1Ns).events] at h
    cases h
  · obtain ⟨sequence, hcomplete⟩ := tickerId_eq_some.mp hticker
    obtain ⟨bbo, trade, -, -, hmarket, -, -, hreact⟩ := react_ticker hcomplete p t1Ns
    rw [hreact] at h
    dsimp only at h
    split at h
    · have ht : t ∈ [trade] := h
      rw [List.mem_singleton.mp ht, hmarket]
    · cases h

/-- The trades of a market are the trades given out for its product. -/
lemma filter_trades_out {s : Session} (hdistinct : MarketsDistinct s) {name : List UInt8}
    {p₀ : Product} (hp₀ : s.productOf name = some p₀) (ops : List SessionOp) :
    (trades (run s ops).out).filter (·.marketId = p₀.marketId)
      = tradesFor name (run s ops).calls := by
  induction ops using List.reverseRecOn with
  | nil => rfl
  | append_singleton ops op ih =>
    have hdistinct' := marketsDistinct_run hdistinct ops
    have hmarket := marketId_run s ops name
    rw [hp₀, Option.map_some] at hmarket
    obtain ⟨p, hp, hpm⟩ := Option.map_eq_some_iff.mp hmarket
    rw [run_concat]
    cases op with
    | connected nowMs =>
      unfold step
      exact ih.trans (tradesFor_concat_silent (fun _ => rfl) _).symm
    | actionTaken action =>
      unfold step
      exact ih.trans (tradesFor_concat_silent (fun _ => rfl) _).symm
    | message payload t1Ns nowMs =>
      rw [step_message]
      dsimp only
      rw [trades_append, List.filter_append, ih, tradesFor_concat]
      congr 1
      dsimp only
      by_cases hname : CefiParser.coinbaseProductId payload = some name
      · have hnames : (SessionOp.message payload t1Ns nowMs).Names name := hname
        rw [if_pos hnames, productFor_eq hname, hp]
        apply List.filter_eq_self.mpr
        intro t ht
        rw [marketId_of_mem_react hname ht, hpm]
        exact decide_eq_true rfl
      · have hnames : ¬ (SessionOp.message payload t1Ns nowMs).Names name := hname
        rw [if_neg hnames]
        apply List.filter_eq_nil_iff.mpr
        intro t ht heq
        have hmarket' : t.marketId = p₀.marketId := of_decide_eq_true heq
        -- the trade is of the product the message names, which has another market id
        rcases hid : CefiParser.coinbaseProductId payload with _ | name'
        · have hfor : productFor (run s ops).session payload = none := by
            unfold productFor
            rw [hid]
            rfl
          rw [hfor, react_none_events] at ht
          cases ht
        · rw [productFor_eq hid] at ht
          rcases hq : (run s ops).session.productOf name' with _ | q
          · rw [hq, react_none_events] at ht
            cases ht
          · rw [hq] at ht
            have hsame : name' = name := by
              refine hdistinct' name' name q p hq hp ?_
              rw [← marketId_of_mem_react hid ht, hmarket', hpm]
            rw [hsame] at hid
            exact hname hid

/-- Every trade is of the market of some product. -/
lemma exists_product_of_mem_trades {s : Session} {ops : List SessionOp} {t : UnifiedTrade}
    (h : t ∈ trades (run s ops).out) :
    ∃ name p, s.productOf name = some p ∧ p.marketId = t.marketId := by
  induction ops using List.reverseRecOn with
  | nil => cases h
  | append_singleton ops op ih =>
    rw [run_concat] at h
    cases op with
    | connected nowMs => exact ih h
    | actionTaken action => exact ih h
    | message payload t1Ns nowMs =>
      rw [step_message] at h
      dsimp only at h
      rw [trades_append] at h
      rcases List.mem_append.mp h with h | h
      · exact ih h
      · rcases hproduct : productFor (run s ops).session payload with _ | p
        · rw [hproduct, react_none_events] at h
          cases h
        · obtain ⟨name, hname, hp⟩ := Option.bind_eq_some_iff.mp hproduct
          rw [hproduct] at h
          -- a run keeps the names and the markets of the products
          have hmarket := marketId_run s ops name
          rw [hp] at hmarket
          obtain ⟨p₀, hp₀, hpm⟩ := Option.map_eq_some_iff.mp hmarket.symm
          refine ⟨name, p₀, hp₀, ?_⟩
          rw [hpm, marketId_of_mem_react hname h]

/-! ## Quotes before trades -/

/-- Each trade stands directly behind a quote of its market with its sequence number. -/
def Paired (events : List Event) : Prop :=
  ∀ i trade, events[i]? = some (.trade trade) → ∃ j bbo, i = j + 1 ∧
    events[j]? = some (.bbo bbo) ∧ bbo.marketId = trade.marketId ∧ bbo.sequence = trade.sequence

lemma paired_nil : Paired [] := by
  intro i trade h
  cases h

lemma paired_react {s : Session} {payload : List UInt8} {t1Ns : UInt64} :
    Paired (react (productFor s payload) payload t1Ns).events := by
  rcases hproduct : productFor s payload with _ | p
  · rw [react_none_events]
    exact paired_nil
  · obtain ⟨name, hname, -⟩ := Option.bind_eq_some_iff.mp hproduct
    rcases hticker : tickerId name payload with _ | tradeId
    · rw [(react_silent hticker hname p t1Ns).events]
      exact paired_nil
    · obtain ⟨sequence, hcomplete⟩ := tickerId_eq_some.mp hticker
      -- a trade stands behind the quote of the same ticker
      obtain ⟨bbo, trade, hmarket, hseq, hmarket', hseq', -, hreact⟩ :=
        react_ticker hcomplete p t1Ns
      rw [hreact]
      dsimp only
      intro i trade' hget
      split at hget
      · rcases i with _ | _ | i
        · cases hget
        · cases hget
          exact ⟨0, bbo, rfl, rfl, hmarket.trans hmarket'.symm, hseq.trans hseq'.symm⟩
        · cases hget
      · rcases i with _ | i
        · cases hget
        · cases hget

lemma paired_calls (s : Session) (ops : List SessionOp) :
    ∀ c ∈ (run s ops).calls, Paired c.events := by
  induction ops using List.reverseRecOn with
  | nil =>
    intro c hc
    cases hc
  | append_singleton ops op ih =>
    intro c hc
    rw [run_concat] at hc
    -- only a message emits anything
    cases op with
    | connected nowMs =>
      rcases List.mem_append.mp hc with hc | hc
      · exact ih c hc
      · rw [List.mem_singleton.mp hc]
        exact paired_nil
    | actionTaken action =>
      rcases List.mem_append.mp hc with hc | hc
      · exact ih c hc
      · rw [List.mem_singleton.mp hc]
        exact paired_nil
    | message payload t1Ns nowMs =>
      rw [step_message] at hc
      rcases List.mem_append.mp hc with hc | hc
      · exact ih c hc
      · rw [List.mem_singleton.mp hc]
        exact paired_react

/-! ## The counter of events -/

lemma emitted_run (s : Session) (ops : List SessionOp) :
    (run s ops).session.stats.eventsEmitted
      = s.stats.eventsEmitted + UInt64.ofNat (run s ops).out.length := by
  induction ops using List.reverseRecOn with
  | nil => exact (UInt64.add_zero _).symm
  | append_singleton ops op ih =>
    rw [run_concat]
    cases op with
    | connected nowMs => exact ih
    | actionTaken action =>
      cases action with
      | resubscribe reason => exact ih
      | reconnect reason => exact ih
    | message payload t1Ns nowMs =>
      have hreacts := onMessage_reacts (run s ops).session payload t1Ns nowMs []
      rw [step_message]
      dsimp only
      rw [hreacts.emitted, ih, List.length_append, UInt64.ofNat_add, UInt64.add_assoc]

/-- Over every run of a new session with at most `2 ^ 32` products: the trades of each market
have increasing ids, each trade stands directly behind its quote in the events of its call, and
the counter is the number of events, as a `u64`. -/
theorem trades_once_in_order {names : List (List UInt8)} (hnames : names.length ≤ 2 ^ 32)
    (staleAfterMs : UInt64) (ops : List SessionOp) :
    (∀ marketId, ((trades (run (Session.new names staleAfterMs) ops).out).filter
      (·.marketId = marketId)).Pairwise (·.tradeId < ·.tradeId)) ∧
    (run (Session.new names staleAfterMs) ops).out
      = (run (Session.new names staleAfterMs) ops).calls.flatMap (·.events) ∧
    (∀ c ∈ (run (Session.new names staleAfterMs) ops).calls, Paired c.events) ∧
    (run (Session.new names staleAfterMs) ops).session.stats.eventsEmitted
      = UInt64.ofNat (run (Session.new names staleAfterMs) ops).out.length := by
  refine ⟨?_, out_run _ _, paired_calls _ _, ?_⟩
  · intro marketId
    by_cases hproduct : ∃ name p, (Session.new names staleAfterMs).productOf name = some p ∧
        p.marketId = marketId
    · obtain ⟨name, p, hp, rfl⟩ := hproduct
      have hmark : p.maxEmittedTradeId = 0 := by rw [(productOf_new_eq_some hp).2]
      obtain ⟨q, -, -, hemission⟩ := emission_run hp hmark ops
      rw [filter_trades_out (marketsDistinct_new hnames staleAfterMs) hp]
      exact hemission.ascending
    · have hnone : (trades (run (Session.new names staleAfterMs) ops).out).filter
          (·.marketId = marketId) = [] := by
        apply List.filter_eq_nil_iff.mpr
        intro t ht heq
        have hmarket : t.marketId = marketId := of_decide_eq_true heq
        obtain ⟨name, p, hp, hpm⟩ := exists_product_of_mem_trades ht
        exact hproduct ⟨name, p, hp, hpm.trans hmarket⟩
      rw [hnone]
      exact List.Pairwise.nil
  · rw [emitted_run]
    exact UInt64.zero_add _

def btcUsd : List UInt8 := Bytes.ofString "BTC-USD"

def ethUsd : List UInt8 := Bytes.ofString "ETH-USD"

/-- Two products, a reset, and the ticker that was given out before the reset. -/
def resetOps : List SessionOp :=
  [.connected 0, .message (tickerBytes "BTC-USD" "10" "100") 1 1,
    .message (tickerBytes "ETH-USD" "7" "100") 2 2, .actionTaken (.resubscribe .serverError),
    .message (tickerBytes "BTC-USD" "10" "100") 3 3]

theorem trades_once_in_order_resetOps :
    [btcUsd, ethUsd].length ≤ 2 ^ 32 ∧
    ∀ marketId, ((trades (run (Session.new [btcUsd, ethUsd] 10000) resetOps).out).filter
      (·.marketId = marketId)).Pairwise (·.tradeId < ·.tradeId) :=
  ⟨by decide, (trades_once_in_order (by decide) 10000 resetOps).1⟩

/-! ## Beyond the widths -/

/-- A number in letters. -/
def letters : ℕ → ℕ → List UInt8
  | 0, _ => []
  | k + 1, i => (65 + UInt8.ofNat (i % 26)) :: letters k (i / 26)

lemma length_letters (k i : ℕ) : (letters k i).length = k := by
  induction k generalizing i with
  | zero => rfl
  | succ k ih => rw [letters, List.length_cons, ih]

lemma letters_inj {k i j : ℕ} (hi : i < 26 ^ k) (hj : j < 26 ^ k)
    (h : letters k i = letters k j) : i = j := by
  induction k generalizing i j with
  | zero => omega
  | succ k ih =>
    rw [letters, letters, List.cons.injEq, add_right_inj, ← UInt8.toNat_inj, UInt8.toNat_ofNat',
      UInt8.toNat_ofNat'] at h
    rw [pow_succ] at hi hj
    have hrest := ih (by omega) (by omega) h.2
    omega

/-- `n` names of eight letters between two others. -/
def manyNames (n : ℕ) : List (List UInt8) :=
  btcUsd :: (List.range n).map (letters 8) ++ [ethUsd]

lemma nodup_manyNames {n : ℕ} (hn : n ≤ 26 ^ 8) : (manyNames n).Nodup := by
  -- the filling names are longer than both real ones
  have hlength : ∀ name ∈ (List.range n).map (letters 8), name.length = 8 := by
    intro name hname
    obtain ⟨i, -, rfl⟩ := List.mem_map.mp hname
    exact length_letters 8 i
  have hinjective : ∀ i ∈ List.range n, ∀ j ∈ List.range n, letters 8 i = letters 8 j → i = j := by
    intro i hi j hj
    exact letters_inj ((List.mem_range.mp hi).trans_le hn) ((List.mem_range.mp hj).trans_le hn)
  unfold manyNames
  rw [List.cons_append, List.nodup_cons, List.nodup_append]
  refine ⟨?_, List.nodup_range.map_on hinjective, List.nodup_singleton _, ?_⟩
  · intro hmem
    rcases List.mem_append.mp hmem with hmem | hmem
    · exact absurd (hlength _ hmem) (by decide)
    · exact absurd (List.mem_singleton.mp hmem) (by decide)
  · intro name hname name' hname' heq
    rw [heq, List.mem_singleton.mp hname'] at hname
    exact absurd (hlength _ hname) (by decide)

lemma productOf_manyNames_btcUsd (n : ℕ) (staleAfterMs : UInt64) :
    (Session.new (manyNames n) staleAfterMs).productOf btcUsd
      = some { name := btcUsd, marketId := 1 } :=
  productOf_new [] _ List.not_mem_nil staleAfterMs

lemma productOf_manyNames_ethUsd {n : ℕ} (hn : n ≤ 26 ^ 8) (staleAfterMs : UInt64) :
    (Session.new (manyNames n) staleAfterMs).productOf ethUsd
      = some { name := ethUsd, marketId := UInt32.ofNat (n + 1) + 1 } := by
  have hnodup := nodup_manyNames hn
  unfold manyNames at hnodup ⊢
  have hfirst := (List.nodup_append.mp hnodup).2.2
  rw [productOf_new _ [] fun hmem => hfirst _ hmem _ List.mem_cons_self rfl]
  simp

def ethTicker : List UInt8 := tickerBytes "ETH-USD" "7" "100"

def btcTicker : List UInt8 := tickerBytes "BTC-USD" "10" "100"

lemma isTicker_ethTicker : IsTicker ethUsd ethTicker 7 100 := by decide +kernel

lemma isTicker_btcTicker : IsTicker btcUsd btcTicker 10 100 := by decide +kernel

/-- When the market ids of the first and the last product meet, so do their trades. -/
lemma not_pairwise_manyNames {n : ℕ} (hnames : n ≤ 26 ^ 8) (hn : UInt32.ofNat (n + 1) + 1 = 1) :
    ¬ ((trades (run (Session.new (manyNames n) 10000)
      [.message ethTicker 1 1, .message btcTicker 2 2]).out).filter
        (·.marketId = 1)).Pairwise (·.tradeId < ·.tradeId) := by
  have heth := productOf_manyNames_ethUsd hnames 10000
  have hbtc := productOf_manyNames_btcUsd n 10000
  rw [hn] at heth
  have hethFor : productFor (Session.new (manyNames n) 10000) ethTicker
      = some { name := ethUsd, marketId := 1 } := by
    rw [productFor_eq isTicker_ethTicker.product, heth]
  have hne : CefiParser.coinbaseProductId ethTicker ≠ some btcUsd := by
    rw [isTicker_ethTicker.product]
    decide
  have hbtcFor : productFor ((Session.new (manyNames n) 10000).onMessage ethTicker 1 1 []).session
      btcTicker = some { name := btcUsd, marketId := 1 } := by
    rw [productFor_eq isTicker_btcTicker.product, productOf_onMessage_of_ne hne, hbtc]
  obtain ⟨t, ht, htm, hti⟩ := trades_react_fresh isTicker_ethTicker
    (p := { name := ethUsd, marketId := 1 }) (by decide) 1
  obtain ⟨t', ht', htm', hti'⟩ := trades_react_fresh isTicker_btcTicker
    (p := { name := btcUsd, marketId := 1 }) (by decide) 2
  have htrades : trades (run (Session.new (manyNames n) 10000)
      [.message ethTicker 1 1, .message btcTicker 2 2]).out = [t, t'] := by
    unfold run
    rw [List.foldl_cons, List.foldl_cons, List.foldl_nil, step_message, step_message]
    dsimp only
    rw [hethFor, hbtcFor, trades_append, trades_append, ht, ht']
    rfl
  rw [htrades]
  intro hpairwise
  -- the later trade has the smaller id
  have hlt : t.tradeId < t'.tradeId := by simpa [htm, htm'] using hpairwise
  rw [hti, hti'] at hlt
  exact absurd hlt (by decide)

/-- The same ticker over and over: one trade, and one quote each time. -/
lemma length_out_replicate (n : ℕ) :
    (run (Session.new [btcUsd] 10000)
      (List.replicate (n + 1) (.message btcTicker 1 1))).out.length = n + 2 := by
  have hstart : (Session.new [btcUsd] 10000).productOf btcUsd
      = some { name := btcUsd, marketId := 1 } := productOf_new [] [] List.not_mem_nil 10000
  induction n with
  | zero =>
    have hfor : productFor (Session.new [btcUsd] 10000) btcTicker
        = some { name := btcUsd, marketId := 1 } := by
      rw [productFor_eq isTicker_btcTicker.product, hstart]
    obtain ⟨bbo, trade, -, -, -, -, -, hreact⟩ :=
      react_ticker isTicker_btcTicker { name := btcUsd, marketId := 1 } 1
    show (step _ (.message btcTicker 1 1)).out.length = 2
    rw [step_message]
    dsimp only
    rw [hfor, hreact, if_pos (by decide)]
    rfl
  | succ n ih =>
    obtain ⟨p, hp, -, hemission⟩ :=
      emission_run hstart rfl (List.replicate (n + 1) (.message btcTicker 1 1))
    -- every further copy repeats an id at the mark
    have hmark : ¬ (100 : UInt64) > p.maxEmittedTradeId := by
      apply UInt64.not_lt.mpr
      apply hemission.bound
      rw [List.replicate_succ', tickerIds_concat, tickerIds_message,
        tickerId_eq_some.mpr ⟨10, isTicker_btcTicker⟩]
      exact List.mem_append_right _ List.mem_cons_self
    have hfor : productFor (run (Session.new [btcUsd] 10000)
        (List.replicate (n + 1) (.message btcTicker 1 1))).session btcTicker = some p := by
      rw [productFor_eq isTicker_btcTicker.product, hp]
    obtain ⟨bbo, trade, -, -, -, -, -, hreact⟩ := react_ticker isTicker_btcTicker p 1
    rw [List.replicate_succ', run_concat, step_message]
    dsimp only
    rw [List.length_append, ih, hfor, hreact, if_neg hmark]
    rfl

/-- With one product more than there are market ids, two products give out the same trade of the
same market; and the counter wraps when `2 ^ 64` events have been given out. -/
theorem widths_exceeded :
    (manyNames (2 ^ 32 - 1)).Nodup ∧
    (¬ ((trades (run (Session.new (manyNames (2 ^ 32 - 1)) 10000)
      [.message ethTicker 1 1, .message btcTicker 2 2]).out).filter
        (·.marketId = 1)).Pairwise (·.tradeId < ·.tradeId)) ∧
    (run (Session.new [btcUsd] 10000) (List.replicate (2 ^ 64 - 1)
      (.message btcTicker 1 1))).session.stats.eventsEmitted.toNat
        ≠ (run (Session.new [btcUsd] 10000) (List.replicate (2 ^ 64 - 1)
          (.message btcTicker 1 1))).out.length := by
  refine ⟨nodup_manyNames (by decide), not_pairwise_manyNames (by decide) (by decide), ?_⟩
  have hlength := length_out_replicate (2 ^ 64 - 2)
  have hcount : 2 ^ 64 - 2 + 1 = 2 ^ 64 - 1 := by omega
  rw [hcount] at hlength
  rw [emitted_run, hlength]
  decide

end ChainMarketPrice.LiveFeed
