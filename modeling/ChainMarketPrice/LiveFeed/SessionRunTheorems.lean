import Mathlib.Data.List.Induction
import ChainMarketPrice.LiveFeed.SessionRun

/-!
# A session is the family of its products

`onMessage_reacts` says that a session does with a message what the product it names does on its
own; over a run, each product follows the calls on its own (`productOf_run`) and answers its own
messages only (`answers_ownCalls`), so that products do not interfere (`products_independent`).
-/

namespace ChainMarketPrice.LiveFeed

open CefiIngest Session

/-! ## The session does what its products do -/

lemma productFor_eq {payload name : List UInt8}
    (h : CefiParser.coinbaseProductId payload = some name) (s : Session) :
    productFor s payload = s.productOf name := by
  unfold productFor
  rw [h, Option.bind_some]

lemma checkTicker_action_congr (p : Product) (stats stats' : Stats) (seq tradeId : UInt64) :
    (checkTicker p stats seq tradeId).1 = (checkTicker p stats' seq tradeId).1 := by
  have hsequence : (checkSequence p stats seq).1 = (checkSequence p stats' seq).1 := by
    unfold checkSequence
    split
    · split
      · rfl
      · rfl
    · rfl
  unfold checkTicker
  dsimp only
  rw [hsequence]
  split
  · split
    · rfl
    · rfl
  · rfl

lemma checkTicker_emitted (p : Product) (stats : Stats) (seq tradeId : UInt64) :
    (checkTicker p stats seq tradeId).2.eventsEmitted = stats.eventsEmitted := by
  have hsequence : (checkSequence p stats seq).2.eventsEmitted = stats.eventsEmitted := by
    unfold checkSequence
    split
    · split
      · rfl
      · rfl
    · rfl
  unfold checkTicker
  dsimp only
  split
  · split
    · exact hsequence
    · exact hsequence
  · exact hsequence

lemma checkHeartbeat_emitted (p : Product) (stats : Stats) (tradeId : UInt64) :
    (checkHeartbeat p stats tradeId).2.eventsEmitted = stats.eventsEmitted := by
  unfold checkHeartbeat
  split
  · split
    · rfl
    · rfl
  · rfl

/-- The outcome of a message is the reaction of its product. -/
structure Reacts (s : Session) (payload : List UInt8) (out : List Event) (o : Outcome)
    (r : Reaction) : Prop where
  action : o.action = r.action
  out : o.out = out ++ r.events
  product : ∀ name, CefiParser.coinbaseProductId payload = some name →
    o.session.productOf name = r.product
  emitted : o.session.stats.eventsEmitted
    = s.stats.eventsEmitted + UInt64.ofNat r.events.length

lemma productIndex_emitted (s : Session) (payload : List UInt8) :
    (s.productIndex payload).2.eventsEmitted = s.stats.eventsEmitted := by
  unfold productIndex
  split
  · rfl
  · split
    · rfl
    · rfl

/-- A message that finds no position names no product of the session. -/
lemma productFor_of_productIndex_none {s : Session} {payload : List UInt8}
    (h : (s.productIndex payload).1 = none) : productFor s payload = none := by
  unfold productIndex at h
  unfold productFor
  split at h
  · rename_i hid
    rw [hid]
    rfl
  · rename_i id hid
    split at h
    · cases h
    · rename_i hidx
      rw [hid]
      exact List.find?_eq_none.mpr fun p hp => by simpa using List.findIdx?_eq_none_iff.mp hidx p hp

/-- The position a message finds is that of the product it names. -/
lemma productFor_of_productIndex_some {s : Session} {payload : List UInt8} {idx : ℕ}
    (h : (s.productIndex payload).1 = some idx) :
    ∃ name p, CefiParser.coinbaseProductId payload = some name ∧
      (s.products.findIdx? fun p => p.name = name) = some idx ∧ s.products[idx]? = some p ∧
      productFor s payload = some p := by
  obtain ⟨name, hid, hidx⟩ := productIndex_some h
  obtain ⟨p, hp⟩ : ∃ p, s.productOf name = some p := by
    apply Option.isSome_iff_exists.mp
    apply List.find?_isSome.mpr
    obtain ⟨hlt, hname, -⟩ := List.findIdx?_eq_some_iff_getElem.mp hidx
    exact ⟨_, List.getElem_mem hlt, hname⟩
  obtain ⟨idx', hidx', hget⟩ := exists_findIdx_of_find hp
  rw [hidx, Option.some.injEq] at hidx'
  subst hidx'
  refine ⟨name, p, hid, hidx, hget, ?_⟩
  rw [productFor_eq hid, hp]

/-- A message names no product of the session, or it finds the position of the one it names;
neither counts an event. -/
lemma productIndex_cases (s : Session) (payload : List UInt8) (stats₀ : Stats)
    (hstats : stats₀.eventsEmitted = s.stats.eventsEmitted) :
    (∃ stats, productIndex { s with stats := stats₀ } payload = (none, stats) ∧
      productFor s payload = none ∧ stats.eventsEmitted = s.stats.eventsEmitted) ∨
    ∃ idx stats name p, productIndex { s with stats := stats₀ } payload = (some idx, stats) ∧
      CefiParser.coinbaseProductId payload = some name ∧
      (s.products.findIdx? fun p => p.name = name) = some idx ∧ s.products[idx]? = some p ∧
      productFor s payload = some p ∧ stats.eventsEmitted = s.stats.eventsEmitted := by
  have hcount := (productIndex_emitted { s with stats := stats₀ } payload).trans hstats
  rcases hindex : productIndex { s with stats := stats₀ } payload with ⟨_ | idx, stats⟩
  · have hfor := productFor_of_productIndex_none (congrArg Prod.fst hindex)
    rw [hindex] at hcount
    exact .inl ⟨stats, rfl, hfor, hcount⟩
  · obtain ⟨name, p, hid, hidx, hget, hfor⟩ :=
      productFor_of_productIndex_some (congrArg Prod.fst hindex)
    rw [hindex] at hcount
    exact .inr ⟨idx, stats, name, p, rfl, hid, hidx, hget, hfor, hcount⟩

/-- A message that leaves the products and the output alone. -/
lemma reacts_of_products_eq {s : Session} {payload : List UInt8} {out : List Event} {o : Outcome}
    {action : Option Action} (haction : o.action = action) (hout : o.out = out)
    (hproducts : o.session.products = s.products)
    (hemitted : o.session.stats.eventsEmitted = s.stats.eventsEmitted) :
    Reacts s payload out o ⟨productFor s payload, [], action⟩ := by
  refine ⟨haction, ?_, ?_, ?_⟩
  · rw [hout, List.append_nil]
  · intro name hname
    unfold productFor productOf
    rw [hname, hproducts]
    rfl
  · rw [hemitted]
    exact (UInt64.add_zero _).symm

/-- A message that names no product of the session only counts. -/
lemma reacts_of_productFor_none {s : Session} {payload : List UInt8} {out : List Event}
    {stats : Stats} (hfor : productFor s payload = none)
    (hcount : stats.eventsEmitted = s.stats.eventsEmitted) :
    Reacts s payload out ⟨none, { s with stats := stats }, out⟩ ⟨none, [], none⟩ := by
  rw [← hfor]
  exact reacts_of_products_eq rfl rfl rfl hcount

/-- A message that gives its product new registers. -/
lemma reacts_of_products_set {s : Session} {payload name : List UInt8} {out events : List Event}
    {o : Outcome} {action : Option Action} {idx : ℕ} {p p' : Product}
    (hid : CefiParser.coinbaseProductId payload = some name)
    (hidx : (s.products.findIdx? fun p => p.name = name) = some idx)
    (hget : s.products[idx]? = some p) (hname : p'.name = p.name)
    (haction : o.action = action) (hout : o.out = out ++ events)
    (hproducts : o.session.products = s.products.set idx p')
    (hemitted : o.session.stats.eventsEmitted
      = s.stats.eventsEmitted + UInt64.ofNat events.length) :
    Reacts s payload out o ⟨some p', events, action⟩ := by
  refine ⟨haction, hout, ?_, hemitted⟩
  intro name' hname'
  rw [hid, Option.some.injEq] at hname'
  unfold productOf
  rw [hproducts, find_set_findIdx hidx hget hname, if_pos hname'.symm]

lemma onTicker_reacts (s : Session) (payload : List UInt8) (t1Ns : UInt64) (out : List Event) :
    Reacts s payload out (s.onTicker payload t1Ns out)
      ((productFor s payload).elim ⟨none, [], none⟩ fun p => p.onTicker payload t1Ns) := by
  unfold Session.onTicker
  dsimp only
  rcases productIndex_cases s payload { s.stats with tickers := s.stats.tickers + 1 } rfl with
    ⟨stats, hindex, hfor, hcount⟩ | ⟨idx, stats, name, p, hindex, hid, hidx, hget, hfor, hcount⟩
  · rw [hindex, hfor]
    exact reacts_of_productFor_none hfor hcount
  · rw [hindex]
    dsimp only
    rw [hget, hfor]
    dsimp only [Option.elim_some]
    unfold Product.onTicker
    -- both parses come first, and only together do they reach the product
    rcases CefiParser.parseCoinbaseTickerBbo p.marketId payload t1Ns with _ | bbo
    · rw [← hfor]
      exact reacts_of_products_eq rfl rfl rfl hcount
    rcases CefiParser.parseCoinbaseTickerTrade p.marketId payload t1Ns with _ | trade
    · rw [← hfor]
      exact reacts_of_products_eq rfl rfl rfl hcount
    dsimp only
    have hchecked := (checkTicker_emitted p stats bbo.sequence trade.tradeId).trans hcount
    rw [checkTicker_action_congr p {} stats]
    unfold Product.afterTicker
    -- the trade is emitted only past the mark
    by_cases hnew : trade.tradeId > p.maxEmittedTradeId
    · rw [if_pos hnew, if_pos hnew, if_pos hnew]
      refine reacts_of_products_set hid hidx hget ?_ rfl rfl rfl ?_
      · rfl
      · dsimp only
        rw [hchecked, UInt64.add_assoc]
        rfl
    · rw [if_neg hnew, if_neg hnew, if_neg hnew]
      refine reacts_of_products_set hid hidx hget ?_ rfl rfl rfl ?_
      · rfl
      · dsimp only
        rw [hchecked]
        rfl

lemma onHeartbeat_reacts (s : Session) (payload : List UInt8) (out : List Event) :
    Reacts s payload out (s.onHeartbeat payload out)
      ((productFor s payload).elim ⟨none, [], none⟩ fun p => p.onHeartbeat payload) := by
  unfold Session.onHeartbeat
  dsimp only
  rcases productIndex_cases s payload { s.stats with heartbeats := s.stats.heartbeats + 1 } rfl with
    ⟨stats, hindex, hfor, hcount⟩ | ⟨idx, stats, name, p, hindex, hid, hidx, hget, hfor, hcount⟩
  · rw [hindex, hfor]
    exact reacts_of_productFor_none hfor hcount
  · rw [hindex]
    dsimp only
    rw [hget, hfor]
    dsimp only [Option.elim_some]
    unfold Product.onHeartbeat
    rcases CefiParser.coinbaseSequence payload with _ | seq
    · rw [← hfor]
      exact reacts_of_products_eq rfl rfl rfl hcount
    rcases CefiParser.coinbaseTradeId payload with _ | exchangeLastTrade
    · rw [← hfor]
      exact reacts_of_products_eq rfl rfl rfl hcount
    dsimp only
    -- without a sequence there is nothing to compare with
    rcases hseq : p.lastSeq with _ | last
    · dsimp only
      rw [← hfor]
      refine reacts_of_products_eq ?_ rfl rfl ?_
      · rw [checkHeartbeat_action, checkHeartbeat_action]
      · exact (checkHeartbeat_emitted _ _ _).trans hcount
    · dsimp only
      by_cases hold : seq ≤ last
      -- a heartbeat that is not newer is ignored
      · rw [if_pos hold, if_pos hold, ← hfor]
        exact reacts_of_products_eq rfl rfl rfl hcount
      · rw [if_neg hold, if_neg hold]
        refine reacts_of_products_set hid hidx hget ?_ ?_ (List.append_nil out).symm rfl ?_
        · rfl
        · rw [checkHeartbeat_action, checkHeartbeat_action]
        · exact (checkHeartbeat_emitted _ _ _).trans (hcount.trans (UInt64.add_zero _).symm)

/-- The session does with a message what the product it names does. -/
lemma onMessage_reacts (s : Session) (payload : List UInt8) (t1Ns nowMs : UInt64)
    (out : List Event) :
    Reacts s payload out (s.onMessage payload t1Ns nowMs out)
      (react (productFor s payload) payload t1Ns) := by
  unfold Session.onMessage react
  dsimp only
  rcases CefiParser.coinbaseMessageType payload with _ | ty
  · exact reacts_of_products_eq rfl rfl rfl rfl
  dsimp only
  by_cases hticker : ty = Bytes.ofString "ticker"
  · rw [if_pos hticker, if_pos hticker]
    obtain ⟨h1, h2, h3, h4⟩ := onTicker_reacts
      { s with
        stats := { s.stats with messages := s.stats.messages + 1 }
        lastMessageMs := nowMs } payload t1Ns out
    exact ⟨h1, h2, h3, h4⟩
  rw [if_neg hticker, if_neg hticker]
  by_cases hheartbeat : ty = Bytes.ofString "heartbeat"
  · rw [if_pos hheartbeat, if_pos hheartbeat]
    obtain ⟨h1, h2, h3, h4⟩ := onHeartbeat_reacts
      { s with
        stats := { s.stats with messages := s.stats.messages + 1 }
        lastMessageMs := nowMs } payload out
    exact ⟨h1, h2, h3, h4⟩
  rw [if_neg hheartbeat, if_neg hheartbeat]
  by_cases herror : ty = Bytes.ofString "error"
  · rw [if_pos herror, if_pos herror]
    exact reacts_of_products_eq rfl rfl rfl rfl
  · rw [if_neg herror, if_neg herror]
    exact reacts_of_products_eq rfl rfl rfl rfl

/-! ## Runs -/

lemma onTicker_session_congr (s : Session) (payload : List UInt8) (t1Ns : UInt64)
    (out out' : List Event) :
    (s.onTicker payload t1Ns out).session = (s.onTicker payload t1Ns out').session := by
  unfold Session.onTicker
  dsimp only
  split
  · rfl
  · split
    · rfl
    · split
      · split
        · rfl
        · rfl
      · rfl

lemma onHeartbeat_session_congr (s : Session) (payload : List UInt8) (out out' : List Event) :
    (s.onHeartbeat payload out).session = (s.onHeartbeat payload out').session := by
  unfold Session.onHeartbeat
  dsimp only
  split
  · rfl
  · split
    · split
      · rfl
      · split
        · split
          · rfl
          · rfl
        · rfl
    · rfl

/-- The output list does not matter to the session. -/
lemma onMessage_session_congr (s : Session) (payload : List UInt8) (t1Ns nowMs : UInt64)
    (out out' : List Event) :
    (s.onMessage payload t1Ns nowMs out).session
      = (s.onMessage payload t1Ns nowMs out').session := by
  unfold Session.onMessage
  dsimp only
  split
  · rfl
  · split
    · exact onTicker_session_congr _ payload t1Ns out out'
    · split
      · exact onHeartbeat_session_congr _ payload out out'
      · split
        · rfl
        · rfl

namespace SessionRun

/-- A message appends the events of its product's reaction. -/
lemma step_message (r : SessionRun) (payload : List UInt8) (t1Ns nowMs : UInt64) :
    r.step (.message payload t1Ns nowMs)
      = ⟨(r.session.onMessage payload t1Ns nowMs []).session,
          r.out ++ (react (productFor r.session payload) payload t1Ns).events,
          r.calls ++ [⟨.message payload t1Ns nowMs,
            (react (productFor r.session payload) payload t1Ns).events,
            (react (productFor r.session payload) payload t1Ns).action⟩]⟩ := by
  have hreacts := onMessage_reacts r.session payload t1Ns nowMs r.out
  unfold step
  dsimp only
  rw [hreacts.out, hreacts.action, List.drop_left, onMessage_session_congr _ _ _ _ r.out []]

lemma run_concat (s : Session) (ops : List SessionOp) (op : SessionOp) :
    run s (ops ++ [op]) = (run s ops).step op := by
  unfold run
  rw [List.foldl_append, List.foldl_cons, List.foldl_nil]

/-- A call sees the session only, not the output or the calls before it. -/
lemma step_eq (r : SessionRun) (op : SessionOp) :
    r.step op = ⟨(step ⟨r.session, [], []⟩ op).session, r.out ++ (step ⟨r.session, [], []⟩ op).out,
      r.calls ++ (step ⟨r.session, [], []⟩ op).calls⟩ := by
  cases op with
  | connected nowMs => simp [step]
  | actionTaken action => simp [step]
  | message payload t1Ns nowMs => simp [step_message]

/-- A run continues as a run of the session it has reached. -/
lemma run_append (s : Session) (before after : List SessionOp) :
    run s (before ++ after)
      = ⟨(run (run s before).session after).session,
          (run s before).out ++ (run (run s before).session after).out,
          (run s before).calls ++ (run (run s before).session after).calls⟩ := by
  induction after using List.reverseRecOn with
  | nil => simp [run]
  | append_singleton after op ih =>
    rw [← List.append_assoc, run_concat, run_concat, ih, step_eq, step_eq (run _ after)]
    simp

/-- The calls of a run are the calls that were made. -/
lemma op_calls_run (s : Session) (ops : List SessionOp) : (run s ops).calls.map (·.op) = ops := by
  induction ops using List.reverseRecOn with
  | nil => rfl
  | append_singleton ops op ih =>
    rw [run_concat]
    cases op with
    | connected nowMs => simp [step, ih]
    | actionTaken action => simp [step, ih]
    | message payload t1Ns nowMs => simp [step_message, ih]

lemma out_run (s : Session) (ops : List SessionOp) :
    (run s ops).out = (run s ops).calls.flatMap (·.events) := by
  induction ops using List.reverseRecOn with
  | nil => rfl
  | append_singleton ops op ih =>
    rw [run_concat]
    cases op with
    | connected nowMs => simp [step, ih]
    | actionTaken action => simp [step, ih]
    | message payload t1Ns nowMs => simp [step_message, ih]

end SessionRun

lemma ownCalls_concat (name : List UInt8) (calls : List Call) (c : Call) :
    ownCalls name (calls ++ [c])
      = if c.op.Names name then ownCalls name calls ++ [c] else ownCalls name calls := by
  unfold ownCalls
  rw [List.filter_append]
  split
  · rename_i h
    simp [h]
  · rename_i h
    simp [h]

lemma ownCalls_cons (name : List UInt8) (c : Call) (calls : List Call) :
    ownCalls name (c :: calls)
      = if c.op.Names name then c :: ownCalls name calls else ownCalls name calls := by
  unfold ownCalls
  rw [List.filter_cons]
  simp only [decide_eq_true_eq]

/-! ## The products of a run -/

lemma productOf_resetBaselines (s : Session) (name : List UInt8) :
    s.resetBaselines.productOf name
      = (s.productOf name).map fun p => { p with lastSeq := none, lastTradeId := none } := by
  unfold productOf resetBaselines
  rw [List.find?_map]
  rfl

lemma productOf_step (r : SessionRun) (op : SessionOp) (name : List UInt8) :
    (r.step op).session.productOf name = follow name (r.session.productOf name) op := by
  cases op with
  | connected nowMs => exact productOf_resetBaselines r.session name
  | actionTaken action =>
    cases action with
    | resubscribe reason => exact productOf_resetBaselines _ name
    | reconnect reason => exact productOf_resetBaselines _ name
  | message payload t1Ns nowMs =>
    rw [SessionRun.step_message]
    unfold follow
    dsimp only
    by_cases hname : CefiParser.coinbaseProductId payload = some name
    · have hreacts := onMessage_reacts r.session payload t1Ns nowMs []
      rw [if_pos hname, hreacts.product name hname, productFor_eq hname]
    · rw [if_neg hname, productOf_onMessage_of_ne hname]

/-- Over a run, each product follows the calls on its own. -/
lemma productOf_run (s : Session) (ops : List SessionOp) (name : List UInt8) :
    (SessionRun.run s ops).session.productOf name = ops.foldl (follow name) (s.productOf name) := by
  induction ops using List.reverseRecOn with
  | nil => rfl
  | append_singleton ops op ih =>
    rw [SessionRun.run_concat, productOf_step, ih, List.foldl_append, List.foldl_cons,
      List.foldl_nil]

/-! ## Messages only -/

/-- The first of some deliveries, then the others on the session it leaves. -/
lemma calls_run_cons (s : Session) (d : Delivery) (deliveries : List Delivery) :
    (SessionRun.run s ((d :: deliveries).map Delivery.op)).calls
      = ⟨d.op, (react (productFor s d.payload) d.payload d.t1Ns).events,
          (react (productFor s d.payload) d.payload d.t1Ns).action⟩ ::
        (SessionRun.run (SessionRun.step ⟨s, [], []⟩ d.op).session
          (deliveries.map Delivery.op)).calls := by
  have hrun := SessionRun.run_append s [d.op] (deliveries.map Delivery.op)
  have hfirst : (SessionRun.step ⟨s, [], []⟩ d.op).calls = [⟨d.op,
      (react (productFor s d.payload) d.payload d.t1Ns).events,
      (react (productFor s d.payload) d.payload d.t1Ns).action⟩] := by
    unfold Delivery.op
    rw [SessionRun.step_message]
    rfl
  rw [List.map_cons, ← List.singleton_append, hrun]
  show (SessionRun.step ⟨s, [], []⟩ d.op).calls ++ _ = _
  rw [hfirst, List.singleton_append]
  rfl

/-- The answers to the messages of a product are the product's own. -/
lemma answers_ownCalls (s : Session) (name : List UInt8) (deliveries : List Delivery) :
    answers (ownCalls name (SessionRun.run s (deliveries.map Delivery.op)).calls)
      = productAnswers (s.productOf name) (ownDeliveries name deliveries) := by
  induction deliveries generalizing s with
  | nil => rfl
  | cons d deliveries ih =>
    have hproduct := productOf_step ⟨s, [], []⟩ d.op name
    have hnext := ih (SessionRun.step ⟨s, [], []⟩ d.op).session
    rw [hproduct] at hnext
    unfold ownDeliveries at hnext ⊢
    rw [calls_run_cons, ownCalls_cons, List.filter_cons]
    dsimp only
    by_cases hname : CefiParser.coinbaseProductId d.payload = some name
    · have hown : d.op.Names name := hname
      have hfollow : follow name (s.productOf name) d.op
          = (react (s.productOf name) d.payload d.t1Ns).product := if_pos hname
      rw [if_pos hown, if_pos (decide_eq_true hname), productFor_eq hname]
      unfold answers at hnext ⊢
      rw [List.map_cons, hnext, hfollow]
      rfl
    · have hother : ¬ d.op.Names name := hname
      have hfollow : follow name (s.productOf name) d.op = s.productOf name := if_neg hname
      rw [if_neg hother, if_neg (by simpa using hname), hnext, hfollow]

lemma ownCalls_run_ownDeliveries (s : Session) (name : List UInt8) (deliveries : List Delivery) :
    ownCalls name (SessionRun.run s ((ownDeliveries name deliveries).map Delivery.op)).calls
      = (SessionRun.run s ((ownDeliveries name deliveries).map Delivery.op)).calls := by
  apply List.filter_eq_self.mpr
  intro c hc
  have hop := List.mem_map_of_mem (f := (·.op)) hc
  rw [SessionRun.op_calls_run] at hop
  obtain ⟨d, hd, heq⟩ := List.mem_map.mp hop
  have hname : CefiParser.coinbaseProductId d.payload = some name :=
    of_decide_eq_true (List.mem_filter.mp hd).2
  rw [← heq]
  exact decide_eq_true hname

/-- The events and actions for the messages of a product, whatever comes between them, are those
of a session in the same state that gets these messages only. -/
theorem products_independent (s : Session) (name : List UInt8) (deliveries : List Delivery) :
    answers (ownCalls name (SessionRun.run s (deliveries.map Delivery.op)).calls)
      = answers (SessionRun.run s ((ownDeliveries name deliveries).map Delivery.op)).calls := by
  have hidem : ownDeliveries name (ownDeliveries name deliveries)
      = ownDeliveries name deliveries := by
    unfold ownDeliveries
    rw [List.filter_filter]
    simp only [Bool.and_self]
  calc answers (ownCalls name (SessionRun.run s (deliveries.map Delivery.op)).calls)
    _ = productAnswers (s.productOf name) (ownDeliveries name deliveries) :=
        answers_ownCalls s name deliveries
    _ = productAnswers (s.productOf name) (ownDeliveries name (ownDeliveries name deliveries)) := by
        rw [hidem]
    _ = answers (ownCalls name
          (SessionRun.run s ((ownDeliveries name deliveries).map Delivery.op)).calls) :=
        (answers_ownCalls s name _).symm
    _ = answers (SessionRun.run s ((ownDeliveries name deliveries).map Delivery.op)).calls := by
        rw [ownCalls_run_ownDeliveries]

end ChainMarketPrice.LiveFeed
