import ChainMarketPrice.Lib.FixedWidth
import ChainMarketPrice.CoreEngine.OrderBook

/-!
# The price ladder keeps its best price

A ladder whose prices lie on one side of the base keeps two facts: each level in use holds a
price of its own slot, and the best index points at the best level in use. Slots are then
disjoint price intervals, so that an in-place edit of the best level leaves it the best.
-/

namespace ChainMarketPrice.CoreEngine

/-! ## Slots -/

lemma toInt_div_tickSize (a : Int64) : (a / tickSize).toInt = a.toInt.tdiv 100000 :=
  Int64.toInt_div_of_ne_right _ _ (by decide)

lemma toInt_tickDistance {base p : Int64} (h : (p.toInt - base.toInt).natAbs < 2 ^ 63) :
    (tickDistance base p).toInt = (p.toInt - base.toInt).natAbs / 100000 := by
  unfold tickDistance
  split
  · next hle =>
    rw [ge_iff_le, Int64.le_iff_toInt_le] at hle
    have hsub : (p - base).toInt = p.toInt - base.toInt := by
      rw [Int64.toInt_sub]
      apply Int.bmod_eq_of_le <;> omega
    rw [toInt_div_tickSize, hsub, Int.tdiv_eq_ediv_of_nonneg (by omega)]
    omega
  · next hlt =>
    rw [ge_iff_le, Int64.le_iff_toInt_le] at hlt
    have hsub : (base - p).toInt = base.toInt - p.toInt := by
      rw [Int64.toInt_sub]
      apply Int.bmod_eq_of_le <;> omega
    rw [toInt_div_tickSize, hsub, Int.tdiv_eq_ediv_of_nonneg (by omega)]
    omega

/-- Unless the difference overflows, the index is the distance from the base in whole ticks. -/
lemma slot_eq_some_iff {base p : Int64} (h : (p.toInt - base.toInt).natAbs < 2 ^ 63)
    (i : Fin priceLevelsCount) :
    slot base p = some i ↔ (p.toInt - base.toInt).natAbs / 100000 = i := by
  have hi := i.isLt
  have hn : priceLevelsCount = 2048 := rfl
  have hd := toInt_tickDistance h
  unfold slot
  dsimp only
  split
  · next hwindow =>
    rw [Option.some_inj, Fin.ext_iff]
    dsimp only
    omega
  · next hwindow =>
    rw [ge_iff_le, Int64.le_iff_toInt_le, Int64.toInt_zero] at hwindow
    simp only [reduceCtorEq, false_iff]
    omega

lemma natAbs_sub_of_pos {base p : Int64} (hb : 0 < base) (hp : 0 < p) :
    (p.toInt - base.toInt).natAbs < 2 ^ 63 := by
  rw [Int64.lt_iff_toInt_lt, Int64.toInt_zero] at hb hp
  have hpLt := p.toInt_lt
  have hbLt := base.toInt_lt
  omega

/-! ## One side of the book -/

/-- What a side needs of the prices it is given: `better` is a strict order, every price beats
the sentinel of the rescan, and the prices of one slot compare alike with a price of another. -/
structure Side.Fair (side : Side) (base : Int64) (ok : Int64 → Prop) : Prop where
  irrefl : ∀ p, ¬ side.better p p
  trans : ∀ p q r, side.better p q → side.better q r → side.better p r
  beatsWorst : ∀ p, ok p → side.better p side.worst
  interval : ∀ p q q' i j, ok p → ok q → ok q' → slot base p = some j → slot base q = some i →
    slot base q' = some i → j ≠ i → side.better p q' → side.better p q

namespace Ladder

variable {side : Side} {base : Int64} {ok : Int64 → Prop} {ladder : Ladder}

/-- Index `i` holds the best level in use, or no level is in use. -/
def IsBest (side : Side) (levels : Vector PriceLevel priceLevelsCount)
    (i : Fin priceLevelsCount) : Prop :=
  (∀ j : Fin priceLevelsCount, (levels.get j).quantity = 0) ∨
    0 < (levels.get i).quantity ∧
      ∀ j : Fin priceLevelsCount, 0 < (levels.get j).quantity →
        ¬ side.better (levels.get j).price (levels.get i).price

/-- The invariant of one side. -/
structure Inv (side : Side) (base : Int64) (ok : Int64 → Prop) (ladder : Ladder) : Prop where
  home : ∀ i : Fin priceLevelsCount, 0 < (ladder.levels.get i).quantity →
    ok (ladder.levels.get i).price ∧ slot base (ladder.levels.get i).price = some i
  best : IsBest side ladder.levels ladder.bestIdx

/-- The rescan ends at the sentinel or at a level in use, with its price. -/
lemma scanBest_eq (side : Side) (levels : Vector PriceLevel priceLevelsCount) :
    scanBest side levels = (⟨0, priceLevelsCount_pos⟩, side.worst) ∨
      ∃ i : Fin priceLevelsCount, 0 < (levels.get i).quantity ∧
        scanBest side levels = (i, (levels.get i).price) := by
  unfold scanBest
  rcases BestScan.foldl_step_eq_or_mem (fun i => (levels.get i).quantity > 0)
    (fun i => (levels.get i).price) _ (List.finRange priceLevelsCount) with h | ⟨i, -, hi, h⟩
  · exact .inl h
  · exact .inr ⟨i, of_decide_eq_true hi, h⟩

/-- The rescan finds the best level. -/
lemma isBest_recalculateBest (hfair : side.Fair base ok)
    {levels : Vector PriceLevel priceLevelsCount}
    (hok : ∀ i : Fin priceLevelsCount, 0 < (levels.get i).quantity → ok (levels.get i).price) :
    IsBest side levels (recalculateBest side levels) := by
  have hmax (i : Fin priceLevelsCount) (hi : 0 < (levels.get i).quantity) :
      ¬ side.better (levels.get i).price (scanBest side levels).2 := by
    unfold scanBest
    exact BestScan.foldl_step_best (fun i => (levels.get i).quantity > 0)
      (fun i => (levels.get i).price) hfair.irrefl hfair.trans _ _ (List.mem_finRange i) (decide_eq_true hi)
  unfold recalculateBest
  rcases scanBest_eq side levels with h | ⟨i, hi, h⟩
  · -- the sentinel is kept only when there is nothing to beat it
    left
    intro j
    by_contra hj
    have hj := UInt64.pos_iff_ne_zero.mpr hj
    apply hmax j hj
    rw [h]
    exact hfair.beatsWorst _ (hok j hj)
  · right
    rw [h] at hmax ⊢
    exact ⟨hi, hmax⟩

/-- A write that makes its level better than the best one. -/
lemma isBest_of_better (hfair : side.Fair base ok) {levels : Vector PriceLevel priceLevelsCount}
    {best idx : Fin priceLevelsCount} {level : PriceLevel} (hbest : IsBest side levels best)
    (hq : 0 < level.quantity)
    (h : ((levels.set idx level idx.isLt).get best).quantity = 0 ∨
      side.better level.price ((levels.set idx level idx.isLt).get best).price) :
    IsBest side (levels.set idx level idx.isLt) idx := by
  have hne : best ≠ idx := by
    rintro rfl
    rw [get_set, if_pos rfl] at h
    rcases h with h | h
    · exact UInt64.ne_of_lt hq h.symm
    · exact hfair.irrefl _ h
  rw [get_set, if_neg hne] at h
  right
  rw [get_set, if_pos rfl]
  refine ⟨hq, fun j hj => ?_⟩
  rw [get_set] at hj ⊢
  split
  · exact hfair.irrefl _
  · next hji =>
    rw [if_neg hji] at hj
    rcases hbest with hempty | ⟨hlive, hmax⟩
    · exact absurd (hempty j) (UInt64.ne_of_lt hj).symm
    · rcases h with h | h
      · exact absurd h (UInt64.ne_of_lt hlive).symm
      · exact fun hb => hmax j hj (hfair.trans _ _ _ hb h)

/-- A write that is no better than the best level: the best index stays. -/
lemma isBest_of_not_better (hfair : side.Fair base ok) (hinv : ladder.Inv side base ok)
    {idx : Fin priceLevelsCount} {level : PriceLevel} (hok : ok level.price)
    (hslot : slot base level.price = some idx)
    (hq : 0 < ((ladder.levels.set idx level idx.isLt).get ladder.bestIdx).quantity)
    (hb : ¬ side.better level.price
      ((ladder.levels.set idx level idx.isLt).get ladder.bestIdx).price) :
    IsBest side (ladder.levels.set idx level idx.isLt) ladder.bestIdx := by
  right
  refine ⟨hq, fun j hj => ?_⟩
  rw [get_set] at hj ⊢
  by_cases hji : j = idx
  · rwa [if_pos hji]
  · rw [if_neg hji] at hj ⊢
    obtain ⟨hokj, hslotj⟩ := hinv.home j hj
    rw [get_set]
    rcases hinv.best with hempty | ⟨hlive, hmax⟩
    · exact absurd (hempty j) (UInt64.ne_of_lt hj).symm
    split
    · -- the best level is edited in place: its old and new price share a slot
      next heq =>
      obtain ⟨hokb, hslotb⟩ := hinv.home ladder.bestIdx hlive
      intro hbetter
      apply hmax j hj
      rw [← heq] at hslot hji
      exact hfair.interval _ _ _ _ _ hokj hokb hok hslotj hslotb hslot hji hbetter
    · exact hmax j hj

/-- A level is emptied that is not the best one. -/
lemma isBest_of_emptied {levels : Vector PriceLevel priceLevelsCount}
    {best idx : Fin priceLevelsCount} {level : PriceLevel} (hbest : IsBest side levels best)
    (hq : level.quantity = 0) (hne : idx ≠ best) :
    IsBest side (levels.set idx level idx.isLt) best := by
  rcases hbest with hempty | ⟨hlive, hmax⟩
  · left
    intro j
    rw [get_set]
    split
    · exact hq
    · exact hempty j
  · right
    rw [get_set, if_neg (Ne.symm hne)]
    refine ⟨hlive, fun j hj => ?_⟩
    rw [get_set] at hj ⊢
    split at hj
    · simp [hq] at hj
    · next hji =>
      rw [if_neg hji]
      exact hmax j hj

/-- A write keeps every level in use in its own slot. -/
lemma Inv.home_set (hinv : ladder.Inv side base ok) {idx : Fin priceLevelsCount}
    {level : PriceLevel} (hok : ok level.price) (hslot : slot base level.price = some idx)
    (i : Fin priceLevelsCount) (hi : 0 < ((ladder.levels.set idx level idx.isLt).get i).quantity) :
    ok ((ladder.levels.set idx level idx.isLt).get i).price ∧
      slot base ((ladder.levels.set idx level idx.isLt).get i).price = some i := by
  rw [get_set] at hi ⊢
  split at hi
  · next h =>
    rw [if_pos h, h]
    exact ⟨hok, hslot⟩
  · next h =>
    rw [if_neg h]
    exact hinv.home i hi

/-- One update keeps the invariant. -/
theorem Inv.update (hfair : side.Fair base ok) (hinv : ladder.Inv side base ok)
    {level : PriceLevel} (hok : ok level.price) :
    (ladder.update side base level).Inv side base ok := by
  unfold Ladder.update
  split
  · exact hinv
  · next idx hslot =>
    have hhome := fun i => hinv.home_set hok hslot i
    dsimp only
    split
    · next h => exact ⟨hhome, isBest_of_better hfair hinv.best h.1 h.2⟩
    split
    · refine ⟨hhome, ?_⟩
      dsimp only
      apply isBest_recalculateBest hfair
      exact fun i hi => (hhome i hi).1
    · next hset hzero =>
      refine ⟨hhome, ?_⟩
      by_cases hq : level.quantity = 0
      · exact isBest_of_emptied hinv.best hq fun h => hzero ⟨hq, h⟩
      · have hset' := not_and.mp hset (UInt64.pos_iff_ne_zero.mpr hq)
        rw [not_or] at hset'
        exact isBest_of_not_better hfair hinv hok hslot
          (UInt64.pos_iff_ne_zero.mpr hset'.1) hset'.2

/-- Any sequence of updates keeps the invariant. -/
theorem Inv.foldl_update (hfair : side.Fair base ok) (hinv : ladder.Inv side base ok)
    {levels : List PriceLevel} (hok : ∀ level ∈ levels, ok level.price) :
    (levels.foldl (Ladder.update side base) ladder).Inv side base ok := by
  induction levels generalizing ladder with
  | nil => exact hinv
  | cons level levels ih =>
    rw [List.foldl_cons]
    apply ih
    · exact hinv.update hfair (hok level List.mem_cons_self)
    · exact fun l hl => hok l (List.mem_cons_of_mem _ hl)

/-- An empty ladder meets the invariant, wherever its best index points. -/
lemma inv_replicate (best : Fin priceLevelsCount) :
    Inv side base ok { levels := Vector.replicate _ {}, bestIdx := best } where
  home i hi := by
    rw [get_replicate] at hi
    exact absurd hi (by decide)
  best := .inl fun j => congrArg PriceLevel.quantity (get_replicate {} j)

/-- What the best level is, when there is one. -/
lemma Inv.bbo_eq_some (hinv : ladder.Inv side base ok) {level : PriceLevel}
    (h : ladder.bbo = some level) :
    level ∈ ladder.levels ∧ 0 < level.quantity ∧
      ∀ l ∈ ladder.levels, 0 < l.quantity → ¬ side.better l.price level.price := by
  unfold bbo at h
  split at h
  · next hq =>
    cases h
    refine ⟨Vector.getElem_mem _, hq, fun l hl hlq => ?_⟩
    obtain ⟨i, hi, rfl⟩ := Vector.mem_iff_getElem.mp hl
    rcases hinv.best with hempty | ⟨-, hmax⟩
    · exact absurd (hempty ⟨i, hi⟩) (UInt64.ne_of_lt hlq).symm
    · exact hmax ⟨i, hi⟩ hlq
  · simp at h

/-- There is none exactly when no level is in use. -/
lemma Inv.bbo_eq_none_iff (hinv : ladder.Inv side base ok) :
    ladder.bbo = none ↔ ∀ l ∈ ladder.levels, l.quantity = 0 := by
  unfold bbo
  split
  · next hq =>
    simp only [reduceCtorEq, false_iff]
    intro hempty
    exact UInt64.ne_of_lt hq (hempty _ (Vector.getElem_mem _)).symm
  · next hq =>
    simp only [true_iff]
    intro l hl
    obtain ⟨i, hi, rfl⟩ := Vector.mem_iff_getElem.mp hl
    rcases hinv.best with hempty | ⟨hlive, -⟩
    · exact hempty ⟨i, hi⟩
    · exact absurd hlive hq

end Ladder

/-! ## Bids and asks on one side of the base -/

/-- All prices are at or above the base, or all are at or below it. -/
def OneSided (base : Int64) (prices : List Int64) : Prop :=
  (∀ p ∈ prices, base ≤ p) ∨ ∀ p ∈ prices, p ≤ base

/-- The prices that updates may carry: positive, below `i64::MAX`, and on one side. -/
structure Quotable (base : Int64) (above : Bool) (p : Int64) : Prop where
  pos : 0 < p
  lt_max : p < Int64.maxValue
  onSide : if above then base ≤ p else p ≤ base

/-- Slots are disjoint price intervals: two prices of one slot lie on the same side of any
price of another slot. -/
lemma Quotable.lt_iff_lt {base p q q' : Int64} {above : Bool} {i j : Fin priceLevelsCount}
    (hb : 0 < base) (hp : Quotable base above p) (hq : Quotable base above q)
    (hq' : Quotable base above q') (hj : slot base p = some j) (hi : slot base q = some i)
    (hi' : slot base q' = some i) (hne : j ≠ i) :
    (p.toInt < q.toInt ↔ p.toInt < q'.toInt) ∧ (q.toInt < p.toInt ↔ q'.toInt < p.toInt) := by
  rw [slot_eq_some_iff (natAbs_sub_of_pos hb hp.pos)] at hj
  rw [slot_eq_some_iff (natAbs_sub_of_pos hb hq.pos)] at hi
  rw [slot_eq_some_iff (natAbs_sub_of_pos hb hq'.pos)] at hi'
  have hne' := Fin.val_ne_of_ne hne
  have h1 := hp.onSide
  have h2 := hq.onSide
  have h3 := hq'.onSide
  cases above
  · simp only [Bool.false_eq_true, if_false, Int64.le_iff_toInt_le] at h1 h2 h3
    omega
  · simp only [if_true, Int64.le_iff_toInt_le] at h1 h2 h3
    omega

lemma fair_bid {base : Int64} (hb : 0 < base) (above : Bool) :
    Side.bid.Fair base (Quotable base above) where
  irrefl p := by simp [Side.bid]
  trans p q r hpq hqr := by
    simp only [Side.bid, decide_eq_true_eq] at *
    exact Int64.lt_trans hqr hpq
  beatsWorst p hp := by simpa [Side.bid] using hp.pos
  interval p q q' i j hp hq hq' hj hi hi' hne h := by
    simp only [Side.bid, gt_iff_lt, decide_eq_true_eq, Int64.lt_iff_toInt_lt] at h ⊢
    exact (hp.lt_iff_lt hb hq hq' hj hi hi' hne).2.mpr h

lemma fair_ask {base : Int64} (hb : 0 < base) (above : Bool) :
    Side.ask.Fair base (Quotable base above) where
  irrefl p := by simp [Side.ask]
  trans p q r hpq hqr := by
    simp only [Side.ask, decide_eq_true_eq] at *
    exact Int64.lt_trans hpq hqr
  beatsWorst p hp := by simpa [Side.ask] using hp.lt_max
  interval p q q' i j hp hq hq' hj hi hi' hne h := by
    simp only [Side.ask, decide_eq_true_eq, Int64.lt_iff_toInt_lt] at h ⊢
    exact (hp.lt_iff_lt hb hq hq' hj hi hi' hne).1.mpr h

/-! ## Runs of the book -/

namespace ContiguousOrderBook

/-- The two sides of a run are independent. -/
lemma foldl_step (book : ContiguousOrderBook) (calls : List BookCall) :
    calls.foldl step book =
      { bids := (bidUpdates calls).foldl (Ladder.update .bid book.basePrice) book.bids
        asks := (askUpdates calls).foldl (Ladder.update .ask book.basePrice) book.asks
        basePrice := book.basePrice } := by
  induction calls generalizing book with
  | nil => rfl
  | cons call calls ih =>
    rw [List.foldl_cons, ih]
    cases call <;> rfl

lemma bids_run (base : Int64) (calls : List BookCall) :
    (run base calls).bids = (bidUpdates calls).foldl (Ladder.update .bid base) (new base).bids := by
  unfold run
  rw [foldl_step]
  rfl

lemma asks_run (base : Int64) (calls : List BookCall) :
    (run base calls).asks = (askUpdates calls).foldl (Ladder.update .ask base) (new base).asks := by
  unfold run
  rw [foldl_step]
  rfl

end ContiguousOrderBook

lemma OneSided.quotable {base : Int64} {levels : List PriceLevel}
    (h : OneSided base (levels.map (·.price)))
    (hprices : ∀ level ∈ levels, 0 < level.price ∧ level.price < Int64.maxValue) :
    ∃ above, ∀ level ∈ levels, Quotable base above level.price := by
  rcases h with h | h
  · refine ⟨true, fun level hl => ⟨(hprices level hl).1, (hprices level hl).2, ?_⟩⟩
    simpa using h _ (List.mem_map_of_mem hl)
  · refine ⟨false, fun level hl => ⟨(hprices level hl).1, (hprices level hl).2, ?_⟩⟩
    simpa using h _ (List.mem_map_of_mem hl)

lemma mem_of_mem_bidUpdates {calls : List BookCall} {level : PriceLevel}
    (h : level ∈ bidUpdates calls) : BookCall.updateBid level ∈ calls := by
  obtain ⟨call, hcall, heq⟩ := List.mem_filterMap.mp h
  cases call <;> simp_all

lemma mem_of_mem_askUpdates {calls : List BookCall} {level : PriceLevel}
    (h : level ∈ askUpdates calls) : BookCall.updateAsk level ∈ calls := by
  obtain ⟨call, hcall, heq⟩ := List.mem_filterMap.mp h
  cases call <;> simp_all

/-- After any sequence of updates whose bids lie on one side of the base, and whose asks lie on
one side, the best bid is the highest bid in use and the best ask the lowest ask in use. -/
theorem bbo_is_best (base : Int64) (hbase : 0 < base) (calls : List BookCall)
    (hprices : ∀ call ∈ calls, 0 < call.level.price ∧ call.level.price < Int64.maxValue)
    (hbids : OneSided base ((bidUpdates calls).map (·.price)))
    (hasks : OneSided base ((askUpdates calls).map (·.price))) :
    let book := ContiguousOrderBook.run base calls
    ((∀ level, book.bboBid = some level → level ∈ book.bids.levels ∧ 0 < level.quantity ∧
        ∀ l ∈ book.bids.levels, 0 < l.quantity → l.price ≤ level.price) ∧
      (book.bboBid = none ↔ ∀ l ∈ book.bids.levels, l.quantity = 0)) ∧
    ((∀ level, book.bboAsk = some level → level ∈ book.asks.levels ∧ 0 < level.quantity ∧
        ∀ l ∈ book.asks.levels, 0 < l.quantity → level.price ≤ l.price) ∧
      (book.bboAsk = none ↔ ∀ l ∈ book.asks.levels, l.quantity = 0)) := by
  obtain ⟨aboveBid, hokBid⟩ := hbids.quotable fun level hl => by
    simpa only [BookCall.level] using hprices _ (mem_of_mem_bidUpdates hl)
  obtain ⟨aboveAsk, hokAsk⟩ := hasks.quotable fun level hl => by
    simpa only [BookCall.level] using hprices _ (mem_of_mem_askUpdates hl)
  have hbid : (ContiguousOrderBook.run base calls).bids.Inv .bid base (Quotable base aboveBid) := by
    rw [ContiguousOrderBook.bids_run]
    exact (Ladder.inv_replicate _).foldl_update (fair_bid hbase aboveBid) hokBid
  have hask : (ContiguousOrderBook.run base calls).asks.Inv .ask base (Quotable base aboveAsk) := by
    rw [ContiguousOrderBook.asks_run]
    exact (Ladder.inv_replicate _).foldl_update (fair_ask hbase aboveAsk) hokAsk
  refine ⟨⟨fun level h => ?_, hbid.bbo_eq_none_iff⟩, fun level h => ?_, hask.bbo_eq_none_iff⟩
  · have hbest := hbid.bbo_eq_some h
    refine ⟨hbest.1, hbest.2.1, fun l hl hlq => ?_⟩
    simpa [Side.bid] using hbest.2.2 l hl hlq
  · have hbest := hask.bbo_eq_some h
    refine ⟨hbest.1, hbest.2.1, fun l hl hlq => ?_⟩
    simpa [Side.ask] using hbest.2.2 l hl hlq

/-- Bids below the base, one of them a sub-tick edit of the best one and one emptied, and an
ask above it. -/
def quotes : List BookCall :=
  [.updateBid ⟨199700000, 3, 1, 1⟩, .updateBid ⟨199950000, 5, 1, 2⟩,
    .updateBid ⟨199920000, 7, 1, 3⟩, .updateBid ⟨199700000, 0, 0, 4⟩,
    .updateAsk ⟨200300000, 2, 1, 5⟩]

theorem bbo_is_best_quotes :
    (ContiguousOrderBook.run 200000000 quotes).bboBid = some ⟨199920000, 7, 1, 3⟩ ∧
      ∀ l ∈ (ContiguousOrderBook.run 200000000 quotes).bids.levels,
        0 < l.quantity → l.price ≤ 199920000 := by
  have hbest : (ContiguousOrderBook.run 200000000 quotes).bboBid = some ⟨199920000, 7, 1, 3⟩ := by
    decide +kernel
  have hbids : ∀ p ∈ (bidUpdates quotes).map (·.price), p ≤ 200000000 := by
    simp [quotes, bidUpdates]
  have hasks : ∀ p ∈ (askUpdates quotes).map (·.price), 200000000 ≤ p := by
    simp [quotes, askUpdates]
  have h := bbo_is_best 200000000 (by decide) quotes (by decide) (.inr hbids) (.inl hasks)
  exact ⟨hbest, (h.1.1 _ hbest).2.2⟩

/-! ## Updates of different slots -/

/-- The distance of a price from the base in whole ticks, in exact integers. -/
def tickIndex (base p : Int64) : ℕ := (p.toInt - base.toInt).natAbs / 100000

/-- The tick of a price above (or, negative, below) the base, rounded down. -/
def signedTick (base p : Int64) : ℤ := (p.toInt - base.toInt) / 100000

/-- An update writes its own slot and no other. -/
lemma Ladder.get_update (side : Side) (base : Int64) (ladder : Ladder) (level : PriceLevel)
    (i : Fin priceLevelsCount) :
    (ladder.update side base level).levels.get i =
      if slot base level.price = some i then level else ladder.levels.get i := by
  unfold Ladder.update
  split
  · next h => rw [h, if_neg (by simp)]
  · next idx h =>
    rw [h]
    dsimp only
    have hset := Ladder.get_set ladder.levels idx i level
    simp only [Option.some_inj, eq_comm (a := idx)]
    split
    · exact hset
    split
    · exact hset
    · exact hset

/-- A slot is unchanged by updates of other slots. -/
lemma Ladder.get_foldl_update (side : Side) {base : Int64} {i : Fin priceLevelsCount}
    (ladder : Ladder) (levels : List PriceLevel)
    (h : ∀ level ∈ levels, slot base level.price ≠ some i) :
    (levels.foldl (Ladder.update side base) ladder).levels.get i = ladder.levels.get i := by
  induction levels generalizing ladder with
  | nil => rfl
  | cons level levels ih =>
    rw [List.foldl_cons, ih _ fun l hl => h l (List.mem_cons_of_mem _ hl),
      Ladder.get_update, if_neg (h level List.mem_cons_self)]

/-- An update still stands in its slot when no later one had the same distance from the base. -/
lemma Ladder.update_stands {side : Side} {base : Int64} (hbase : 0 < base) (ladder : Ladder)
    (before after : List PriceLevel) (level : PriceLevel) (hpos : 0 < level.price)
    (hwindow : tickIndex base level.price < priceLevelsCount)
    (hafter : ∀ l ∈ after, 0 < l.price ∧ tickIndex base l.price ≠ tickIndex base level.price) :
    ((before ++ level :: after).foldl (Ladder.update side base) ladder).levels[
      tickIndex base level.price]? = some level := by
  have hslot : slot base level.price = some ⟨tickIndex base level.price, hwindow⟩ :=
    (slot_eq_some_iff (natAbs_sub_of_pos hbase hpos) _).mpr rfl
  have hother : ∀ l ∈ after, slot base l.price ≠ some ⟨tickIndex base level.price, hwindow⟩ := by
    intro l hl h
    rw [slot_eq_some_iff (natAbs_sub_of_pos hbase (hafter l hl).1)] at h
    exact (hafter l hl).2 h
  rw [List.foldl_append, List.foldl_cons, Vector.getElem?_eq_getElem hwindow, Option.some_inj]
  have hkeep := Ladder.get_foldl_update side
    (Ladder.update side base (before.foldl (Ladder.update side base) ladder) level) after hother
  rw [Ladder.get_update, if_pos hslot] at hkeep
  exact hkeep

lemma bidUpdates_map (levels : List PriceLevel) :
    bidUpdates (levels.map .updateBid) = levels := by
  simp [bidUpdates, List.filterMap_map]

lemma askUpdates_map (levels : List PriceLevel) :
    askUpdates (levels.map .updateAsk) = levels := by
  simp [askUpdates, List.filterMap_map]

/-- Updates at different distances from the base do not disturb each other: an update stands
at its index as long as no later one has the same distance in ticks. -/
theorem slots_independent (base : Int64) (hbase : 0 < base) (before after : List PriceLevel)
    (level : PriceLevel)
    (hprices : ∀ l ∈ before ++ level :: after,
      0 < l.price ∧ tickIndex base l.price < priceLevelsCount)
    (hlater : ∀ l ∈ after, tickIndex base l.price ≠ tickIndex base level.price) :
    let updates := before ++ level :: after
    let idx := tickIndex base level.price
    (ContiguousOrderBook.run base (updates.map .updateBid)).bids.levels[idx]? = some level ∧
      (ContiguousOrderBook.run base (updates.map .updateAsk)).asks.levels[idx]? = some level := by
  have hlevel := hprices level (by simp)
  have hafter : ∀ l ∈ after,
      0 < l.price ∧ tickIndex base l.price ≠ tickIndex base level.price :=
    fun l hl => ⟨(hprices l (by simp [hl])).1, hlater l hl⟩
  dsimp only
  rw [ContiguousOrderBook.bids_run, ContiguousOrderBook.asks_run, bidUpdates_map, askUpdates_map]
  constructor
  · exact Ladder.update_stands hbase _ before after level hlevel.1 hlevel.2 hafter
  · exact Ladder.update_stands hbase _ before after level hlevel.1 hlevel.2 hafter

theorem slots_independent_twoTicks :
    (ContiguousOrderBook.run 200000000
      [.updateBid ⟨200100000, 5, 1, 1⟩, .updateBid ⟨199800000, 7, 1, 2⟩]).bids.levels[1]? =
        some ⟨200100000, 5, 1, 1⟩ := by
  have h := slots_independent 200000000 (by decide) [] [⟨199800000, 7, 1, 2⟩]
    ⟨200100000, 5, 1, 1⟩ (by decide) (by decide)
  have hidx : tickIndex 200000000 200100000 = 1 := by decide
  dsimp only [List.nil_append, List.map_cons, List.map_nil] at h
  rw [hidx] at h
  exact h.1

/-- Signed ticks do not tell slots apart: a bid one tick below the base replaces the bid one
tick above it. -/
theorem mirrored_update_lost :
    ¬ ∀ (base : Int64) (before after : List PriceLevel) (level : PriceLevel), 0 < base →
      (∀ l ∈ before ++ level :: after,
        0 < l.price ∧ tickIndex base l.price < priceLevelsCount) →
      (∀ l ∈ after, signedTick base l.price ≠ signedTick base level.price) →
      level ∈ (ContiguousOrderBook.run base
        ((before ++ level :: after).map .updateBid)).bids.levels := by
  intro h
  have hmem := h 200000000 [] [⟨199900000, 7, 1, 2⟩] ⟨200100000, 5, 1, 1⟩ (by decide)
    (by decide) (by decide)
  dsimp only [List.nil_append, List.map_cons, List.map_nil] at hmem
  rw [← Vector.mem_toList_iff] at hmem
  have hlost : (⟨200100000, 5, 1, 1⟩ : PriceLevel) ∉ (ContiguousOrderBook.run 200000000
      [.updateBid ⟨200100000, 5, 1, 1⟩,
        .updateBid ⟨199900000, 7, 1, 2⟩]).bids.levels.toList := by
    decide +kernel
  exact hlost hmem

end ChainMarketPrice.CoreEngine
