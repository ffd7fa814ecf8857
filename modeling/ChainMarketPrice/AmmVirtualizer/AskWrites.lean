import ChainMarketPrice.Lib.History
import ChainMarketPrice.AmmVirtualizer.ConcentratedLiquidity

/-!
# Asks written in place

The populators write asks into the ladder without touching its best index, which on a fresh
book is the last slot. What a loop of such writes leaves in a slot is said as a history of the
loop's items: some item put depth there and no later item fell into the slot. From that, when
the best index happens to be right.
-/

namespace ChainMarketPrice.AmmVirtualizer

open CoreEngine FixedWidth

/-! ## Slots of asks -/

/-- The last slot, where the best index of a fresh ladder points. -/
def lastSlot : Fin priceLevelsCount := ⟨priceLevelsCount - 1, last_lt_priceLevelsCount⟩

/-- The tick of a distance bounds the distance. -/
lemma bounds_of_tdiv {w : ℤ} {i : ℕ} (hi : (w.tdiv 100000).toNat = i) (h : 0 ≤ w.tdiv 100000) :
    -100000 < w ∧ w < (i + 1) * 100000 ∧ (0 < i → i * 100000 ≤ w) := by
  rcases Int.le_total 0 w with hw | hw
  · rw [Int.tdiv_eq_ediv_of_nonneg hw] at hi h
    omega
  · have hneg := Int.neg_tdiv (a := w) (b := 100000)
    rw [Int.tdiv_eq_ediv_of_nonneg (by omega)] at hneg
    omega

/-- The slot of a price is its distance from the base in ticks, truncated toward zero. -/
lemma askSlot_eq_some_iff {base p : Int64} {i : Fin priceLevelsCount} :
    askSlot base p = some i ↔
      0 ≤ (p - base).toInt.tdiv 100000 ∧ ((p - base).toInt.tdiv 100000).toNat = i.val := by
  have hdiv : ((p - base) / tickSize).toInt = (p - base).toInt.tdiv 100000 :=
    Int64.toInt_div_of_ne_right _ _ (by decide)
  have hi := i.isLt
  unfold askSlot
  dsimp only
  split
  · next hd =>
    rw [ge_iff_le, Int64.le_iff_toInt_le, Int64.toInt_zero, hdiv] at hd
    rw [Option.some_inj, Fin.ext_iff]
    dsimp only
    rw [hdiv]
    exact (and_iff_right hd.1).symm
  · next hd =>
    rw [ge_iff_le, Int64.le_iff_toInt_le, Int64.toInt_zero, hdiv] at hd
    constructor
    · intro h
      cases h
    · rintro ⟨hnonneg, heq⟩
      exact absurd ⟨hnonneg, by omega⟩ hd

/-- The wrapped distance of a price from the base lies in its slot. -/
lemma bounds_of_askSlot {base p : Int64} {i : Fin priceLevelsCount}
    (h : askSlot base p = some i) :
    -100000 < (p.toInt - base.toInt).bmod (2 ^ 64) ∧
      (p.toInt - base.toInt).bmod (2 ^ 64) < (i.val + 1) * 100000 ∧
      (0 < i.val → i.val * 100000 ≤ (p.toInt - base.toInt).bmod (2 ^ 64)) := by
  obtain ⟨hnonneg, hi⟩ := askSlot_eq_some_iff.mp h
  rw [Int64.toInt_sub] at hnonneg hi
  exact bounds_of_tdiv hi hnonneg

/-- Prices of a lower slot are lower, unless the upper slot's price has wrapped below zero. -/
lemma lt_or_wrapped {base p q : Int64} {i j : Fin priceLevelsCount}
    (hp : askSlot base p = some i) (hq : askSlot base q = some j) (hij : i < j) :
    p < q ∨ q < 0 ∧ 0 ≤ p ∧ 2 ^ 63 ≤ p.toInt - q.toInt := by
  have hwp := bounds_of_askSlot hp
  have hwq := bounds_of_askSlot hq
  have hkp := Int.bmod_add_bdiv' (p.toInt - base.toInt) (2 ^ 64)
  have hkq := Int.bmod_add_bdiv' (q.toInt - base.toInt) (2 ^ 64)
  have hj : j.val < 2048 := j.isLt
  have hij' : i.val < j.val := hij
  have := p.toInt_lt
  have := p.le_toInt
  have := q.toInt_lt
  have := q.le_toInt
  have := base.toInt_lt
  have := base.le_toInt
  rw [Int64.lt_iff_toInt_lt, Int64.lt_iff_toInt_lt, Int64.le_iff_toInt_le, Int64.toInt_zero]
  generalize (p.toInt - base.toInt).bmod (2 ^ 64) = w at *
  generalize (q.toInt - base.toInt).bmod (2 ^ 64) = v at *
  omega

/-! ## Writes of a loop -/

section

variable {τ : Type} (base : Int64) (priceOf : τ → Option Int64) (qtyOf : List τ → τ → UInt64)

/-- Some item wrote depth at price `p` to slot `i`, and no later item wrote to the slot. An
item writes nothing when it has no price; its quantity may depend on the items before it. -/
def Filled (items : List τ) (i : Fin priceLevelsCount) (p : Int64) : Prop :=
  History.Since
    (fun before item => priceOf item = some p ∧ askSlot base p = some i ∧ 0 < qtyOf before item)
    (fun item => (priceOf item).bind (askSlot base) ≠ some i) items

/-- Depth is left in a slot below the last one. -/
def DepthBelowLast (items : List τ) : Prop :=
  ∃ i < lastSlot, ∃ p, Filled base priceOf qtyOf items i p

/-- The ask side of a fresh book after the writes of `items`. -/
structure AskRun (items : List τ) (book : ContiguousOrderBook) : Prop where
  basePrice : book.basePrice = base
  bestIdx : book.asks.bestIdx = lastSlot
  level : ∀ (i : Fin priceLevelsCount) (p : Int64),
    Filled base priceOf qtyOf items i p ↔
      0 < (book.asks.levels.get i).quantity ∧ (book.asks.levels.get i).price = p

variable {base priceOf qtyOf} {items : List τ} {item : τ} {book : ContiguousOrderBook}

lemma AskRun.fresh : AskRun base priceOf qtyOf [] (.new base) where
  basePrice := rfl
  bestIdx := rfl
  level i p := by
    constructor
    · exact fun h => absurd h History.not_since_nil
    · rintro ⟨hquantity, -⟩
      rw [(ContiguousOrderBook.get_new base i).2] at hquantity
      exact absurd hquantity (by decide)

/-- Bids do not touch the asks. -/
lemma AskRun.updateBid (h : AskRun base priceOf qtyOf items book) (level : PriceLevel) :
    AskRun base priceOf qtyOf items (book.updateBid level) :=
  ⟨h.basePrice, h.bestIdx, h.level⟩

lemma AskRun.skip (h : AskRun base priceOf qtyOf items book) (hprice : priceOf item = none) :
    AskRun base priceOf qtyOf (items ++ [item]) book where
  basePrice := h.basePrice
  bestIdx := h.bestIdx
  level i p := by
    rw [← h.level]
    unfold Filled
    rw [History.since_concat]
    simp [hprice]

lemma basePrice_writeAsk (book : ContiguousOrderBook) (price : Int64) (quantity ts : UInt64) :
    (writeAsk book price quantity ts).basePrice = book.basePrice := by
  unfold writeAsk
  split <;> rfl

lemma bestIdx_writeAsk (book : ContiguousOrderBook) (price : Int64) (quantity ts : UInt64) :
    (writeAsk book price quantity ts).asks.bestIdx = book.asks.bestIdx := by
  unfold writeAsk
  split <;> rfl

/-- A write changes its own slot only. -/
lemma get_writeAsk (book : ContiguousOrderBook) (price : Int64) (quantity ts : UInt64)
    (i : Fin priceLevelsCount) :
    (writeAsk book price quantity ts).asks.levels.get i =
      if askSlot book.basePrice price = some i then
        { book.asks.levels.get i with price := price, quantity := quantity, lastUpdateTs := ts }
      else book.asks.levels.get i := by
  unfold writeAsk
  split
  · next h => rw [h, if_neg (by simp)]
  · next idx h =>
    rw [h]
    dsimp only
    rw [Ladder.get_set]
    by_cases heq : i = idx
    · rw [if_pos heq, if_pos (by rw [heq]), heq]
    · rw [if_neg heq, if_neg fun h' => heq (Option.some_inj.mp h').symm]

/-- A write is one more event of the history. -/
lemma AskRun.write (h : AskRun base priceOf qtyOf items book) {p : Int64} (ts : UInt64)
    (hprice : priceOf item = some p) :
    AskRun base priceOf qtyOf (items ++ [item]) (writeAsk book p (qtyOf items item) ts) where
  basePrice := by rw [basePrice_writeAsk, h.basePrice]
  bestIdx := by rw [bestIdx_writeAsk, h.bestIdx]
  level i q := by
    have hlevel := h.level i q
    unfold Filled at hlevel ⊢
    rw [History.since_concat, hlevel, get_writeAsk, h.basePrice, hprice, Option.bind_some]
    by_cases hslot : askSlot base p = some i
    · rw [if_pos hslot]
      constructor
      · rintro (⟨hq, -, hpos⟩ | ⟨-, hne⟩)
        · exact ⟨hpos, Option.some_inj.mp hq⟩
        · exact absurd hslot hne
      · rintro ⟨hpos, rfl⟩
        exact .inl ⟨rfl, hslot, hpos⟩
    · rw [if_neg hslot]
      constructor
      · rintro (⟨hq, hslot', -⟩ | ⟨hold, -⟩)
        · rw [← Option.some_inj.mp hq] at hslot'
          exact absurd hslot' hslot
        · exact hold
      · exact fun hold => .inr ⟨hold, hslot⟩

end

/-! ## The best ask -/

/-- If some ask has depth, the book reports a best ask, and it is the cheapest of them. -/
def HasBestAsk (book : ContiguousOrderBook) : Prop :=
  (∃ l ∈ book.asks.levels, 0 < l.quantity) →
    ∃ level, book.bboAsk = some level ∧ level ∈ book.asks.levels ∧ 0 < level.quantity ∧
      ∀ l ∈ book.asks.levels, 0 < l.quantity → level.price ≤ l.price

section

variable {τ : Type} {base : Int64} {priceOf : τ → Option Int64} {qtyOf : List τ → τ → UInt64}
  {items : List τ} {i : Fin priceLevelsCount} {p : Int64} {book : ContiguousOrderBook}

/-- The item that filled a slot. -/
lemma Filled.exists_item (h : Filled base priceOf qtyOf items i p) :
    ∃ item ∈ items, priceOf item = some p ∧ askSlot base p = some i := by
  obtain ⟨before, item, after, hitems, ⟨hprice, hslot, -⟩, -⟩ := h
  refine ⟨item, ?_, hprice, hslot⟩
  rw [hitems]
  exact List.mem_append_right _ List.mem_cons_self

lemma AskRun.bboAsk_eq (h : AskRun base priceOf qtyOf items book) :
    book.bboAsk =
      if 0 < (book.asks.levels.get lastSlot).quantity then some (book.asks.levels.get lastSlot) else none := by
  unfold ContiguousOrderBook.bboAsk Ladder.bbo
  simp only [h.bestIdx, gt_iff_lt]

lemma eq_lastSlot_or_lt (i : Fin priceLevelsCount) : i = lastSlot ∨ i < lastSlot := by
  have hi := i.isLt
  have hlast : lastSlot.val = priceLevelsCount - 1 := rfl
  rw [Fin.ext_iff, Fin.lt_def]
  omega

lemma exists_slot {levels : Vector PriceLevel priceLevelsCount} {l : PriceLevel}
    (h : l ∈ levels) : ∃ i : Fin priceLevelsCount, levels.get i = l := by
  obtain ⟨k, hk, heq⟩ := Vector.mem_iff_getElem.mp h
  exact ⟨⟨k, hk⟩, heq⟩

/-- The best index is right exactly when every slot with depth below the last one is beaten by
a price of the last slot that has wrapped below zero. -/
theorem AskRun.hasBestAsk_iff (h : AskRun base priceOf qtyOf items book) :
    HasBestAsk book ↔ ∀ i < lastSlot, ∀ p, Filled base priceOf qtyOf items i p →
      0 ≤ p ∧ ∃ q < 0, Filled base priceOf qtyOf items lastSlot q := by
  constructor
  · intro hbest i hi p hfilled
    obtain ⟨hlive, hprice⟩ := (h.level i p).mp hfilled
    have hmem : book.asks.levels.get i ∈ book.asks.levels := Vector.getElem_mem _
    obtain ⟨level, hbbo, -, -, hmin⟩ := hbest ⟨_, hmem, hlive⟩
    rw [h.bboAsk_eq] at hbbo
    split at hbbo
    · next hq =>
      have hlast := (h.level lastSlot _).mpr ⟨hq, rfl⟩
      have hle := hmin _ hmem hlive
      rw [← Option.some_inj.mp hbbo, hprice] at hle
      obtain ⟨-, -, -, hslotp⟩ := hfilled.exists_item
      obtain ⟨-, -, -, hslotq⟩ := hlast.exists_item
      -- an earlier slot holds the lower price, unless the later one has wrapped
      rcases lt_or_wrapped hslotp hslotq hi with hlt | ⟨hneg, hpos, -⟩
      · exact absurd hlt (Int64.not_lt.mpr hle)
      · exact ⟨hpos, _, hneg, hlast⟩
    · simp at hbbo
  · rintro hcond ⟨l, hl, hq⟩
    obtain ⟨k, rfl⟩ := exists_slot hl
    -- some slot has depth: it is the last one, or the condition puts depth there
    have hlast : 0 < (book.asks.levels.get lastSlot).quantity := by
      rcases eq_lastSlot_or_lt k with rfl | hlt
      · exact hq
      · obtain ⟨-, q, -, hfilled⟩ := hcond k hlt _ ((h.level k _).mpr ⟨hq, rfl⟩)
        exact ((h.level lastSlot q).mp hfilled).1
    refine ⟨book.asks.levels.get lastSlot, ?_, Vector.getElem_mem _, hlast, ?_⟩
    · rw [h.bboAsk_eq, if_pos hlast]
    · intro l' hl' hq'
      obtain ⟨j, rfl⟩ := exists_slot hl'
      rcases eq_lastSlot_or_lt j with rfl | hlt
      · exact Int64.le_refl _
      · obtain ⟨hpos, q, hneg, hfilled⟩ := hcond j hlt _ ((h.level j _).mpr ⟨hq', rfl⟩)
        rw [((h.level lastSlot q).mp hfilled).2]
        exact Int64.le_trans (Int64.le_of_lt hneg) hpos

/-- Prices far from the bounds of `i64` do not wrap: then no depth may be left below the last
slot. -/
theorem AskRun.hasBestAsk_iff_of_bounded (h : AskRun base priceOf qtyOf items book)
    (hbound : ∀ item p, priceOf item = some p → -2 ^ 62 < p.toInt ∧ p.toInt < 2 ^ 62) :
    HasBestAsk book ↔ ¬ DepthBelowLast base priceOf qtyOf items := by
  rw [h.hasBestAsk_iff]
  unfold DepthBelowLast
  constructor
  · rintro hcond ⟨i, hi, p, hfilled⟩
    obtain ⟨hpos, q, hneg, hlast⟩ := hcond i hi p hfilled
    obtain ⟨_, -, hp, hslotp⟩ := hfilled.exists_item
    obtain ⟨_, -, hq, hslotq⟩ := hlast.exists_item
    have hbp := hbound _ _ hp
    have hbq := hbound _ _ hq
    rcases lt_or_wrapped hslotp hslotq hi with hlt | ⟨-, -, hfar⟩
    · exact Int64.lt_irrefl (Int64.lt_of_lt_of_le (Int64.lt_trans hlt hneg) hpos)
    · omega
  · intro hnone i hi p hfilled
    exact absurd ⟨i, hi, p, hfilled⟩ hnone

end

end ChainMarketPrice.AmmVirtualizer
