import ChainMarketPrice.OnchainIngest.SpeculativeSwap

/-!
# The impact of a larger buy

A larger buy takes more base and leaves more quote, so that its exact impact is no smaller. The
event carries the impact as a `u16`, and a price that moves to more than 7.5 times its value does
not fit.
-/

namespace ChainMarketPrice.OnchainIngest

open AmmVirtualizer FixedWidth

namespace SpeculativeStateSimulator

/-! ## The exact impact -/

/-- The exact price after a buy. Without a fee denominator the code leaves the pool as it is. -/
def exactAfterBuy (pool : UniswapV2Pool) (amount : ℕ) : ℕ :=
  if pool.feeDenominator.toNat = 0 then pool.exactPrice
  else
    pool.priceAt
      (pool.reserveBase.toNat - ConstantProduct.output pool.feeNumerator.toNat
        pool.feeDenominator.toNat pool.reserveQuote.toNat pool.reserveBase.toNat amount)
      (pool.reserveQuote.toNat + amount)

/-- The exact impact of a buy in basis points. -/
def exactImpact (pool : UniswapV2Pool) (amount : ℕ) : ℕ :=
  (exactAfterBuy pool amount - pool.exactPrice) * 10000 / pool.exactPrice

/-- Positive reserves and a fee of at most the whole. -/
structure Positive (pool : UniswapV2Pool) : Prop where
  base : 0 < pool.reserveBase.toNat
  quote : 0 < pool.reserveQuote.toNat
  fee : pool.feeNumerator.toNat ≤ pool.feeDenominator.toNat

variable {pool : UniswapV2Pool}

lemma exactAfterBuy_mono (hpositive : Positive pool) {a₁ a₂ : ℕ} (h : a₁ ≤ a₂) :
    exactAfterBuy pool a₁ ≤ exactAfterBuy pool a₂ := by
  unfold exactAfterBuy
  by_cases hden : pool.feeDenominator.toNat = 0
  · rw [if_pos hden, if_pos hden]
  · rw [if_neg hden, if_neg hden]
    have hden' := Nat.pos_of_ne_zero hden
    have hlt := ConstantProduct.output_lt pool.feeNumerator.toNat a₂ hden' hpositive.quote
      hpositive.base
    have hmore := ConstantProduct.output_mono pool.feeNumerator.toNat pool.reserveBase.toNat
      hden' hpositive.quote h
    apply pool.priceAt_mono
    · omega
    · omega
    · omega

/-- The exact law: a larger buy has no smaller impact. -/
theorem exactImpact_mono (hpositive : Positive pool) {a₁ a₂ : ℕ} (h : a₁ ≤ a₂) :
    exactImpact pool a₁ ≤ exactImpact pool a₂ :=
  Nat.div_le_div_right
    (Nat.mul_le_mul_right _ (Nat.sub_le_sub_right (exactAfterBuy_mono hpositive h) _))

/-! ## The impact that the code computes -/

/-- No `u128` or `i64` operation of a simulated buy overflows. The reserve takes the input only
where there is a denominator. -/
structure BuyFits (tx : PendingMempoolTx) (pool : UniswapV2Pool) : Prop where
  products : ProductsFit pool pool.reserveQuote pool.reserveBase tx.amountIn
  weight : pool.reserveQuote.toNat * pool.feeDenominator.toNat
    + tx.amountIn.toNat * pool.feeNumerator.toNat < 2 ^ 128
  reserve : 0 < pool.feeDenominator.toNat →
    pool.reserveQuote.toNat + tx.amountIn.toNat < 2 ^ 128
  before : pool.SpotFits
  after : (simulatedPool tx pool).SpotFits
  impact : (exactAfterBuy pool tx.amountIn.toNat - pool.exactPrice) * 10000 < 2 ^ 63

/-- Without a fee there is no denominator, and nothing is exchanged. -/
lemma exchange_of_no_fee {reserveIn reserveOut amountIn : U128}
    (hnum : pool.feeNumerator.toNat = 0) (hden : pool.feeDenominator.toNat = 0) :
    exchange pool reserveIn reserveOut amountIn = (reserveIn, reserveOut) := by
  have hnum' : pool.feeNumerator = 0 := BitVec.eq_of_toNat_eq hnum
  have hden' : pool.feeDenominator = 0 := BitVec.eq_of_toNat_eq hden
  have hnone : amountOut pool reserveIn reserveOut amountIn = none := by
    have hzero : reserveIn * pool.feeDenominator + amountIn * pool.feeNumerator = 0 := by
      rw [hnum', hden', BitVec.ofNat_eq_ofNat, BitVec.mul_zero, BitVec.mul_zero]
      rfl
    refine if_neg ?_
    rw [hzero]
    decide
  unfold exchange
  rw [hnone]

/-- The reserves and the price after a buy. -/
lemma simulatedPool_buy {tx : PendingMempoolTx} (hbuy : tx.isBuy = true)
    (hpositive : Positive pool) (h : BuyFits tx pool) :
    0 < (simulatedPool tx pool).reserveBase.toNat ∧
      0 < (simulatedPool tx pool).reserveQuote.toNat ∧
      (simulatedPool tx pool).exactPrice = exactAfterBuy pool tx.amountIn.toNat := by
  unfold simulatedPool exactAfterBuy
  rw [if_pos hbuy]
  by_cases hden : pool.feeDenominator.toNat = 0
  -- a fee of 0/0: there is no output, and the reserves stay
  · have hnum := Nat.le_zero.mp (hden ▸ hpositive.fee)
    rw [if_pos hden, exchange_of_no_fee hnum hden]
    exact ⟨hpositive.base, hpositive.quote, rfl⟩
  · have hden' := Nat.pos_of_ne_zero hden
    have hreserve := h.reserve hden'
    obtain ⟨out, hamount, hexact⟩ := amountOut_eq hden' hpositive.quote h.products
      ⟨h.weight, hreserve⟩
    -- the output leaves something of the reserve
    have hlt := ConstantProduct.output_lt pool.feeNumerator.toNat tx.amountIn.toNat hden'
      hpositive.quote hpositive.base
    rw [← hexact] at hlt
    have hafter := exchange_eq hamount hlt
    have hadd := toNat_add_of_lt hreserve
    have hsub : (pool.reserveBase - out).toNat = pool.reserveBase.toNat - out.toNat :=
      BitVec.toNat_sub_of_le (Nat.le_of_lt hlt)
    have hquote := hpositive.quote
    rw [hafter, if_neg hden, ← hexact]
    refine ⟨?_, ?_, ?_⟩
    · show 0 < (pool.reserveBase - out).toNat
      omega
    · show 0 < (pool.reserveQuote + tx.amountIn).toNat
      omega
    · show pool.priceAt (pool.reserveBase - out).toNat (pool.reserveQuote + tx.amountIn).toNat = _
      rw [hsub, hadd]

/-- The impact of a price that has not fallen. -/
lemma toNat_impactBps {before after : Int64} {b c : ℕ} (hbefore : before.toInt = b)
    (hafter : after.toInt = c) (hpos : 0 < b) (hle : b ≤ c) (hfits : (c - b) * 10000 < 2 ^ 63) :
    (impactBps before after).toNat = (c - b) * 10000 / b % 2 ^ 16 := by
  have hltBefore := before.toInt_lt
  have hltAfter := after.toInt_lt
  have hquotZ : (((c : ℤ) - b) * 10000).tdiv b = ((c - b) * 10000 / b : ℕ) := by
    rw [Int.tdiv_eq_ediv_of_nonneg (by omega)]
    push_cast [hle]
    rfl
  unfold impactBps
  by_cases hrises : after > before
  · have hsub : (after - before).toInt = c - b := by
      rw [Int64.toInt_sub, hbefore, hafter]
      apply Int.bmod_eq_of_le <;> omega
    have hscale : (10000 : Int64).toInt = 10000 := rfl
    have hprod : ((after - before) * 10000).toInt = (c - b) * 10000 := by
      rw [Int64.toInt_mul, hsub, hscale]
      apply Int.bmod_eq_of_le <;> omega
    -- the one division of 64-bit integers that overflows is by -1
    have hne : before ≠ -1 := by
      intro hneg
      rw [hneg] at hbefore
      have hminus : (-1 : Int64).toInt = -1 := rfl
      omega
    have hquot : ((after - before) * 10000 / before).toInt = ((c - b) * 10000 / b : ℕ) := by
      rw [Int64.toInt_div_of_ne_right _ _ hne, hprod, hbefore, hquotZ]
    have hword := toNat_toUInt16 ((after - before) * 10000 / before)
    rw [if_pos hrises]
    rw [hquot] at hword
    exact_mod_cast hword
  · have heq : b = c := by
      rw [gt_iff_lt, Int64.lt_iff_toInt_lt] at hrises
      omega
    have hfalls : ¬ before > after := by
      rw [gt_iff_lt, Int64.lt_iff_toInt_lt]
      omega
    rw [if_neg hrises, if_neg hfalls, heq, Nat.sub_self, Nat.zero_mul, Nat.zero_div]
    rfl

/-- The simulation of a buy: it has an event exactly when the exact price is positive, and the
event carries the exact impact modulo `2 ^ 16`. -/
lemma simulatePendingSwap_buy (tx : PendingMempoolTx) (hbuy : tx.isBuy = true)
    (hpositive : Positive pool) (h : BuyFits tx pool) :
    ∃ shift, simulatePendingSwap tx pool = .ok shift ∧
      (shift.isSome ↔ 0 < pool.exactPrice) ∧
      ∀ event ∈ shift, event.priceImpactBps.toNat
        = exactImpact pool tx.amountIn.toNat % 2 ^ 16 := by
  obtain ⟨hbase, hquote, hprice⟩ := simulatedPool_buy hbuy hpositive h
  obtain ⟨spot, hspot, hexact⟩ :=
    UniswapV2Pool.spotPriceScaled_eq hpositive.base hpositive.quote h.before
  obtain ⟨after, hafter, hexactAfter⟩ := UniswapV2Pool.spotPriceScaled_eq hbase hquote h.after
  obtain ⟨shift, hshift, hsome, hevent⟩ := simulatePendingSwap_eq hspot hafter
  have hpos : 0 < spot ↔ 0 < pool.exactPrice := by
    rw [Int64.lt_iff_toInt_lt, Int64.toInt_zero, hexact]
    omega
  refine ⟨shift, hshift, hsome.trans hpos, fun event hmem => ?_⟩
  have hpositivePrice : 0 < pool.exactPrice :=
    (hsome.trans hpos).mp (Option.isSome_iff_exists.mpr ⟨event, hmem⟩)
  -- a buy does not lower the price
  have hle : pool.exactPrice ≤ exactAfterBuy pool tx.amountIn.toNat := by
    have hzero : exactAfterBuy pool 0 = pool.exactPrice := by
      have hnothing : ConstantProduct.output pool.feeNumerator.toNat pool.feeDenominator.toNat
          pool.reserveQuote.toNat pool.reserveBase.toNat 0 = 0 := by
        rw [ConstantProduct.output, Nat.zero_mul, Nat.zero_mul, Nat.zero_div]
      unfold exactAfterBuy
      rw [hnothing]
      split <;> rfl
    rw [← hzero]
    exact exactAfterBuy_mono hpositive (Nat.zero_le _)
  rw [hprice] at hexactAfter
  rw [(hevent event hmem).2]
  exact toNat_impactBps hexact hexactAfter hpositivePrice hle h.impact

/-- Both simulations return, and where both have an event the impact of the first is no larger. -/
def ImpactOrdered (tx₁ tx₂ : PendingMempoolTx) (pool : UniswapV2Pool) : Prop :=
  ∃ shift₁ shift₂, simulatePendingSwap tx₁ pool = .ok shift₁ ∧
    simulatePendingSwap tx₂ pool = .ok shift₂ ∧
    ∀ event₁ ∈ shift₁, ∀ event₂ ∈ shift₂, event₁.priceImpactBps ≤ event₂.priceImpactBps

/-- When a larger buy reports no smaller impact: exactly when the two exact impacts, which are in
order, are still in order modulo `2 ^ 16`. -/
theorem impactOrdered_iff (tx : PendingMempoolTx) (hbuy : tx.isBuy = true)
    (hpositive : Positive pool) {amount₁ amount₂ : U128} (hle : amount₁ ≤ amount₂)
    (h₁ : BuyFits { tx with amountIn := amount₁ } pool)
    (h₂ : BuyFits { tx with amountIn := amount₂ } pool) :
    exactImpact pool amount₁.toNat ≤ exactImpact pool amount₂.toNat ∧
    (ImpactOrdered { tx with amountIn := amount₁ } { tx with amountIn := amount₂ } pool ↔
      (0 < pool.exactPrice → exactImpact pool amount₁.toNat % 2 ^ 16
        ≤ exactImpact pool amount₂.toNat % 2 ^ 16)) := by
  refine ⟨exactImpact_mono hpositive (BitVec.le_def.mp hle), ?_⟩
  obtain ⟨shift₁, hrun₁, hsome₁, himpact₁⟩ :=
    simulatePendingSwap_buy { tx with amountIn := amount₁ } hbuy hpositive h₁
  obtain ⟨shift₂, hrun₂, hsome₂, himpact₂⟩ :=
    simulatePendingSwap_buy { tx with amountIn := amount₂ } hbuy hpositive h₂
  constructor
  · intro hordered hprice
    obtain ⟨_, _, hok₁, hok₂, hevents⟩ := hordered
    obtain rfl := Except.ok.inj (hrun₁.symm.trans hok₁)
    obtain rfl := Except.ok.inj (hrun₂.symm.trans hok₂)
    obtain ⟨event₁, hmem₁⟩ := Option.isSome_iff_exists.mp (hsome₁.mpr hprice)
    obtain ⟨event₂, hmem₂⟩ := Option.isSome_iff_exists.mp (hsome₂.mpr hprice)
    rw [← himpact₁ event₁ hmem₁, ← himpact₂ event₂ hmem₂]
    exact UInt16.le_iff_toNat_le.mp (hevents event₁ hmem₁ event₂ hmem₂)
  · intro hmod
    refine ⟨shift₁, shift₂, hrun₁, hrun₂, fun event₁ hmem₁ event₂ hmem₂ => ?_⟩
    have hprice := hsome₁.mp (Option.isSome_iff_exists.mpr ⟨event₁, hmem₁⟩)
    rw [UInt16.le_iff_toNat_le, himpact₁ event₁ hmem₁, himpact₂ event₂ hmem₂]
    exact hmod hprice

lemma positive_thousandPool : Positive thousandPool := ⟨by decide, by decide, by decide⟩

/-- It multiplies the price by 7.548. -/
def smallerBuy : U128 := 3500000000000

/-- It multiplies the price by 7.575. -/
def largerBuy : U128 := 3510000000000

lemma buyFits_smaller : BuyFits (pendingSwap true smallerBuy) thousandPool where
  products := ⟨by decide, by decide, by decide⟩
  weight := by decide
  reserve _ := by decide
  before := ⟨by decide, by decide, by decide⟩
  after := ⟨by decide +kernel, by decide +kernel, by decide +kernel⟩
  impact := by decide +kernel

lemma buyFits_larger : BuyFits (pendingSwap true largerBuy) thousandPool where
  products := ⟨by decide, by decide, by decide⟩
  weight := by decide
  reserve _ := by decide
  before := ⟨by decide, by decide, by decide⟩
  after := ⟨by decide +kernel, by decide +kernel, by decide +kernel⟩
  impact := by decide +kernel

theorem impactOrdered_iff_thousandPool :
    exactImpact thousandPool smallerBuy.toNat ≤ exactImpact thousandPool largerBuy.toNat ∧
    (ImpactOrdered (pendingSwap true smallerBuy) (pendingSwap true largerBuy)
        thousandPool ↔
      (0 < thousandPool.exactPrice → exactImpact thousandPool smallerBuy.toNat % 2 ^ 16
        ≤ exactImpact thousandPool largerBuy.toNat % 2 ^ 16)) :=
  impactOrdered_iff (pendingSwap true 0) rfl positive_thousandPool (by decide) buyFits_smaller
    buyFits_larger

/-- The impacts of the events. -/
def reported (tx : PendingMempoolTx) (pool : UniswapV2Pool) : Except Panic (Option UInt16) :=
  (simulatePendingSwap tx pool).map (Option.map (·.priceImpactBps))

lemma reported_of_map {tx : PendingMempoolTx} {impact : UInt16}
    {shift : Option SpeculativeShiftEvent} (h : reported tx pool = .ok (some impact))
    (hrun : simulatePendingSwap tx pool = .ok shift) :
    ∃ event ∈ shift, event.priceImpactBps = impact := by
  unfold reported at h
  rw [hrun] at h
  exact Option.map_eq_some_iff.mp (Except.ok.inj h)

lemma reported_smaller :
    reported (pendingSwap true smallerBuy) thousandPool = .ok (some 65480) := by
  decide +kernel

lemma reported_larger :
    reported (pendingSwap true largerBuy) thousandPool = .ok (some 219) := by
  decide +kernel

/-- Impacts of 65480 and 65755 basis points are reported as 65480 and 219. -/
theorem larger_impact_truncated :
    ¬ ∀ (pool : UniswapV2Pool) (tx : PendingMempoolTx) (amount₁ amount₂ : U128),
      tx.isBuy = true → Positive pool → amount₁ ≤ amount₂ →
      BuyFits { tx with amountIn := amount₁ } pool →
      BuyFits { tx with amountIn := amount₂ } pool →
      ImpactOrdered { tx with amountIn := amount₁ } { tx with amountIn := amount₂ } pool := by
  intro h
  obtain ⟨shift₁, shift₂, hrun₁, hrun₂, hordered⟩ := h thousandPool (pendingSwap true 0)
    smallerBuy largerBuy rfl positive_thousandPool (by decide) buyFits_smaller
    buyFits_larger
  obtain ⟨event₁, hevent₁, himpact₁⟩ := reported_of_map reported_smaller hrun₁
  obtain ⟨event₂, hevent₂, himpact₂⟩ := reported_of_map reported_larger hrun₂
  have hle := hordered event₁ hevent₁ event₂ hevent₂
  rw [himpact₁, himpact₂] at hle
  exact absurd hle (by decide)

end SpeculativeStateSimulator

end ChainMarketPrice.OnchainIngest
