import ChainMarketPrice.AmmVirtualizer.IntegerSqrt
import ChainMarketPrice.AmmVirtualizer.UniswapV2

/-!
# Virtual depth of constant-product pools

`UniswapV2Pool::populate_virtual_order_book` of `crates/amm-virtualizer/src/lib.rs`: each band
around the spot price becomes an ask and a bid, with the base that the pool gives up or takes in
until the price is there. The reserve at a price goes with the square root of the ratio of spot
and price, computed to nine decimals.

Below the model, the quantities in exact integers: a wider band has no less depth, and no ask
offers more than the pool holds.
-/

namespace ChainMarketPrice.AmmVirtualizer

open CoreEngine FixedWidth

/-- `as u128`, which extends the sign. -/
def ofI64 (x : Int64) : U128 := x.toBitVec.signExtend 128

namespace UniswapV2Pool

/-- `target_base`: the base reserve when the price has moved from the spot to the target. -/
def targetBase (pool : UniswapV2Pool) (spot target : Int64) : Except Panic U128 := do
  let ratioSq ← divided (ofI64 spot * unit18) (ofI64 target)
  let ratio ← integerSqrt ratioSq
  return pool.reserveBase * ratio / 1000000000

/-- An amount of base, scaled to `10 ^ 8`. -/
def scaledQty (pool : UniswapV2Pool) (deltaBase : U128) : Except Panic UInt64 := do
  return toU64 (← divided (deltaBase * 100000000) (pow10 pool.baseDecimals))

def askPrice (spot : Int64) (bps : UInt16) : Int64 := spot + CurvePool.bandWidth spot bps

def bidPrice (spot : Int64) (bps : UInt16) : Int64 :=
  satSub64 spot (CurvePool.bandWidth spot bps)

/-- The quantity of the ask of a band; `none` if the level is skipped. -/
def askQty (pool : UniswapV2Pool) (spot : Int64) (bps : UInt16) :
    Except Panic (Option UInt64) := do
  if ofI64 (askPrice spot bps) > 0 then
    let targetBase ← pool.targetBase spot (askPrice spot bps)
    if pool.reserveBase > targetBase then
      return some (← pool.scaledQty (pool.reserveBase - targetBase))
    else return none
  else return none

/-- The quantity of the bid of a band; `none` if the level is skipped. -/
def bidQty (pool : UniswapV2Pool) (spot : Int64) (bps : UInt16) :
    Except Panic (Option UInt64) := do
  if bidPrice spot bps > 0 then
    let targetBase ← pool.targetBase spot (bidPrice spot bps)
    if targetBase > pool.reserveBase then
      return some (← pool.scaledQty (targetBase - pool.reserveBase))
    else return none
  else return none

/-- Writes the levels of a band that are not skipped. -/
def writeBand (spot : Int64) (tsNs : UInt64) (bps : UInt16) (ask bid : Option UInt64)
    (book : ContiguousOrderBook) : ContiguousOrderBook :=
  let book :=
    match ask with
    | some qty => book.updateAsk ⟨askPrice spot bps, qty, 1, tsNs⟩
    | none => book
  match bid with
  | some qty => book.updateBid ⟨bidPrice spot bps, qty, 1, tsNs⟩
  | none => book

/-- One turn of the loop over the bands. -/
def bandStep (pool : UniswapV2Pool) (spot : Int64) (tsNs : UInt64)
    (book : ContiguousOrderBook) (bps : UInt16) : Except Panic ContiguousOrderBook := do
  let ask ← pool.askQty spot bps
  let bid ← pool.bidQty spot bps
  return writeBand spot tsNs bps ask bid book

def populateVirtualOrderBook (pool : UniswapV2Pool) (book : ContiguousOrderBook)
    (bandsBps : List UInt16) (tsNs : UInt64) : Except Panic ContiguousOrderBook := do
  let spot ← pool.spotPriceScaled
  if spot ≤ 0 then return book
  else bandsBps.foldlM (pool.bandStep spot tsNs) book

/-! ## The same in exact integers -/

/-- The square root of the ratio of two prices, to nine decimals. -/
def exactRatio (spot target : ℕ) : ℕ := (spot * 10 ^ 18 / target).sqrt

lemma exactRatio_anti {spot lower upper : ℕ} (hpos : 0 < lower) (h : lower ≤ upper) :
    exactRatio spot upper ≤ exactRatio spot lower :=
  Nat.sqrt_le_sqrt (Nat.div_le_div_left h hpos)

def exactTargetBase (pool : UniswapV2Pool) (spot target : ℕ) : ℕ :=
  pool.reserveBase.toNat * exactRatio spot target / 10 ^ 9

lemma exactTargetBase_anti (pool : UniswapV2Pool) (spot : ℕ) {lower upper : ℕ} (hpos : 0 < lower)
    (h : lower ≤ upper) : pool.exactTargetBase spot upper ≤ pool.exactTargetBase spot lower :=
  Nat.div_le_div_right (Nat.mul_le_mul_left _ (exactRatio_anti hpos h))

/-- An amount of base at scale `10 ^ 8`. -/
def scaled (pool : UniswapV2Pool) (amount : ℕ) : ℕ :=
  amount * 10 ^ 8 / 10 ^ pool.baseDecimals.toNat

lemma scaled_mono (pool : UniswapV2Pool) {a b : ℕ} (h : a ≤ b) : pool.scaled a ≤ pool.scaled b :=
  Nat.div_le_div_right (Nat.mul_le_mul_right _ h)

/-- No operation on an amount of base overflows while it is scaled, and the result is a `u64`.
An amount of zero is skipped. -/
def ScaleFits (pool : UniswapV2Pool) (amount : ℕ) : Prop :=
  0 < amount →
    amount * 10 ^ 8 < 2 ^ 128 ∧ 10 ^ pool.baseDecimals.toNat < 2 ^ 128 ∧ pool.scaled amount < 2 ^ 64

instance (pool : UniswapV2Pool) (amount : ℕ) : Decidable (pool.ScaleFits amount) :=
  inferInstanceAs (Decidable (0 < amount →
    amount * 10 ^ 8 < 2 ^ 128 ∧ 10 ^ pool.baseDecimals.toNat < 2 ^ 128 ∧
      pool.scaled amount < 2 ^ 64))

/-- The distance of a band from the spot. -/
def exactWidth (spot : ℕ) (bps : UInt16) : ℕ := spot * bps.toNat / 10000

lemma exactWidth_mono (spot : ℕ) {b₁ b₂ : UInt16} (h : b₁ ≤ b₂) :
    exactWidth spot b₁ ≤ exactWidth spot b₂ :=
  Nat.div_le_div_right (Nat.mul_le_mul_left _ (UInt16.le_iff_toNat_le.mp h))

/-- No operation overflows while the levels of a band are computed, and their quantities are
`u64`. The bid is computed only where its price is positive. -/
structure BandFits (pool : UniswapV2Pool) (spot : ℕ) (bps : UInt16) : Prop where
  width : spot * bps.toNat < 2 ^ 63
  askPrice : spot + exactWidth spot bps < 2 ^ 63
  askReserve : pool.reserveBase.toNat * exactRatio spot (spot + exactWidth spot bps) < 2 ^ 128
  askQuantity : pool.ScaleFits
    (pool.reserveBase.toNat - pool.exactTargetBase spot (spot + exactWidth spot bps))
  bidReserve : exactWidth spot bps < spot →
    pool.reserveBase.toNat * exactRatio spot (spot - exactWidth spot bps) < 2 ^ 128
  bidQuantity : exactWidth spot bps < spot →
    pool.ScaleFits
      (pool.exactTargetBase spot (spot - exactWidth spot bps) - pool.reserveBase.toNat)

/-- A level that is skipped has no depth. -/
def depth (qty : Option UInt64) : ℕ := (qty.map UInt64.toNat).getD 0

variable {pool : UniswapV2Pool} {spot : Int64} {s : ℕ}

lemma toNat_ofI64 {x : Int64} {n : ℕ} (hx : x.toInt = n) : (ofI64 x).toNat = n := by
  have hext : (ofI64 x).toInt = x.toInt := BitVec.toInt_signExtend_of_le (by decide)
  rw [BitVec.toInt_eq_toNat_cond, hx] at hext
  have hlt := (ofI64 x).isLt
  split at hext <;> omega

/-- The width of a band in words. -/
lemma toInt_bandWidth (hs : spot.toInt = s) {bps : UInt16} (h : s * bps.toNat < 2 ^ 63) :
    (CurvePool.bandWidth spot bps).toInt = exactWidth s bps := by
  have hprod : (spot * ofU16 bps).toInt = (s * bps.toNat : ℕ) := by
    rw [Int64.toInt_mul, hs, toInt_ofU16, ← Int.natCast_mul]
    apply Int.bmod_eq_of_le <;> omega
  have hdivisor : (10000 : Int64).toInt = (10000 : ℕ) := rfl
  rw [CurvePool.bandWidth, Int64.toInt_div_of_ne_right _ _ (by decide), hprod, hdivisor,
    Int.tdiv_eq_ediv_of_nonneg (Int.natCast_nonneg _), ← Int.natCast_ediv]
  rfl

/-- The steps of `targetBase` when none of them panics. -/
lemma reserveAtRatio {a b root : U128} (hb : b ≠ 0) (hroot : integerSqrt (a / b) = .ok root)
    (reserve : U128) :
    (do
      let ratioSq ← divided a b
      let ratio ← integerSqrt ratioSq
      return reserve * ratio / 1000000000 : Except Panic U128)
      = .ok (reserve * root / 1000000000) := by
  have hdiv : divided a b = .ok (a / b) := if_neg hb
  rw [hdiv]
  show (integerSqrt (a / b) >>= fun ratio => _) = _
  rw [hroot]
  rfl

lemma targetBase_eq (hs : spot.toInt = s) {target : Int64} {t : ℕ} (ht : target.toInt = t)
    (hpos : 0 < t) (hfits : pool.reserveBase.toNat * exactRatio s t < 2 ^ 128) :
    ∃ base, pool.targetBase spot target = .ok base ∧ base.toNat = pool.exactTargetBase s t := by
  have hspot := spot.toInt_lt
  have htarget := toNat_ofI64 ht
  have hunit : unit18.toNat = 10 ^ 18 := rfl
  have hne : ofI64 target ≠ 0 := by
    intro hzero
    rw [hzero] at htarget
    exact absurd htarget.symm hpos.ne'
  -- a price below `2 ^ 63` leaves room for eighteen decimals
  have hsquare : (ofI64 spot * unit18 / ofI64 target).toNat = s * 10 ^ 18 / t := by
    have hs' := toNat_ofI64 hs
    rw [BitVec.toNat_udiv, toNat_mul_of_lt (by rw [hs', hunit]; omega), hs', hunit, htarget]
  obtain ⟨root, hsqrt, hroot⟩ := integerSqrt_eq (ofI64 spot * unit18 / ofI64 target)
  rw [hsquare] at hroot
  have hbillion : BitVec.toNat (1000000000 : U128) = 10 ^ 9 := rfl
  refine ⟨pool.reserveBase * root / 1000000000, ?_, ?_⟩
  · exact reserveAtRatio hne hsqrt pool.reserveBase
  · rw [BitVec.toNat_udiv, toNat_mul_of_lt (by rw [hroot]; exact hfits), hroot, hbillion]
    rfl

lemma scaledQty_eq {delta : U128} {n : ℕ} (hdelta : delta.toNat = n) (hpos : 0 < n)
    (hfits : pool.ScaleFits n) :
    ∃ qty, pool.scaledQty delta = .ok qty ∧ qty.toNat = pool.scaled n := by
  obtain ⟨hprod, hpow, hqty⟩ := hfits hpos
  have hscale : BitVec.toNat (100000000 : U128) = 10 ^ 8 := rfl
  have hunit := toNat_pow10 hpow
  have hne : pow10 pool.baseDecimals ≠ 0 := by
    intro hzero
    rw [hzero] at hunit
    exact absurd hunit.symm (Nat.pow_pos (by decide)).ne'
  have hquot : (delta * 100000000 / pow10 pool.baseDecimals).toNat = pool.scaled n := by
    rw [BitVec.toNat_udiv, toNat_mul_of_lt (by rw [hdelta, hscale]; exact hprod), hdelta, hscale,
      hunit]
    rfl
  refine ⟨toU64 (delta * 100000000 / pow10 pool.baseDecimals), ?_, ?_⟩
  · rw [scaledQty, divided, if_neg hne]
    rfl
  · show ((delta * 100000000 / pow10 pool.baseDecimals).setWidth 64).toNat = _
    rw [BitVec.toNat_setWidth, hquot]
    exact Nat.mod_eq_of_lt hqty

lemma toInt_askPrice_band (hs : spot.toInt = s) {bps : UInt16} (h : pool.BandFits s bps) :
    (askPrice spot bps).toInt = (s + exactWidth s bps : ℕ) := by
  have hprice := h.askPrice
  rw [askPrice, Int64.toInt_add, hs, toInt_bandWidth hs h.width, ← Int.natCast_add]
  apply Int.bmod_eq_of_le <;> omega

lemma toInt_bidPrice_band (hs : spot.toInt = s) {bps : UInt16} (h : pool.BandFits s bps) :
    (bidPrice spot bps).toInt = s - exactWidth s bps := by
  have hwidth := toInt_bandWidth hs h.width
  have hspot := spot.toInt_lt
  have hle := (CurvePool.bandWidth spot bps).toInt_lt
  rw [bidPrice, toInt_satSub64 (by omega), hs, hwidth]

/-- The quantity for what one amount has more than another; nothing is left of a negative
difference. -/
lemma scaledDifference_eq {a b : U128} {n m : ℕ} (ha : a.toNat = n) (hb : b.toNat = m)
    (hfits : pool.ScaleFits (n - m)) :
    ∃ qty, (if a > b then do return some (← pool.scaledQty (a - b)) else return none) = .ok qty ∧
      depth qty = pool.scaled (n - m) := by
  by_cases hgt : a > b
  · have hlt : b.toNat < a.toNat := hgt
    have hdelta : (a - b).toNat = n - m := by
      rw [BitVec.toNat_sub_of_le (Nat.le_of_lt hlt), ha, hb]
    obtain ⟨qty, hqty, hscaled⟩ := scaledQty_eq hdelta (by omega) hfits
    refine ⟨some qty, ?_, hscaled⟩
    rw [if_pos hgt, hqty]
    rfl
  · have hle : a.toNat ≤ b.toNat := Nat.not_lt.mp hgt
    refine ⟨none, if_neg hgt, ?_⟩
    rw [Nat.sub_eq_zero_of_le (by omega), scaled, Nat.zero_mul, Nat.zero_div]
    rfl

/-- The ask quantity of a band. -/
lemma askQty_eq (hs : spot.toInt = s) (hpos : 0 < s) {bps : UInt16} (h : pool.BandFits s bps) :
    ∃ qty, pool.askQty spot bps = .ok qty ∧
      depth qty = pool.scaled
        (pool.reserveBase.toNat - pool.exactTargetBase s (s + exactWidth s bps)) := by
  have hprice := toInt_askPrice_band hs h
  obtain ⟨base, hbase, hvalue⟩ := targetBase_eq hs hprice (by omega) h.askReserve
  have hpositive : ofI64 (askPrice spot bps) > 0 := by
    show 0 < (ofI64 (askPrice spot bps)).toNat
    rw [toNat_ofI64 hprice]
    omega
  unfold askQty
  rw [if_pos hpositive, hbase]
  exact scaledDifference_eq rfl hvalue h.askQuantity

/-- The bid quantity of a band with a positive bid price. -/
lemma bidQty_eq (hs : spot.toInt = s) {bps : UInt16} (h : pool.BandFits s bps)
    (hpos : exactWidth s bps < s) :
    ∃ qty, pool.bidQty spot bps = .ok qty ∧
      depth qty = pool.scaled
        (pool.exactTargetBase s (s - exactWidth s bps) - pool.reserveBase.toNat) := by
  have hprice := toInt_bidPrice_band hs h
  rw [← Int.natCast_sub hpos.le] at hprice
  obtain ⟨base, hbase, hvalue⟩ := targetBase_eq hs hprice (by omega) (h.bidReserve hpos)
  have hpositive : bidPrice spot bps > 0 := by
    rw [gt_iff_lt, Int64.lt_iff_toInt_lt, Int64.toInt_zero, hprice]
    omega
  unfold bidQty
  rw [if_pos hpositive, hbase]
  exact scaledDifference_eq hvalue rfl (h.bidQuantity hpos)

/-- Without a positive price the bid is skipped. -/
lemma bidQty_none (hs : spot.toInt = s) {bps : UInt16} (h : pool.BandFits s bps)
    (hpos : ¬ exactWidth s bps < s) : pool.bidQty spot bps = .ok none := by
  have hprice := toInt_bidPrice_band hs h
  refine if_neg ?_
  rw [gt_iff_lt, Int64.lt_iff_toInt_lt, Int64.toInt_zero, hprice]
  omega

/-- The exact depth of the ask of a band. -/
def exactAskDepth (pool : UniswapV2Pool) (spot : ℕ) (bps : UInt16) : ℕ :=
  pool.scaled (pool.reserveBase.toNat - pool.exactTargetBase spot (spot + exactWidth spot bps))

/-- The exact depth of the bid of a band; none without a positive price. -/
def exactBidDepth (pool : UniswapV2Pool) (spot : ℕ) (bps : UInt16) : ℕ :=
  if exactWidth spot bps < spot then
    pool.scaled (pool.exactTargetBase spot (spot - exactWidth spot bps) - pool.reserveBase.toNat)
  else 0

/-- The quantities that the code computes for a band, with their exact depths. -/
structure Quantities (pool : UniswapV2Pool) (spot : Int64) (bps : UInt16)
    (ask bid : Option UInt64) : Prop where
  askQty : pool.askQty spot bps = .ok ask
  bidQty : pool.bidQty spot bps = .ok bid
  askDepth : depth ask = pool.exactAskDepth spot.toInt.toNat bps
  bidDepth : depth bid = pool.exactBidDepth spot.toInt.toNat bps

lemma exists_quantities (hs : spot.toInt = spot.toInt.toNat) (hpos : 0 < spot.toInt.toNat)
    {bps : UInt16} (h : pool.BandFits spot.toInt.toNat bps) :
    ∃ ask bid, pool.Quantities spot bps ask bid := by
  obtain ⟨ask, hask, haskDepth⟩ := askQty_eq hs hpos h
  by_cases hprice : exactWidth spot.toInt.toNat bps < spot.toInt.toNat
  · obtain ⟨bid, hbid, hbidDepth⟩ := bidQty_eq hs h hprice
    refine ⟨ask, bid, hask, hbid, haskDepth, ?_⟩
    rw [exactBidDepth, if_pos hprice, hbidDepth]
  · refine ⟨ask, none, hask, bidQty_none hs h hprice, haskDepth, ?_⟩
    rw [exactBidDepth, if_neg hprice]
    rfl

/-- One turn of the loop writes the quantities of its band. -/
lemma Quantities.bandStep {bps : UInt16} {ask bid : Option UInt64}
    (h : pool.Quantities spot bps ask bid) (tsNs : UInt64) (book : ContiguousOrderBook) :
    pool.bandStep spot tsNs book bps = .ok (writeBand spot tsNs bps ask bid book) := by
  unfold UniswapV2Pool.bandStep
  rw [h.askQty, h.bidQty]
  rfl

lemma exactAskDepth_mono (pool : UniswapV2Pool) (hpos : 0 < s) {b₁ b₂ : UInt16} (hb : b₁ ≤ b₂) :
    pool.exactAskDepth s b₁ ≤ pool.exactAskDepth s b₂ := by
  -- a higher price leaves less base in the pool
  have hbase := pool.exactTargetBase_anti s (Nat.add_pos_left hpos (exactWidth s b₁))
    (Nat.add_le_add_left (exactWidth_mono s hb) s)
  exact pool.scaled_mono (Nat.sub_le_sub_left hbase _)

lemma exactBidDepth_mono (pool : UniswapV2Pool) {b₁ b₂ : UInt16} (hb : b₁ ≤ b₂)
    (hpos : exactWidth s b₂ < s) : pool.exactBidDepth s b₁ ≤ pool.exactBidDepth s b₂ := by
  have hwidth := exactWidth_mono s hb
  have hbase := pool.exactTargetBase_anti s (Nat.sub_pos_of_lt hpos)
    (Nat.sub_le_sub_left hwidth s)
  unfold exactBidDepth
  rw [if_pos hpos, if_pos (lt_of_le_of_lt hwidth hpos)]
  exact pool.scaled_mono (Nat.sub_le_sub_right hbase _)

/-- The quantities that the code computes for two bands, and writes: the wider band has no less
depth in its ask, nor in its bid where both bid prices are positive, and no ask offers more than
the base reserve at scale `10 ^ 8`. -/
theorem depth_mono {pool : UniswapV2Pool} {spot : Int64} {b₁ b₂ : UInt16}
    (hspot : pool.spotPriceScaled = .ok spot) (hpos : 0 < spot) (hb : b₁ ≤ b₂)
    (h₁ : pool.BandFits spot.toInt.toNat b₁) (h₂ : pool.BandFits spot.toInt.toNat b₂) :
    ∃ ask₁ ask₂ bid₁ bid₂,
      pool.Quantities spot b₁ ask₁ bid₁ ∧ pool.Quantities spot b₂ ask₂ bid₂ ∧
      (∀ (book : ContiguousOrderBook) (tsNs : UInt64),
        pool.populateVirtualOrderBook book [b₁, b₂] tsNs
          = .ok (writeBand spot tsNs b₂ ask₂ bid₂ (writeBand spot tsNs b₁ ask₁ bid₁ book))) ∧
      depth ask₁ ≤ depth ask₂ ∧
      depth ask₂ ≤ pool.scaled pool.reserveBase.toNat ∧
      (0 < bidPrice spot b₁ → 0 < bidPrice spot b₂ → depth bid₁ ≤ depth bid₂) := by
  have hspot' : 0 < spot.toInt := by
    rw [← Int64.toInt_zero]
    exact Int64.lt_iff_toInt_lt.mp hpos
  have hs : spot.toInt = spot.toInt.toNat := (Int.toNat_of_nonneg hspot'.le).symm
  have hs' : 0 < spot.toInt.toNat := by omega
  obtain ⟨ask₁, bid₁, hband₁⟩ := exists_quantities hs hs' h₁
  obtain ⟨ask₂, bid₂, hband₂⟩ := exists_quantities hs hs' h₂
  refine ⟨ask₁, ask₂, bid₁, bid₂, hband₁, hband₂, ?_, ?_, ?_, ?_⟩
  · intro book tsNs
    have hnot : ¬ spot ≤ 0 := Int64.not_le.mpr hpos
    unfold populateVirtualOrderBook
    rw [hspot]
    show (if spot ≤ 0 then _ else _) = _
    rw [if_neg hnot, List.foldlM_cons, hband₁.bandStep]
    show [b₂].foldlM (pool.bandStep spot tsNs) _ = _
    rw [List.foldlM_cons, hband₂.bandStep]
    rfl
  · rw [hband₁.askDepth, hband₂.askDepth]
    exact pool.exactAskDepth_mono hs' hb
  · rw [hband₂.askDepth]
    exact pool.scaled_mono (Nat.sub_le _ _)
  · intro _ hbid
    rw [hband₁.bidDepth, hband₂.bidDepth]
    apply pool.exactBidDepth_mono hb
    rw [Int64.lt_iff_toInt_lt, Int64.toInt_zero, toInt_bidPrice_band hs h₂] at hbid
    omega

/-- A thousand units of base against two thousand of quote. -/
def twoDollarPool : UniswapV2Pool := .new 1000000000000000000000 2000000000 30

lemma twoDollarPool_bandFits_narrow : twoDollarPool.BandFits 200000000 10 := by
  constructor
  all_goals decide +kernel

lemma twoDollarPool_bandFits_wide : twoDollarPool.BandFits 200000000 50 := by
  constructor
  all_goals decide +kernel

theorem depth_mono_twoDollarPool :
    ∃ ask₁ ask₂ bid₁ bid₂,
      twoDollarPool.Quantities 200000000 10 ask₁ bid₁ ∧
      twoDollarPool.Quantities 200000000 50 ask₂ bid₂ ∧
      (∀ (book : ContiguousOrderBook) (tsNs : UInt64),
        twoDollarPool.populateVirtualOrderBook book [10, 50] tsNs
          = .ok (writeBand 200000000 tsNs 50 ask₂ bid₂
              (writeBand 200000000 tsNs 10 ask₁ bid₁ book))) ∧
      depth ask₁ ≤ depth ask₂ ∧
      depth ask₂ ≤ twoDollarPool.scaled twoDollarPool.reserveBase.toNat ∧
      (0 < bidPrice 200000000 10 → 0 < bidPrice 200000000 50 → depth bid₁ ≤ depth bid₂) :=
  depth_mono rfl (by decide) (by decide) twoDollarPool_bandFits_narrow
    twoDollarPool_bandFits_wide

end UniswapV2Pool
end ChainMarketPrice.AmmVirtualizer
