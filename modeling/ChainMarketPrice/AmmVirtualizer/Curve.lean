import Mathlib.Data.List.Basic
import ChainMarketPrice.AmmVirtualizer.U256
import ChainMarketPrice.AmmVirtualizer.ConcentratedLiquidity

/-!
# Curve Stableswap pools as an order book

`CurvePool` of `crates/amm-virtualizer/src/curve.rs`: the Newton iterations for the invariant
and for the output reserve, the swap output they give, and the bands they fill. An `Option` is
the source's own; an index out of range or a division by zero is a `Panic`.
-/

namespace ChainMarketPrice.AmmVirtualizer

open CoreEngine FixedWidth

inductive Panic
  | indexOutOfRange
  | divisionByZero
deriving Repr, DecidableEq

/-- `a[i]`. -/
def indexed {n : ℕ} (a : Vector U128 n) (i : ℕ) : Except Panic U128 :=
  match a[i]? with
  | some x => .ok x
  | none => .error .indexOutOfRange

/-- `a / b`. -/
def divided (a b : U128) : Except Panic U128 :=
  if b = 0 then .error .divisionByZero else .ok (a / b)

/-- Division of `U256`. -/
def divided256 (a b : U256) : Except Panic U256 :=
  match a.div b with
  | some q => .ok q
  | none => .error .divisionByZero

/-- `MAX_COINS`. -/
def maxCoins : ℕ := 3

/-- `10u128.pow(18)`. -/
def unit18 : U128 := 1000000000000000000

structure CurvePool where
  nCoins : ℕ
  rawReserves : Vector U128 maxCoins
  multipliers : Vector U128 maxCoins
  a : U128
  feeBps : UInt16

namespace CurvePool

/-- `10u128.pow((18 - decimals) as u32)`: the difference is a `u8`. -/
def decimalMultiplier (decimals : UInt8) : U128 := BitVec.ofNat 128 (10 ^ (18 - decimals).toNat)

def new2pool (reserves : Vector U128 2) (decimals : Vector UInt8 2) (a : U128)
    (feeBps : UInt16) : CurvePool where
  nCoins := 2
  rawReserves := #v[reserves[0], reserves[1], 0]
  multipliers := #v[decimalMultiplier decimals[0], decimalMultiplier decimals[1], 1]
  a := a
  feeBps := feeBps

def new3pool (reserves : Vector U128 3) (decimals : Vector UInt8 3) (a : U128)
    (feeBps : UInt16) : CurvePool where
  nCoins := 3
  rawReserves := reserves
  multipliers := decimals.map decimalMultiplier
  a := a
  feeBps := feeBps

/-- The balances at 18 decimals. A count above `MAX_COINS` runs off the arrays. -/
def normalizedReserves (pool : CurvePool) : Except Panic (Vector U128 maxCoins) :=
  if pool.nCoins ≤ maxCoins then
    .ok (Vector.ofFn fun i =>
      if i.val < pool.nCoins then pool.rawReserves[i] * pool.multipliers[i] else 0)
  else .error .indexOutOfRange

/-- `ann`: the amplification times `n ^ n`. -/
def ann (pool : CurvePool) : U128 := pool.a * (if pool.nCoins = 2 then 4 else 27)

/-- `n` as a `u128`. -/
def coins (pool : CurvePool) : U128 := BitVec.ofNat 128 pool.nCoins

/-- The inner loop of both solvers: `acc * d / (x * n)` for each `x`. -/
def scaleByBalances (d n : U256) : List U128 → U256 → Except Panic (Option U256)
  | [], acc => .ok (some acc)
  | x :: xs, acc => do
    let denom := (U256.fromU128 x).mul n
    if denom.isZero then return none
    let acc ← divided256 (acc.mul d) denom
    scaleByBalances d n xs acc

/-- The stopping test of both solvers: consecutive values differ by at most one. -/
def converged (next prev : U256) : Bool :=
  if prev.lt next then (next.sub prev).le .one else (prev.sub next).le .one

/-- One Newton step for the invariant. -/
def stepD (ann n s : U256) (xs : List U128) (d : U256) : Except Panic (Option U256) := do
  let some dP ← scaleByBalances d n xs d | return none
  let numerator := ((ann.mul s).add (dP.mul n)).mul d
  let denominator := ((ann.sub .one).mul d).add ((n.add .one).mul dP)
  if denominator.isZero then return none
  return some (← divided256 numerator denominator)

/-- One Newton step for the output reserve. -/
def stepY (b c d y : U256) : Except Panic (Option U256) := do
  let numerator := (y.mul y).add c
  let denomSum := ((U256.fromU128 2).mul y).add b
  if denomSum.le d then return none
  return some (← divided256 numerator (denomSum.sub d))

/-- The outer loop of both solvers: at most `fuel` steps, until two values are close. -/
def iterate (step : U256 → Except Panic (Option U256)) : ℕ → U256 → Except Panic (Option U128)
  | 0, v => .ok (some v.asU128)
  | fuel + 1, v => do
    let some next ← step v | return none
    if converged next v then return some next.asU128
    iterate step fuel next

def getD (pool : CurvePool) (xp : List U128) : Except Panic (Option U128) := do
  if xp.length < pool.nCoins then .error .indexOutOfRange
  else
    let xs := xp.take pool.nCoins
    let s := xs.foldl (· + ·) 0
    if s = 0 then return some 0
    let sU := U256.fromU128 s
    iterate (stepD (.fromU128 pool.ann) (.fromU128 pool.coins) sU xs) 255 sU

/-- The balances that the output depends on: all but the output token's, with the input
token's replaced by `x`. -/
def otherBalances (pool : CurvePool) (i j : ℕ) (x : U128) (xp : List U128) : List U128 :=
  (List.range pool.nCoins).filterMap fun k =>
    if k = i then some x else if k ≠ j then xp[k]? else none

def getY (pool : CurvePool) (i j : ℕ) (x : U128) (xp : List U128) :
    Except Panic (Option U128) := do
  if i = j ∨ i ≥ pool.nCoins ∨ j ≥ pool.nCoins then return none
  let some dVal ← pool.getD xp | return none
  let d := U256.fromU128 dVal
  let annU := U256.fromU128 pool.ann
  let nU := U256.fromU128 pool.coins
  let others := pool.otherBalances i j x xp
  let some c ← scaleByBalances d nU others d | return none
  let annN := annU.mul nU
  if annN.isZero then return none
  let c ← divided256 (c.mul d) annN
  let b := (U256.fromU128 (others.foldl (· + ·) 0)).add (← divided256 d annU)
  iterate (stepY b c d) 255 d

def calculateSwapOutput (pool : CurvePool) (i j : ℕ) (dx : U128) :
    Except Panic (Option U128) := do
  let xp ← pool.normalizedReserves
  let dxNorm := dx * (← indexed pool.multipliers i)
  let newX := (← indexed xp i) + dxNorm
  let some newY ← pool.getY i j newX xp.toList | return none
  let xpJ ← indexed xp j
  if xpJ > newY then
    let dyNorm := xpJ - newY
    let feeNorm := dyNorm * BitVec.ofNat 128 pool.feeBps.toNat / 10000
    return some (← divided (satSub dyNorm feeNorm) (← indexed pool.multipliers j))
  else return none

def spotPriceScaled (pool : CurvePool) (i j : ℕ) : Except Panic Int64 := do
  let unitDx ← divided unit18 (← indexed pool.multipliers i)
  let some dy ← pool.calculateSwapOutput i j unitDx | return 100000000
  let dyNorm := dy * (← indexed pool.multipliers j)
  return toI64 (dyNorm * 100000000 / unit18)

/-- `spot * bps / 10_000`, in wrapping arithmetic. -/
def bandWidth (spot : Int64) (bps : UInt16) : Int64 := spot * ofU16 bps / 10000

/-- What the swap of one band yields, scaled to `10 ^ 8`. -/
def bandQty (pool : CurvePool) (i j : ℕ) (bps : UInt16) : Except Panic (Option UInt64) := do
  let baseRaw ← indexed pool.rawReserves i
  let dxChunk := baseRaw * BitVec.ofNat 128 bps.toNat / 10000
  let some dy ← pool.calculateSwapOutput i j dxChunk | return none
  let multiplier ← indexed pool.multipliers j
  return some (toU64 (dy * multiplier * 100000000 / unit18))

/-- One turn of the loop over the bands. -/
def bandStep (pool : CurvePool) (i j : ℕ) (spot : Int64) (tsNs : UInt64)
    (book : ContiguousOrderBook) (bps : UInt16) : Except Panic ContiguousOrderBook := do
  let targetAsk := spot + bandWidth spot bps
  let targetBid := satSub64 spot (bandWidth spot bps)
  let some qtyScaled ← pool.bandQty i j bps | return book
  let book := writeAsk book targetAsk qtyScaled tsNs
  return if targetBid > 0 then book.updateBid ⟨targetBid, qtyScaled, 1, tsNs⟩ else book

def populateVirtualOrderBook (pool : CurvePool) (book : ContiguousOrderBook) (i j : ℕ)
    (bandsBps : List UInt16) (tsNs : UInt64) : Except Panic ContiguousOrderBook := do
  let spot ← pool.spotPriceScaled i j
  if spot ≤ 0 then return book
  bandsBps.foldlM (pool.bandStep i j spot tsNs) book

end CurvePool

end ChainMarketPrice.AmmVirtualizer
