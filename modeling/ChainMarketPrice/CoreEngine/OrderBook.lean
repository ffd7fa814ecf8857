import Mathlib.Data.List.FinRange
import ChainMarketPrice.Lib.BestScan

/-!
# `ContiguousOrderBook`: the price ladder

`crates/core-engine/src/lib.rs`. Each side of the book is a flat array of levels, indexed by
the distance of a price from the base price in ticks, and the index of its best level.
`update_bid` and `update_ask` differ in which of two prices is better and in the price the
rescan starts from, so they are one function of a `Side`. `i64` arithmetic wraps.
-/

namespace ChainMarketPrice.CoreEngine

/-- `PRICE_LEVELS_COUNT`. -/
def priceLevelsCount : ℕ := 2048

lemma priceLevelsCount_pos : 0 < priceLevelsCount := by decide

lemma last_lt_priceLevelsCount : priceLevelsCount - 1 < priceLevelsCount := by decide

/-- `TICK_SIZE`: `0.001` at scale `10 ^ 8`. -/
def tickSize : Int64 := 100000

/-- A price level: also the four arguments of one update. -/
structure PriceLevel where
  price : Int64 := 0
  quantity : UInt64 := 0
  orderCount : UInt32 := 0
  lastUpdateTs : UInt64 := 0
deriving Repr, DecidableEq, Inhabited

/-- One side of a book: its levels, and `best_bid_idx` or `best_ask_idx`. -/
structure Ladder where
  levels : Vector PriceLevel priceLevelsCount
  bestIdx : Fin priceLevelsCount
deriving DecidableEq

/-- What tells bids from asks: when a price is better than another, and the price that the
rescan starts from. -/
structure Side where
  better : Int64 → Int64 → Bool
  worst : Int64

/-- Higher bids are better. -/
def Side.bid : Side := ⟨fun p q => p > q, 0⟩

/-- Lower asks are better. -/
def Side.ask : Side := ⟨fun p q => p < q, Int64.maxValue⟩

/-- The distance of a price from the base price in ticks. -/
def tickDistance (basePrice price : Int64) : Int64 :=
  if price ≥ basePrice then (price - basePrice) / tickSize else (basePrice - price) / tickSize

/-- The index of a price in the ladder, if it lies in the window around the base price. -/
def slot (basePrice price : Int64) : Option (Fin priceLevelsCount) :=
  let diff := tickDistance basePrice price
  if diff ≥ 0 ∧ diff.toInt.toNat < priceLevelsCount then
    some ⟨min diff.toInt.toNat (priceLevelsCount - 1), by unfold priceLevelsCount; omega⟩
  else none

namespace Ladder

lemma get_set (levels : Vector PriceLevel priceLevelsCount) (i j : Fin priceLevelsCount)
    (level : PriceLevel) :
    (levels.set i level i.isLt).get j = if j = i then level else levels.get j := by
  have hset : (levels.set i level i.isLt).get j =
      if i.val = j.val then level else levels.get j := Vector.getElem_set i.isLt j.isLt
  simp only [hset, Fin.ext_iff, eq_comm]

lemma get_replicate (level : PriceLevel) (i : Fin priceLevelsCount) :
    (Vector.replicate priceLevelsCount level).get i = level :=
  Vector.getElem_replicate i.isLt

/-- The loop of the rescan: the best index and the best price. -/
def scanBest (side : Side) (levels : Vector PriceLevel priceLevelsCount) :
    Fin priceLevelsCount × Int64 :=
  (List.finRange priceLevelsCount).foldl
    (BestScan.step (fun i => (levels.get i).quantity > 0) (fun i => (levels.get i).price)
      side.better)
    (⟨0, priceLevelsCount_pos⟩, side.worst)

/-- `recalculate_best_bid` and `recalculate_best_ask`. -/
def recalculateBest (side : Side) (levels : Vector PriceLevel priceLevelsCount) :
    Fin priceLevelsCount :=
  (scanBest side levels).1

/-- `update_bid` and `update_ask`. The best level is looked at after the write. -/
def update (side : Side) (basePrice : Int64) (ladder : Ladder) (level : PriceLevel) : Ladder :=
  match slot basePrice level.price with
  | none => ladder
  | some idx =>
    let levels := ladder.levels.set idx level idx.isLt
    let best := levels.get ladder.bestIdx
    if level.quantity > 0 ∧ (best.quantity = 0 ∨ side.better level.price best.price) then
      { levels := levels, bestIdx := idx }
    else if level.quantity = 0 ∧ idx = ladder.bestIdx then
      { levels := levels, bestIdx := recalculateBest side levels }
    else { levels := levels, bestIdx := ladder.bestIdx }

/-- `bbo_bid` and `bbo_ask`. -/
def bbo (ladder : Ladder) : Option PriceLevel :=
  if (ladder.levels.get ladder.bestIdx).quantity > 0 then
    some (ladder.levels.get ladder.bestIdx)
  else none

end Ladder

structure ContiguousOrderBook where
  bids : Ladder
  asks : Ladder
  basePrice : Int64
deriving DecidableEq

/-- A call that changes the book, with its arguments. -/
inductive BookCall
  | updateBid (level : PriceLevel)
  | updateAsk (level : PriceLevel)
deriving Repr, DecidableEq

/-- The arguments of a call. -/
def BookCall.level : BookCall → PriceLevel
  | updateBid level => level
  | updateAsk level => level

/-- The arguments of the `update_bid` calls of a run, in order. -/
def bidUpdates (calls : List BookCall) : List PriceLevel :=
  calls.filterMap fun
    | .updateBid level => some level
    | .updateAsk _ => none

/-- The arguments of the `update_ask` calls of a run, in order. -/
def askUpdates (calls : List BookCall) : List PriceLevel :=
  calls.filterMap fun
    | .updateBid _ => none
    | .updateAsk level => some level

namespace ContiguousOrderBook

def new (basePrice : Int64) : ContiguousOrderBook where
  bids := { levels := Vector.replicate _ {}, bestIdx := ⟨0, priceLevelsCount_pos⟩ }
  asks := { levels := Vector.replicate _ {}, bestIdx := ⟨priceLevelsCount - 1, last_lt_priceLevelsCount⟩ }
  basePrice := basePrice

/-- The levels of a fresh book are empty. -/
lemma get_new (basePrice : Int64) (i : Fin priceLevelsCount) :
    (new basePrice).bids.levels.get i = {} ∧ (new basePrice).asks.levels.get i = {} :=
  ⟨Ladder.get_replicate {} i, Ladder.get_replicate {} i⟩

def updateBid (book : ContiguousOrderBook) (level : PriceLevel) : ContiguousOrderBook :=
  { book with bids := book.bids.update .bid book.basePrice level }

def updateAsk (book : ContiguousOrderBook) (level : PriceLevel) : ContiguousOrderBook :=
  { book with asks := book.asks.update .ask book.basePrice level }

def bboBid (book : ContiguousOrderBook) : Option PriceLevel := book.bids.bbo

def bboAsk (book : ContiguousOrderBook) : Option PriceLevel := book.asks.bbo

def step (book : ContiguousOrderBook) : BookCall → ContiguousOrderBook
  | .updateBid level => book.updateBid level
  | .updateAsk level => book.updateAsk level

/-- A sequence of calls on a fresh book. -/
def run (basePrice : Int64) (calls : List BookCall) : ContiguousOrderBook :=
  calls.foldl step (new basePrice)

end ContiguousOrderBook

end ChainMarketPrice.CoreEngine
