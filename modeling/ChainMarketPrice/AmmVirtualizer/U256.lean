import ChainMarketPrice.Lib.FixedWidth

/-!
# `U256`: two 128-bit halves

The 256-bit unsigned integer of `crates/amm-virtualizer/src/curve.rs`. The halves wrap; carries
are recovered from the wrapped sums, products are put together from 64-bit parts, and division
is long division over the 256 bits.
-/

namespace ChainMarketPrice.AmmVirtualizer

open FixedWidth

structure U256 where
  hi : U128
  lo : U128
deriving DecidableEq, Repr

namespace U256

def zero : U256 := ⟨0, 0⟩

def one : U256 := ⟨0, 1⟩

def fromU128 (v : U128) : U256 := ⟨0, v⟩

def asU128 (a : U256) : U128 := a.lo

def isZero (a : U256) : Bool := a.hi = 0 ∧ a.lo = 0

/-- The derived order: the high half first. -/
def lt (a b : U256) : Bool := a.hi < b.hi ∨ a.hi = b.hi ∧ a.lo < b.lo

def le (a b : U256) : Bool := a.hi < b.hi ∨ a.hi = b.hi ∧ a.lo ≤ b.lo

/-- The flag of `overflowing_add`. -/
def carry (a b : U128) : Bool := a.toNat + b.toNat ≥ 2 ^ 128

def add (a b : U256) : U256 :=
  { hi := a.hi + b.hi + (if carry a.lo b.lo then 1 else 0), lo := a.lo + b.lo }

def sub (a b : U256) : U256 :=
  { hi := a.hi - b.hi - (if a.lo < b.lo then 1 else 0), lo := a.lo - b.lo }

/-- The low 64 bits of a word. -/
def lowHalf (a : U128) : U128 := (a.setWidth 64).setWidth 128

def mulU128 (a : U256) (other : U128) : U256 :=
  let loLo := lowHalf a.lo
  let loHi := a.lo >>> 64
  let oLo := lowHalf other
  let oHi := other >>> 64
  let p0 := loLo * oLo
  let p1 := loLo * oHi
  let p2 := loHi * oLo
  let p3 := loHi * oHi
  let mid := p1 + p2
  let midLo := lowHalf mid
  let midHi := (mid >>> 64) + (if carry p1 p2 then 0x10000000000000000 else 0)
  let hi := p3 + midHi + a.hi * other + (if carry p0 (midLo <<< 64) then 1 else 0)
  { hi := hi, lo := p0 + (midLo <<< 64) }

def mul (a b : U256) : U256 :=
  let res := a.mulU128 b.lo
  { res with hi := res.hi + a.lo * b.hi }

def shiftLeft1 (a : U256) : U256 :=
  { hi := (a.hi <<< 1) ||| (a.lo >>> 127), lo := a.lo <<< 1 }

def getBit (a : U256) (bit : ℕ) : Bool :=
  if bit < 128 then (a.lo >>> bit) &&& 1 = 1 else (a.hi >>> (bit - 128)) &&& 1 = 1

def setBit (a : U256) (bit : ℕ) : U256 :=
  if bit < 128 then { a with lo := a.lo ||| ((1 : U128) <<< bit) }
  else { a with hi := a.hi ||| ((1 : U128) <<< (bit - 128)) }

/-- The loop of the long division over the bits below `i`, from the highest: the quotient and
the remainder. -/
def divLoop (a b : U256) : ℕ → U256 → U256 → U256
  | 0, quotient, _ => quotient
  | i + 1, quotient, remainder =>
    let shifted := remainder.shiftLeft1
    let remainder := if a.getBit i then { shifted with lo := shifted.lo ||| 1 } else shifted
    if b.le remainder then divLoop a b i (quotient.setBit i) (remainder.sub b)
    else divLoop a b i quotient remainder

/-- `none` is the panic of a division by zero. -/
def div (a b : U256) : Option U256 :=
  if b.isZero then none
  else if a.lt b then some zero
  else if b = one then some a
  else some (divLoop a b 256 zero zero)

end U256

end ChainMarketPrice.AmmVirtualizer
