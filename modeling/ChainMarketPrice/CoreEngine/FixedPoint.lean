import ChainMarketPrice.Lib.FixedWidth

/-!
# Fixed-point decimals

`parse_fixed_point_8` of `crates/core-engine/src/lib.rs`: decimal text to an integer scaled by
`10 ^ 8`. Bytes that are neither digits nor a point are skipped, and the arithmetic wraps as
the release profile does. The second version checks every operation as the debug profile does:
it has no result where one overflows.
-/

namespace ChainMarketPrice.CoreEngine

/-- The digits read so far, and the number of digits after the point: `-1` before it. -/
structure FixedPointScan where
  result : Int64 := 0
  decimalPlaces : Int32 := -1
deriving Repr, DecidableEq

/-- One byte of the text. -/
def FixedPointScan.step (st : FixedPointScan) (byte : UInt8) : FixedPointScan :=
  if byte = '.'.toUInt8 then { st with decimalPlaces := 0 }
  else if '0'.toUInt8 ≤ byte ∧ byte ≤ '9'.toUInt8 then
    { result := st.result * 10 + (byte - '0'.toUInt8).toUInt64.toInt64
      decimalPlaces := if st.decimalPlaces ≥ 0 then st.decimalPlaces + 1 else st.decimalPlaces }
  else st

/-- The two loops that bring the digits to eight decimal places. -/
def scaleToEight (result : Int64) (decimalPlaces : Int32) : Int64 :=
  let shift := 8 - (if decimalPlaces < 0 then 0 else decimalPlaces)
  if shift > 0 then Nat.repeat (· * 10) shift.toInt.toNat result
  else Nat.repeat (· / 10) (-shift).toInt.toNat result

def parseFixedPoint8 (val : List UInt8) : Int64 :=
  let isNegative := val.head? == some '-'.toUInt8
  let digits := if isNegative then val.tail else val
  let st := digits.foldl FixedPointScan.step {}
  let result := scaleToEight st.result st.decimalPlaces
  if isNegative then -result else result

/-! ## With overflow checks -/

open FixedWidth (checked64 checked32)

/-- One more digit behind the point, if the point was seen. -/
def checkedCountPlace (places : Int32) : Option Int32 :=
  if places ≥ 0 then checked32 (places.toInt + 1) else some places

def FixedPointScan.checkedStep (st : FixedPointScan) (byte : UInt8) : Option FixedPointScan :=
  if byte = '.'.toUInt8 then some { st with decimalPlaces := 0 }
  else if '0'.toUInt8 ≤ byte ∧ byte ≤ '9'.toUInt8 then do
    let tens ← checked64 (st.result.toInt * 10)
    let result ← checked64 (tens.toInt + (byte - '0'.toUInt8).toNat)
    let decimalPlaces ← checkedCountPlace st.decimalPlaces
    some { result := result, decimalPlaces := decimalPlaces }
  else some st

/-- Divisions by ten and the loop counter do not overflow. -/
def checkedScaleToEight (result : Int64) (decimalPlaces : Int32) : Option Int64 := do
  let shift ← checked32 (8 - (if decimalPlaces < 0 then 0 else decimalPlaces.toInt))
  if shift > 0 then
    Nat.repeat (fun r => r.bind fun result => checked64 (result.toInt * 10)) shift.toInt.toNat
      (some result)
  else some (Nat.repeat (· / 10) (-shift).toInt.toNat result)

def checkedParseFixedPoint8 (val : List UInt8) : Option Int64 := do
  let isNegative := val.head? == some '-'.toUInt8
  let digits := if isNegative then val.tail else val
  let st ← digits.foldlM FixedPointScan.checkedStep {}
  let result ← checkedScaleToEight st.result st.decimalPlaces
  if isNegative then checked64 (-result.toInt) else some result

end ChainMarketPrice.CoreEngine
