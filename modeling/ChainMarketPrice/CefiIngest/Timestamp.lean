import Mathlib.Data.List.Basic
import Mathlib.Data.Int.Init
import ChainMarketPrice.CefiIngest.Json

/-!
# Exchange timestamps

`parse_iso8601_utc_ns` of `crates/cefi-ingest/src/lib.rs`. The year has four digits, so the
signed calendar arithmetic stays far inside `i64` and is done on `ℤ`, with the truncating
division of the source; the nanoseconds are a `u64` and wrap.
-/

namespace ChainMarketPrice.CefiIngest

open Text (isDigit)

/-- `num`: a run of digits, `none` if any byte is something else. -/
def num (b : List UInt8) : Option UInt64 :=
  if b.all isDigit then some (digitsValue b) else none

/-- `s[start..stop]`. -/
def slice (s : List UInt8) (start stop : ℕ) : List UInt8 := (s.drop start).take (stop - start)

/-- The loop over the fraction: the first nine digits and how many there were, and the bytes
from the `Z` on. Digits after the ninth are checked and dropped. -/
def fractionLoop : List UInt8 → UInt64 → ℕ → Option (UInt64 × ℕ × List UInt8)
  | [], fracNs, digits => some (fracNs, digits, [])
  | b :: rest, fracNs, digits =>
    if b = 'Z'.toUInt8 then some (fracNs, digits, b :: rest)
    else if isDigit b then
      if digits < 9 then fractionLoop rest (fracNs * 10 + (b - '0'.toUInt8).toUInt64) (digits + 1)
      else fractionLoop rest fracNs digits
    else none

/-- The fraction in nanoseconds, and the bytes after it. -/
def fraction : List UInt8 → Option (UInt64 × List UInt8)
  | [] => some (0, [])
  | b :: rest =>
    if b = '.'.toUInt8 then
      match fractionLoop rest 0 0 with
      | some (fracNs, digits, rest) => some (Nat.repeat (· * 10) (9 - digits) fracNs, rest)
      | none => none
    else some (0, b :: rest)

/-- Days since 1970-01-01 of a proleptic Gregorian date. -/
def daysFromCivil (y m d : ℤ) : ℤ :=
  let y := if m ≤ 2 then y - 1 else y
  let era := (if y ≥ 0 then y else y - 399).tdiv 400
  let yoe := y - era * 400
  let mp := (m + 9).tmod 12
  let doy := (153 * mp + 2).tdiv 5 + d - 1
  let doe := yoe * 365 + yoe.tdiv 4 - yoe.tdiv 100 + doy
  era * 146097 + doe - 719468

/-- The separators of `YYYY-MM-DDTHH:MM:SS`. -/
def hasIsoShape (s : List UInt8) : Bool :=
  20 ≤ s.length && s[4]? == some '-'.toUInt8 && s[7]? == some '-'.toUInt8
    && s[10]? == some 'T'.toUInt8 && s[13]? == some ':'.toUInt8 && s[16]? == some ':'.toUInt8

def parseIso8601UtcNs (s : List UInt8) : Option UInt64 := do
  if !hasIsoShape s then none
  let y ← num (slice s 0 4)
  let m ← num (slice s 5 7)
  let d ← num (slice s 8 10)
  let hh ← num (slice s 11 13)
  let mm ← num (slice s 14 16)
  let ss ← num (slice s 17 19)
  if m < 1 ∨ 12 < m ∨ d < 1 ∨ 31 < d ∨ hh > 23 ∨ mm > 59 ∨ ss > 60 then none
  let (fracNs, rest) ← fraction (s.drop 19)
  if rest.head? ≠ some 'Z'.toUInt8 then none
  let days := daysFromCivil y.toNat m.toNat d.toNat
  if days < 0 then none
  let secs := UInt64.ofInt days * 86400 + hh * 3600 + mm * 60 + ss
  some (secs * 1000000000 + fracNs)

end ChainMarketPrice.CefiIngest
