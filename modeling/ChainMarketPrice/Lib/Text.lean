import Mathlib.Data.UInt
import Mathlib.Data.List.Basic
import ChainMarketPrice.Lib.Bytes

/-!
# Text as UTF-8 bytes

A string is the list of its bytes. Searching for a pattern works on bytes; trimming knows the
encodings of the code points with the property `White_Space`.
-/

namespace Text

/-- The bytes are well-formed UTF-8. -/
def isUtf8 (text : List UInt8) : Bool := ByteArray.validateUTF8 ⟨text.toArray⟩

/-- The offset of the first occurrence of `pattern`. -/
def find (pattern : List UInt8) : List UInt8 → Option ℕ
  | [] => if pattern.isEmpty then some 0 else none
  | b :: rest =>
    if pattern.isPrefixOf (b :: rest) then some 0 else (find pattern rest).map (· + 1)

def contains (text pattern : List UInt8) : Bool := (find pattern text).isSome

/-- `U+0009` to `U+000D` and `U+0020`. -/
def isSpace1 (b : UInt8) : Bool := (0x09 ≤ b && b ≤ 0x0D) || b == 0x20

/-- `U+0085` and `U+00A0`. -/
def isSpace2 (b0 b1 : UInt8) : Bool := b0 == 0xC2 && (b1 == 0x85 || b1 == 0xA0)

/-- `U+1680`, `U+2000` to `U+200A`, `U+2028`, `U+2029`, `U+202F`, `U+205F` and `U+3000`. -/
def isSpace3 (b0 b1 b2 : UInt8) : Bool :=
  (b0 == 0xE1 && b1 == 0x9A && b2 == 0x80)
    || (b0 == 0xE2 && b1 == 0x80
      && ((0x80 ≤ b2 && b2 ≤ 0x8A) || b2 == 0xA8 || b2 == 0xA9 || b2 == 0xAF))
    || (b0 == 0xE2 && b1 == 0x81 && b2 == 0x9F)
    || (b0 == 0xE3 && b1 == 0x80 && b2 == 0x80)

/-- Drops white space in front. -/
def trimStart : List UInt8 → List UInt8
  | b0 :: b1 :: b2 :: rest =>
    if isSpace1 b0 then trimStart (b1 :: b2 :: rest)
    else if isSpace2 b0 b1 then trimStart (b2 :: rest)
    else if isSpace3 b0 b1 b2 then trimStart rest
    else b0 :: b1 :: b2 :: rest
  | [b0, b1] => if isSpace1 b0 then trimStart [b1] else if isSpace2 b0 b1 then [] else [b0, b1]
  | [b0] => if isSpace1 b0 then [] else [b0]
  | [] => []

def quote : UInt8 := '"'.toUInt8

def colon : UInt8 := ':'.toUInt8

/-- A key in quotes, with its colon. -/
def keyPattern (key : List UInt8) : List UInt8 := quote :: (key ++ [quote, colon])

def isDigit (b : UInt8) : Bool := '0'.toUInt8 ≤ b && b ≤ '9'.toUInt8

/-- The number that a run of digits denotes. -/
def decimalValue (digits : List UInt8) : ℕ :=
  digits.foldl (fun num b => num * 10 + (b - '0'.toUInt8).toNat) 0

/-- A 64-bit number from a run of digits, unless it is too large. -/
def parseU64 (digits : List UInt8) : Option UInt64 :=
  if digits ≠ [] ∧ decimalValue digits < 2 ^ 64 then some (UInt64.ofNat (decimalValue digits))
  else none

end Text
