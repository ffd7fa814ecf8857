import Mathlib.Data.List.Basic
import ChainMarketPrice.Lib.Text

/-!
# Field extraction

The substring scan of `crates/cefi-ingest/src/lib.rs`: a field is found by the bytes of its
key, quotes and colon included, and its value is read from there.
-/

namespace ChainMarketPrice.CefiIngest

open Text (isDigit quote)

/-- The loop of `find_subsequence` from offset `s` on, with `left` offsets to try. -/
def findLoop (haystack needle : List UInt8) : ℕ → ℕ → Option ℕ
  | 0, _ => none
  | left + 1, s =>
    let n := needle.length
    if haystack[s]? = needle[0]? ∧ haystack[s + n - 1]? = needle[n - 1]?
        ∧ (haystack.drop s).take n = needle then some s
    else findLoop haystack needle left (s + 1)

def findSubsequence (haystack needle : List UInt8) : Option ℕ :=
  let n := needle.length
  if n = 0 ∨ haystack.length < n then none
  else findLoop haystack needle (haystack.length - n + 1) 0

/-- The bytes after the first occurrence of `key`. -/
def afterKey (src key : List UInt8) : Option (List UInt8) :=
  (findSubsequence src key).map fun pos => src.drop (pos + key.length)

def isBlank (b : UInt8) : Bool := b == ' '.toUInt8 || b == '\t'.toUInt8

/-- The bytes up to the closing quote, if there is one. -/
def quoted (body : List UInt8) : Option (List UInt8) :=
  if quote ∈ body then some (body.takeWhile (· != quote)) else none

def extractJsonStrField (src key : List UInt8) : Except String (List UInt8) :=
  match afterKey src key with
  | some rest =>
    match rest.dropWhile isBlank with
    | b :: body =>
      if b = quote then
        match quoted body with
        | some value => .ok value
        | none => .error "Field not found"
      else .error "Field not found"
    | [] => .error "Field not found"
  | none => .error "Field not found"

/-- The number that a run of digits denotes, modulo `2 ^ 64`. -/
def digitsValue (digits : List UInt8) : UInt64 :=
  digits.foldl (fun num b => num * 10 + (b - '0'.toUInt8).toUInt64) 0

def extractJsonIntField (src key : List UInt8) : Option UInt64 :=
  match afterKey src key with
  | some rest =>
    let digits := (rest.dropWhile fun b => isBlank b || b == quote).takeWhile isDigit
    if digits.isEmpty then none else some (digitsValue digits)
  | none => none

end ChainMarketPrice.CefiIngest
