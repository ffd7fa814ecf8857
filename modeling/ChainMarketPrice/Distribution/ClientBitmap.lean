import Mathlib.Data.UInt
import Mathlib.Logic.Function.Basic

/-!
# `ClientBitmap`

`crates/distribution/src/bitmap.rs`: a set of client ids below 1024 in sixteen words of
64 bits.
-/

namespace ChainMarketPrice.Distribution

/-- `DEFAULT_BITMAP_WORDS`. -/
def defaultBitmapWords : ℕ := 16

/-- `MAX_CLIENT_CAPACITY`. -/
def maxClientCapacity : ℕ := defaultBitmapWords * 64

/-- `u64::trailing_zeros`. -/
def trailingZeros (w : UInt64) : ℕ := w.toBitVec.ctz.toNat

/-- `u64::count_ones`. -/
def countOnes (w : UInt64) : ℕ := w.toBitVec.cpop.toNat

/-- `ClientBitmap`. -/
structure ClientBitmap where
  words : Fin defaultBitmapWords → UInt64
deriving DecidableEq

namespace ClientBitmap

def new : ClientBitmap where
  words := fun _ => 0

/-- The word index and the mask of a client id, if the bitmap has room for it. -/
def locate (clientId : UInt32) : Option (Fin defaultBitmapWords × UInt64) :=
  let idx := clientId.toNat
  let wordIdx := idx / 64
  let bitIdx := idx % 64
  if h : wordIdx < defaultBitmapWords then
    some (⟨wordIdx, h⟩, 1 <<< UInt64.ofNat bitIdx)
  else none

/-- `insert`: whether the id was new, and the bitmap with it. -/
def insert (b : ClientBitmap) (clientId : UInt32) : Bool × ClientBitmap :=
  match locate clientId with
  | some (wordIdx, mask) =>
    let alreadySet := (b.words wordIdx &&& mask) != 0
    (!alreadySet, { words := Function.update b.words wordIdx (b.words wordIdx ||| mask) })
  | none => (false, b)

/-- `remove`: whether the id was present, and the bitmap without it. -/
def remove (b : ClientBitmap) (clientId : UInt32) : Bool × ClientBitmap :=
  match locate clientId with
  | some (wordIdx, mask) =>
    let wasSet := (b.words wordIdx &&& mask) != 0
    (wasSet, { words := Function.update b.words wordIdx (b.words wordIdx &&& ~~~mask) })
  | none => (false, b)

def contains (b : ClientBitmap) (clientId : UInt32) : Bool :=
  match locate clientId with
  | some (wordIdx, mask) => (b.words wordIdx &&& mask) != 0
  | none => false

def isEmpty (b : ClientBitmap) : Bool :=
  (List.finRange defaultBitmapWords).all fun i => b.words i == 0

def count (b : ClientBitmap) : ℕ :=
  ((List.finRange defaultBitmapWords).map fun i => countOnes (b.words i)).sum

def clear (_ : ClientBitmap) : ClientBitmap := new

def intersect (b other : ClientBitmap) : ClientBitmap where
  words := fun i => b.words i &&& other.words i

def union (b other : ClientBitmap) : ClientBitmap where
  words := fun i => b.words i ||| other.words i

/-- The `while w != 0` loop of `for_each`. Each turn clears a bit, so `fuel = 64` turns are
enough. -/
def forEachBit {σ : Type*} (f : σ → UInt32 → σ) (baseId : UInt32) : ℕ → UInt64 → σ → σ
  | 0, _, s => s
  | fuel + 1, w, s =>
    if w = 0 then s
    else
      let bit := trailingZeros w
      forEachBit f baseId fuel (w &&& (w - 1)) (f s (baseId + UInt32.ofNat bit))

/-- `for_each`, with the state the closure captures. -/
def forEach {σ : Type*} (b : ClientBitmap) (f : σ → UInt32 → σ) (s : σ) : σ :=
  (List.finRange defaultBitmapWords).foldl
    (fun s wordIdx => forEachBit f (UInt32.ofNat (wordIdx.val * 64)) 64 (b.words wordIdx) s) s

end ClientBitmap

/-- `ClientBitmapIter`. -/
structure ClientBitmapIter where
  bitmap : ClientBitmap
  wordIdx : ℕ
  currentWord : UInt64

def ClientBitmap.iter (b : ClientBitmap) : ClientBitmapIter where
  bitmap := b
  wordIdx := 0
  currentWord := b.words ⟨0, by decide⟩

namespace ClientBitmapIter

/-- The `while self.current_word == 0` loop of `next`: whether there is a word with ids. -/
def skip (it : ClientBitmapIter) : Bool × ClientBitmapIter :=
  if it.currentWord ≠ 0 then (true, it)
  else
    if h : it.wordIdx + 1 < defaultBitmapWords then
      skip { it with wordIdx := it.wordIdx + 1, currentWord := it.bitmap.words ⟨_, h⟩ }
    else (false, { it with wordIdx := it.wordIdx + 1 })
termination_by defaultBitmapWords - it.wordIdx

def next (it : ClientBitmapIter) : Option UInt32 × ClientBitmapIter :=
  match it.skip with
  | (false, it) => (none, it)
  | (true, it) =>
    let bit := trailingZeros it.currentWord
    let clientId := UInt32.ofNat (it.wordIdx * 64) + UInt32.ofNat bit
    (some clientId, { it with currentWord := it.currentWord &&& (it.currentWord - 1) })

/-- What a loop over the iterator gets, if it ends within `fuel` calls. -/
def collect : ℕ → ClientBitmapIter → Option (List UInt32)
  | 0, _ => none
  | fuel + 1, it =>
    match it.next with
    | (none, _) => some []
    | (some clientId, it) => (collect fuel it).map (clientId :: ·)

end ClientBitmapIter
end ChainMarketPrice.Distribution
