import ChainMarketPrice.Lib.XorShift

/-!
# The pseudo-random numbers of the simulator

`FastPrng` of `crates/core-engine/src/simulator.rs`, a 64-bit xorshift generator whose output is
multiplied by an odd constant. Whatever the seed, it never gets to zero, and it runs through a
cycle of distinct numbers.
-/

namespace ChainMarketPrice.CoreEngine

/-- `FastPrng`. -/
structure FastPrng where
  state : UInt64
deriving Repr, DecidableEq

namespace FastPrng

def new (seed : UInt64) : FastPrng :=
  ⟨if seed = 0 then 0xdeadbeefcafebabe else seed⟩

/-- The new state in `next_u64`. -/
def scrambled (x : UInt64) : UInt64 :=
  let x := x ^^^ (x >>> 12)
  let x := x ^^^ (x <<< 25)
  x ^^^ (x >>> 27)

/-- The number that `next_u64` makes of a state. -/
def multiplied (x : UInt64) : UInt64 := x * 0x2545f4914f6cdd1d

def nextU64 (g : FastPrng) : UInt64 × FastPrng :=
  let x := scrambled g.state
  (multiplied x, ⟨x⟩)

/-- `gen_range`, in wrapping arithmetic; `none` is the division by zero in a range of all
`2 ^ 64` numbers. -/
def genRange (g : FastPrng) (min max : UInt64) : Option (UInt64 × FastPrng) :=
  if min ≥ max then some (min, g)
  else if max - min + 1 = 0 then none
  else
    let (r, g) := g.nextU64
    some (min + r % (max - min + 1), g)

/-- `gen_price_delta`. -/
def genPriceDelta (g : FastPrng) (maxTickJump : Int64) : Int64 × FastPrng :=
  let (r, g) := g.nextU64
  let raw := (r % (maxTickJump * 2 + 1).toUInt64).toInt64
  (raw - maxTickJump, g)

/-! ## The cycle -/

lemma toBitVec_scrambled (x : UInt64) : (scrambled x).toBitVec =
    (fun z : BitVec 64 => z ^^^ (z >>> 27)) ((fun z : BitVec 64 => z ^^^ (z <<< 25))
      ((fun z : BitVec 64 => z ^^^ (z >>> 12)) x.toBitVec)) := rfl

lemma scrambled_injective : Function.Injective scrambled := by
  intro x y h
  have hbits := congrArg UInt64.toBitVec h
  rw [toBitVec_scrambled, toBitVec_scrambled] at hbits
  apply UInt64.toBitVec_inj.mp
  apply XorShift.right_injective (k := 12) (by decide)
  apply XorShift.left_injective (k := 25) (by decide)
  exact XorShift.right_injective (k := 27) (by decide) hbits

lemma scrambled_zero : scrambled 0 = 0 := by decide

/-- The multiplier is odd, and so it has an inverse. -/
lemma multiplied_injective : Function.Injective multiplied := by
  intro x y h
  have hinverse : ∀ z, multiplied z * 0x59071d96d81ecd35 = z := by
    intro z
    rw [multiplied, UInt64.mul_assoc, show (0x2545f4914f6cdd1d : UInt64) * 0x59071d96d81ecd35 = 1
      from by decide, UInt64.mul_one]
  rw [← hinverse x, h, hinverse]

lemma multiplied_zero : multiplied 0 = 0 := by decide

lemma new_state_ne_zero (seed : UInt64) : (new seed).state ≠ 0 := by
  unfold new
  split
  · decide
  · assumption

lemma state_nextU64_ne_zero {g : FastPrng} (h : g.state ≠ 0) : g.nextU64.2.state ≠ 0 := by
  show scrambled g.state ≠ 0
  rw [← scrambled_zero]
  exact scrambled_injective.ne h

lemma nextU64_ne_zero {g : FastPrng} (h : g.state ≠ 0) : g.nextU64.1 ≠ 0 := by
  show multiplied (scrambled g.state) ≠ 0
  rw [← multiplied_zero]
  exact multiplied_injective.ne (state_nextU64_ne_zero h)

/-- The generator after `n` numbers. -/
def drawn (seed : UInt64) (n : ℕ) : FastPrng := (fun g => g.nextU64.2)^[n] (new seed)

lemma drawn_ne_zero (seed : UInt64) (n : ℕ) : (drawn seed n).state ≠ 0 := by
  induction n with
  | zero => exact new_state_ne_zero seed
  | succ n ih =>
    unfold drawn
    rw [Function.iterate_succ_apply']
    exact state_nextU64_ne_zero ih

lemma state_drawn (seed : UInt64) (n : ℕ) :
    (drawn seed n).state = scrambled^[n] (new seed).state := by
  induction n with
  | zero => rfl
  | succ n ih =>
    unfold drawn at ih ⊢
    rw [Function.iterate_succ_apply', Function.iterate_succ_apply', ← ih]
    rfl

/-- From every seed, the numbers are all distinct until they start again from the first one, and
none of them is zero. -/
theorem draws_cycle (seed : UInt64) :
    (∃ period > 0, ∀ m n, (drawn seed m).nextU64.1 = (drawn seed n).nextU64.1 ↔
      m % period = n % period) ∧
    ∀ n, (drawn seed n).nextU64.1 ≠ 0 := by
  have hfinite : Finite UInt64 := Finite.of_injective UInt64.toFin fun _ _ => UInt64.toFin_inj.mp
  refine ⟨?_, fun n => nextU64_ne_zero (drawn_ne_zero seed n)⟩
  obtain ⟨period, hpos, hperiod⟩ := Generator.exists_period scrambled_injective
    (multiplied_injective.comp scrambled_injective) (new seed).state
  refine ⟨period, hpos, fun m n => ?_⟩
  rw [← hperiod m n, ← state_drawn, ← state_drawn]
  rfl

end FastPrng
end ChainMarketPrice.CoreEngine
