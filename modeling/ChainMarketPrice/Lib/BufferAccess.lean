import ChainMarketPrice.Lib.TextBoundary

/-!
# Accesses of a program to its buffers

The operations that a program with bounds checks may abort in, or that may wrap: additions and
subtractions of 64-bit lengths, indexing, slicing, copying between slices and cutting texts.
A function's log lists those it performs, in order, up to the first that aborts.
-/

/-- One checked operation, with the numbers it is checked on. -/
inductive Access
  | add (a b : ℕ)
  | sub (a b : ℕ)
  | index (i length : ℕ)
  | slice (start stop length : ℕ)
  | copy (target source : ℕ)
  | cut (text : List UInt8) (i : ℕ)
deriving Repr, DecidableEq

namespace Access

/-- The operation neither wraps nor aborts. -/
def InRange : Access → Prop
  | add a b => a + b < 2 ^ 64
  | sub a b => b ≤ a
  | index i length => i < length
  | slice start stop length => start ≤ stop ∧ stop ≤ length
  | copy target source => target = source
  | cut text i => Text.isCharBoundary text i = true

instance decidableInRange : ∀ a : Access, Decidable a.InRange
  | add a b => inferInstanceAs (Decidable (a + b < 2 ^ 64))
  | sub a b => inferInstanceAs (Decidable (b ≤ a))
  | index i length => inferInstanceAs (Decidable (i < length))
  | slice start stop length => inferInstanceAs (Decidable (start ≤ stop ∧ stop ≤ length))
  | copy target source => inferInstanceAs (Decidable (target = source))
  | cut text i => inferInstanceAs (Decidable (Text.isCharBoundary text i = true))

/-- All operations of a log are in range. -/
def AllInRange (log : List Access) : Prop := ∀ a ∈ log, a.InRange

instance decidableAllInRange (log : List Access) : Decidable (AllInRange log) :=
  inferInstanceAs (Decidable (∀ a ∈ log, a.InRange))

@[simp]
lemma allInRange_nil : AllInRange [] := by simp [AllInRange]

@[simp]
lemma allInRange_cons (a : Access) (log : List Access) :
    AllInRange (a :: log) ↔ a.InRange ∧ AllInRange log := by
  simp [AllInRange]

@[simp]
lemma allInRange_append (log log' : List Access) :
    AllInRange (log ++ log') ↔ AllInRange log ∧ AllInRange log' := by
  simp only [AllInRange, List.mem_append, or_imp, forall_and]

lemma allInRange_map {α : Type*} {f : α → Access} {l : List α} (h : ∀ x ∈ l, (f x).InRange) :
    AllInRange (l.map f) := by
  simpa [AllInRange] using h

lemma allInRange_flatMap {α : Type*} {f : α → List Access} {l : List α}
    (h : ∀ x ∈ l, AllInRange (f x)) : AllInRange (l.flatMap f) := by
  intro a ha
  obtain ⟨x, hx, hax⟩ := List.mem_flatMap.mp ha
  exact h x hx a hax

end Access
