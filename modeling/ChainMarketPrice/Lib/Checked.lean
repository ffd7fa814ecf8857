import Mathlib.Data.List.Basic
import ChainMarketPrice.Lib.FixedWidth

/-!
# Computations that stop at a fault

A checked computation is an `Option` that stops with `none` at the first operation that overflows
or reaches out of a slice. `Yields c fits a` says when it stops, and what it returns otherwise;
there is a rule for each way of putting computations together. In `OptionT Option` and
`ExceptT ε Option` the inner result is the program's own, the outer one the fault.
-/

namespace Checked

open FixedWidth

variable {α β ε : Type} {p q : Prop}

/-- The computation returns `a` if `fits` holds, and stops if it does not. -/
structure Yields (c : Option α) (fits : Prop) (a : α) : Prop where
  returns : fits → c = some a
  stops : ¬ fits → c = none

namespace Yields

variable {c : Option α} {a : α}

lemma of_eq (h : c = some a) : Yields c True a :=
  ⟨fun _ => h, fun hfalse => absurd trivial hfalse⟩

lemma pure (a : α) : Yields (Pure.pure a : Option α) True a := of_eq rfl

lemma eq_some_iff (h : Yields c p a) : c = some a ↔ p := by
  constructor
  · intro hsome
    by_contra hp
    rw [h.stops hp] at hsome
    cases hsome
  · exact h.returns

lemma congr (h : Yields c p a) (hpq : p ↔ q) : Yields c q a :=
  ⟨fun hq => h.returns (hpq.mpr hq), fun hq => h.stops fun hp => hq (hpq.mp hp)⟩

/-- The value matters only where it is returned. -/
lemma congr_value (h : Yields c p a) {b : α} (hab : p → a = b) : Yields c p b :=
  ⟨fun hp => hab hp ▸ h.returns hp, h.stops⟩

/-- One computation after the other. -/
lemma bind {f : α → Option β} {b : β} (h : Yields c p a) (hf : p → Yields (f a) q b) :
    Yields (c >>= f) (p ∧ q) b := by
  constructor
  · rintro ⟨hp, hq⟩
    rw [h.returns hp]
    exact (hf hp).returns hq
  · intro hnot
    by_cases hp : p
    · rw [h.returns hp]
      exact (hf hp).stops fun hq => hnot ⟨hp, hq⟩
    · rw [h.stops hp]
      rfl

/-- A last step that cannot stop. -/
lemma map (h : Yields c p a) (f : α → β) : Yields (c >>= fun x => some (f x)) p (f a) :=
  (bind (f := fun x => some (f x)) h fun _ => of_eq rfl).congr (iff_of_eq (and_true p))

/-- After a computation that never stops. -/
lemma bind_of_eq {f : α → Option β} {b : β} (h : c = some a) (hf : Yields (f a) q b) :
    Yields (c >>= f) q b := by
  rw [h]
  exact hf

lemma ite {cond : Prop} [Decidable cond] {c' : Option α} {a' : α}
    (ht : cond → Yields c p a) (he : ¬ cond → Yields c' q a') :
    Yields (if cond then c else c') (if cond then p else q) (if cond then a else a') := by
  by_cases hcond : cond
  · rw [if_pos hcond, if_pos hcond, if_pos hcond]
    exact ht hcond
  · rw [if_neg hcond, if_neg hcond, if_neg hcond]
    exact he hcond

/-- One step of a program that may end early with `none`. -/
lemma andThen {x : OptionT Option α} {f : α → OptionT Option β} {v : Option α}
    {g : α → Option β} {q : α → Prop} (h : Yields x.run p v)
    (hf : p → ∀ a, v = some a → Yields (f a).run (q a) (g a)) :
    Yields (x >>= f).run (p ∧ ∀ a, v = some a → q a) (v >>= g) := by
  constructor
  · rintro ⟨hp, hq⟩
    rw [OptionT.run_bind, h.returns hp]
    cases v with
    | none => rfl
    | some a => exact (hf hp a rfl).returns (hq a rfl)
  · intro hnot
    by_cases hp : p
    · rw [OptionT.run_bind, h.returns hp]
      cases v with
      | none => exact absurd ⟨hp, fun a ha => absurd ha (by simp)⟩ hnot
      | some a =>
        exact (hf hp a rfl).stops fun hq => hnot ⟨hp, fun a' ha' => Option.some.inj ha' ▸ hq⟩
    · rw [OptionT.run_bind, h.stops hp]
      rfl

/-- An early end. -/
lemma leave {cond : Prop} [Decidable cond] {x : OptionT Option α} {v : Option α}
    (h : ¬ cond → Yields x.run p v) :
    Yields (if cond then failure else x).run (¬ cond → p) (if cond then none else v) := by
  by_cases hcond : cond
  · rw [if_pos hcond, if_pos hcond]
    exact (of_eq rfl).congr ⟨fun _ hnot => absurd hcond hnot, fun _ => trivial⟩
  · rw [if_neg hcond, if_neg hcond]
    exact (h hcond).congr ⟨fun hp _ => hp, fun hp => hp hcond⟩

lemma lift (h : Yields c p a) : Yields (liftM c : OptionT Option α).run p (some a) := h.map some

/-- A checked operation in such a program. -/
lemma liftThen {f : α → OptionT Option β} {v : Option β} (h : Yields c p a)
    (hf : p → Yields (f a).run q v) :
    Yields ((liftM c : OptionT Option α) >>= f).run (p ∧ q) v := by
  refine (h.lift.andThen (g := fun _ => v) (q := fun _ => q) fun hp a' ha' => ?_).congr ?_
  · obtain rfl := Option.some.inj ha'
    exact hf hp
  · exact and_congr_right fun _ => ⟨fun hall => hall a rfl, fun hq _ _ => hq⟩

/-- One step of a program that may end early with an error. -/
lemma andThenOk {x : ExceptT ε Option α} {f : α → ExceptT ε Option β} {v : Except ε α}
    {g : α → Except ε β} {q : α → Prop} (h : Yields x.run p v)
    (hf : p → ∀ a, v = .ok a → Yields (f a).run (q a) (g a)) :
    Yields (x >>= f).run (p ∧ ∀ a, v = .ok a → q a) (v >>= g) := by
  constructor
  · rintro ⟨hp, hq⟩
    rw [ExceptT.run_bind, h.returns hp]
    cases v with
    | error e => rfl
    | ok a => exact (hf hp a rfl).returns (hq a rfl)
  · intro hnot
    by_cases hp : p
    · rw [ExceptT.run_bind, h.returns hp]
      cases v with
      | error e => exact absurd ⟨hp, fun a ha => absurd ha (by simp)⟩ hnot
      | ok a =>
        exact (hf hp a rfl).stops fun hq => hnot ⟨hp, fun a' ha' => Except.ok.inj ha' ▸ hq⟩
    · rw [ExceptT.run_bind, h.stops hp]
      rfl

/-- A checked operation in such a program. -/
lemma liftThenOk {f : α → ExceptT ε Option β} {v : Except ε β} (h : Yields c p a)
    (hf : p → Yields (f a).run q v) :
    Yields ((liftM c : ExceptT ε Option α) >>= f).run (p ∧ q) v := by
  have hlift : Yields (liftM c : ExceptT ε Option α).run p (.ok a) := by
    have hmap : (liftM c : ExceptT ε Option α).run = c >>= fun x => some (.ok x) := by
      cases c with
      | none => rfl
      | some x => rfl
    rw [hmap]
    exact h.map Except.ok
  refine (hlift.andThenOk (g := fun _ => v) (q := fun _ => q) fun hp a' ha' => ?_).congr ?_
  · obtain rfl := Except.ok.inj ha'
    exact hf hp
  · exact and_congr_right fun _ => ⟨fun hall => hall a rfl, fun hq _ _ => hq⟩

/-- A run passes when each step fits the state that the steps before it have reached. -/
lemma foldlM {step : β → α → Option β} {next : β → α → β} {fits : β → α → Prop}
    (h : ∀ b a, Yields (step b a) (fits b a) (next b a)) (b : β) (as : List α) :
    Yields (as.foldlM step b)
      (∀ before a, before ++ [a] <+: as → fits (before.foldl next b) a) (as.foldl next b) := by
  induction as generalizing b with
  | nil =>
    refine (of_eq rfl).congr ⟨fun _ before a hpre => ?_, fun _ => trivial⟩
    exact absurd (List.prefix_nil.mp hpre) (by simp)
  | cons a as ih =>
    rw [List.foldlM_cons, List.foldl_cons]
    refine ((h b a).bind fun _ => ih (next b a)).congr ?_
    constructor
    · rintro ⟨hfirst, hrest⟩ before a' hpre
      cases before with
      | nil =>
        obtain ⟨rfl, -⟩ := List.cons_prefix_cons.mp hpre
        exact hfirst
      | cons a'' before =>
        obtain ⟨rfl, htail⟩ := List.cons_prefix_cons.mp hpre
        exact hrest before a' htail
    · intro hall
      refine ⟨hall [] a (List.cons_prefix_cons.mpr ⟨rfl, List.nil_prefix⟩), ?_⟩
      intro before a' hpre
      exact hall (a :: before) a' (List.cons_prefix_cons.mpr ⟨rfl, hpre⟩)

end Yields

/-! ## Operations -/

/-- The `u64` of an exact value, unless it overflows. -/
def u64 (n : ℕ) : Option UInt64 := if n < 2 ^ 64 then some (UInt64.ofNat n) else none

/-- `l[start..stop]`. -/
def slice (l : List α) (start stop : ℕ) : Option (List α) :=
  if start ≤ stop ∧ stop ≤ l.length then some ((l.drop start).take (stop - start)) else none

/-- `a - b` of two lengths. -/
def sub (a b : ℕ) : Option ℕ := if b ≤ a then some (a - b) else none

/-- `l[i] = a`. -/
def store (l : List α) (i : ℕ) (a : α) : Option (List α) :=
  if i < l.length then some (l.set i a) else none

/-- The `u128` of an exact value, unless it overflows. -/
def u128 (n : ℕ) : Option U128 := if n < 2 ^ 128 then some (BitVec.ofNat 128 n) else none

lemma u128_add {a b : U128} (h : a.toNat + b.toNat < 2 ^ 128) :
    u128 (a.toNat + b.toNat) = some (a + b) := by
  rw [u128, if_pos h, BitVec.ofNat_add, BitVec.ofNat_toNat, BitVec.ofNat_toNat,
    BitVec.setWidth_eq, BitVec.setWidth_eq]

lemma u128_mul {a b : U128} (h : a.toNat * b.toNat < 2 ^ 128) :
    u128 (a.toNat * b.toNat) = some (a * b) := by
  rw [u128, if_pos h, BitVec.ofNat_mul, BitVec.ofNat_toNat, BitVec.ofNat_toNat,
    BitVec.setWidth_eq, BitVec.setWidth_eq]

lemma yields_u64 (n : ℕ) : Yields (u64 n) (n < 2 ^ 64) (UInt64.ofNat n) :=
  ⟨fun h => if_pos h, fun h => if_neg h⟩

lemma yields_checked64 (x : ℤ) :
    Yields (checked64 x) (-2 ^ 63 ≤ x ∧ x < 2 ^ 63) (Int64.ofInt x) :=
  ⟨fun h => if_pos h, fun h => if_neg h⟩

lemma toNat_ofNat_of_lt {n : ℕ} (h : n < 2 ^ 64) : (UInt64.ofNat n).toNat = n := by
  rw [UInt64.toNat_ofNat', Nat.mod_eq_of_lt h]

end Checked
