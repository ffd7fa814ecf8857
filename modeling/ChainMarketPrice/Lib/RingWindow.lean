import Mathlib.Logic.Function.Basic
import Mathlib.Data.List.Basic
import Mathlib.Data.Int.ModEq
import Mathlib.Tactic.Common

/-!
# Power-of-two rings

A ring of `2 ^ k` slots is addressed by a running position masked with `2 ^ k - 1`. Positions
that are words are compared with sums that may wrap; below the end of the words they do not.
`Window` says that a range of positions of a log is what the ring currently holds: the
invariant every ring protocol keeps between its read and its write position.
-/

namespace RingWindow

variable {T : Type*} {k : ℕ}

/-- The slot of position `x`: `x & (2 ^ k - 1)`. -/
def slotOf (k x : ℕ) : Fin (2 ^ k) :=
  ⟨x &&& (2 ^ k - 1), by
    rw [Nat.and_two_pow_sub_one_eq_mod]
    exact Nat.mod_lt _ (Nat.two_pow_pos k)⟩

lemma slotOf_val (k x : ℕ) : (slotOf k x : ℕ) = x % 2 ^ k :=
  Nat.and_two_pow_sub_one_eq_mod x k

lemma slotOf_eq_iff {x y : ℕ} : slotOf k x = slotOf k y ↔ x % 2 ^ k = y % 2 ^ k := by
  rw [Fin.ext_iff, slotOf_val, slotOf_val]

/-- Positions less than one lap apart have different slots. -/
lemma slotOf_ne {x y : ℕ} (hlt : x < y) (hlap : y < x + 2 ^ k) : slotOf k x ≠ slotOf k y := by
  rw [Ne, slotOf_eq_iff]
  intro h
  have hdvd : 2 ^ k ∣ y - x := (Nat.modEq_iff_dvd' (Nat.le_of_lt hlt)).mp h
  have := Nat.le_of_dvd (by omega) hdvd
  omega

/-- An item keeps its position when the log grows. -/
lemma getElem?_of_prefix {log log' : List T} {i : ℕ} {v : T} (h : log[i]? = some v)
    (hpre : log <+: log') : log'[i]? = some v := by
  obtain ⟨rest, rfl⟩ := hpre
  obtain ⟨hlt, -⟩ := List.getElem?_eq_some_iff.mp h
  rw [List.getElem?_append_left hlt]
  exact h

/-- The ring `buf` holds the positions `lo ≤ i < hi` of `log`. -/
def Window (k : ℕ) (buf : Fin (2 ^ k) → T) (log : List T) (lo hi : ℕ) : Prop :=
  ∀ i, lo ≤ i → i < hi → log[i]? = some (buf (slotOf k i))

lemma Window.empty (buf : Fin (2 ^ k) → T) (log : List T) (lo : ℕ) : Window k buf log lo lo :=
  fun i h1 h2 => absurd h1 (by omega)

/-- The read position may move up. -/
lemma Window.mono {buf : Fin (2 ^ k) → T} {log : List T} {lo lo' hi : ℕ}
    (h : Window k buf log lo hi) (hle : lo ≤ lo') : Window k buf log lo' hi :=
  fun i h1 h2 => h i (le_trans hle h1) h2

/-- Writing the slot of a position less than one lap past the read position leaves the
window alone. -/
lemma Window.write {buf : Fin (2 ^ k) → T} {log : List T} {lo hi : ℕ}
    (h : Window k buf log lo hi) {x : ℕ} (hx : hi ≤ x) (hlap : x < lo + 2 ^ k) (v : T) :
    Window k (Function.update buf (slotOf k x) v) log lo hi := by
  intro i h1 h2
  rw [Function.update_of_ne (slotOf_ne (by omega) (by omega))]
  exact h i h1 h2

/-- Publishing the value already in the next slot extends the window. -/
lemma Window.publish {buf : Fin (2 ^ k) → T} {log : List T} {lo hi : ℕ}
    (h : Window k buf log lo hi) (hlen : log.length = hi) {v : T}
    (hv : buf (slotOf k hi) = v) : Window k buf (log ++ [v]) lo (hi + 1) := by
  intro i h1 h2
  rcases Nat.lt_or_ge i hi with hlt | hge
  · rw [List.getElem?_append_left (by omega)]
    exact h i h1 hlt
  · have : i = hi := by omega
    subst this
    rw [← hlen, List.getElem?_append_right (le_refl _), hlen, hv, Nat.sub_self]
    rfl

/-! ## Positions that are words -/

/-- The number of slots as a word. -/
def capacity64 (k : ℕ) : UInt64 := UInt64.ofNat (2 ^ k)

lemma toNat_capacity64 (h : 2 ^ k < 2 ^ 64) : (capacity64 k).toNat = 2 ^ k := by
  rw [capacity64, UInt64.toNat_ofNat']
  exact Nat.mod_eq_of_lt h

/-- The end of the lap that begins at a position. -/
lemma toNat_add_capacity64 {x : UInt64} (h : x.toNat + 2 ^ k < 2 ^ 64) :
    (x + capacity64 k).toNat = x.toNat + 2 ^ k := by
  rw [UInt64.toNat_add, toNat_capacity64 (by omega)]
  exact Nat.mod_eq_of_lt h

/-- The comparison with the end of a lap. -/
lemma lt_add_capacity64_iff {x y : UInt64} (h : x.toNat + 2 ^ k < 2 ^ 64) :
    y < x + capacity64 k ↔ y.toNat < x.toNat + 2 ^ k := by
  rw [UInt64.lt_iff_toNat_lt, toNat_add_capacity64 h]

/-- The next position. -/
lemma toNat_succ {x : UInt64} (h : x.toNat + 1 < 2 ^ 64) : (x + 1).toNat = x.toNat + 1 := by
  rw [UInt64.toNat_add]
  exact Nat.mod_eq_of_lt h

/-- A position that is below another one is not the last word. -/
lemma toNat_succ_of_lt {x y : UInt64} (h : x.toNat < y.toNat) : (x + 1).toNat = x.toNat + 1 :=
  toNat_succ (lt_of_le_of_lt h y.toNat_lt)

end RingWindow
