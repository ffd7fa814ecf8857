import Mathlib.Data.List.Basic
import Mathlib.Order.Lattice

/-!
# Ranges without holes

Items that each name a range of a linear order, and when together they leave no hole between
two points. A new range closes up to the last point if everything below its first one was
covered before.
-/

namespace Coverage

variable {ι α : Type*} [LinearOrder α] {first last : ι → α} {items items' : List ι} {lo mid hi : α}

/-- Every point above `lo` and up to `hi` lies in the range of some item. -/
def Covers (first last : ι → α) (items : List ι) (lo hi : α) : Prop :=
  ∀ n, lo < n → n ≤ hi → ∃ item ∈ items, first item ≤ n ∧ n ≤ last item

/-- There is nothing to cover up to the starting point. -/
lemma covers_self (lo : α) : Covers first last items lo lo :=
  fun _ hlo hhi => absurd hhi (not_le.mpr hlo)

lemma Covers.append (h : Covers first last items lo mid) (h' : Covers first last items' mid hi) :
    Covers first last (items ++ items') lo hi := by
  intro n hlo hhi
  rcases le_or_gt n mid with hmid | hmid
  · obtain ⟨item, hitem, hin⟩ := h n hlo hmid
    exact ⟨item, List.mem_append_left _ hitem, hin⟩
  · obtain ⟨item, hitem, hin⟩ := h' n hmid hhi
    exact ⟨item, List.mem_append_right _ hitem, hin⟩

/-- One range that begins at or before every point above `lo`. -/
lemma covers_singleton {item : ι} (h : ∀ n, lo < n → first item ≤ n) :
    Covers first last [item] lo (last item) :=
  fun n hlo hhi => ⟨item, List.mem_singleton_self item, h n hlo, hhi⟩

end Coverage
