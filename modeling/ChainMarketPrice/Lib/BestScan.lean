import Mathlib.Data.List.Basic

/-!
# Scanning for the best key

One pass over a list that keeps the first index whose key beats every key before it. The
order is any transitive relation; the scan starts from a sentinel.
-/

namespace BestScan

variable {ι κ : Type*} (live : ι → Bool) (key : ι → κ) {better : κ → κ → Bool}

/-- One element of the scan: the index and the key kept so far. -/
def step (better : κ → κ → Bool) (acc : ι × κ) (i : ι) : ι × κ :=
  if live i ∧ better (key i) acc.2 then (i, key i) else acc

/-- The pair a scan ends with: the sentinel, or a live index with its key. -/
lemma foldl_step_eq_or_mem (acc : ι × κ) (l : List ι) :
    l.foldl (step live key better) acc = acc ∨
      ∃ i ∈ l, live i ∧ l.foldl (step live key better) acc = (i, key i) := by
  induction l generalizing acc with
  | nil => exact .inl rfl
  | cons i l ih =>
    rw [List.foldl_cons]
    rcases ih (step live key better acc i) with h | ⟨j, hj, hlive, h⟩
    · rw [h]
      unfold step
      split
      · next hi => exact .inr ⟨i, List.mem_cons_self, hi.1, rfl⟩
      · exact .inl rfl
    · exact .inr ⟨j, List.mem_cons_of_mem _ hj, hlive, h⟩

/-- A key that does not beat the sentinel does not beat the key the scan ends with. -/
lemma not_better_foldl (htrans : ∀ a b c, better a b → better b c → better a c) {k : κ}
    (acc : ι × κ) (l : List ι) (hk : ¬ better k acc.2) :
    ¬ better k (l.foldl (step live key better) acc).2 := by
  induction l generalizing acc with
  | nil => exact hk
  | cons i l ih =>
    rw [List.foldl_cons]
    apply ih
    unfold step
    split
    · next hi => exact fun h => hk (htrans _ _ _ h hi.2)
    · exact hk

/-- No live key of the list beats the key the scan ends with. -/
theorem foldl_step_best (hirrefl : ∀ a, ¬ better a a)
    (htrans : ∀ a b c, better a b → better b c → better a c) (acc : ι × κ) (l : List ι) {i : ι}
    (hi : i ∈ l) (hlive : live i) : ¬ better (key i) (l.foldl (step live key better) acc).2 := by
  induction l generalizing acc with
  | nil => simp at hi
  | cons j l ih =>
    rw [List.foldl_cons]
    rcases List.mem_cons.mp hi with rfl | hi
    · apply not_better_foldl live key htrans
      unfold step
      split
      · exact hirrefl _
      · next h => exact fun hb => h ⟨hlive, hb⟩
    · exact ih _ hi

end BestScan
