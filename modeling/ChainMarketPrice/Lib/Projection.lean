import Mathlib.Data.List.Basic

/-!
# Projecting a machine onto one of its users

A machine serves many users and may halt. `Projects` says that what it keeps of one user
moves by itself: an input that concerns the user changes it as a machine of the user's own
would, any other input leaves it alone and answers the user nothing. Then a run, as the
user sees it, is a run of the user's own machine on the inputs that concern it
(`run_projects`), and inputs that do not concern the user are beyond its sight
(`observed_eq`).
-/

namespace Projection

variable {σ ν α β γ : Type*}

/-- The outputs of a machine that may halt, and its last state. -/
def run (f : σ → α → List β × Option σ) : Option σ → List α → List β × Option σ
  | s, [] => ([], s)
  | none, _ :: _ => ([], none)
  | some s, a :: as => ((f s a).1 ++ (run f (f s a).2 as).1, (run f (f s a).2 as).2)

lemma run_none (f : σ → α → List β × Option σ) (as : List α) : run f none as = ([], none) := by
  cases as <;> rfl

/-- The machine `g` is what `f` does for one user: `view` is what the states of `f` keep of the
user, `see` the outputs that are its own, and `Concerns` the inputs. -/
structure Projects (f : σ → α → List β × Option σ) (g : ν → α → List γ × Option ν) (view : σ → ν)
    (see : β → Option γ) (Concerns Harmless : α → Prop) : Prop where
  own : ∀ s a, Concerns a →
    (f s a).1.filterMap see = (g (view s) a).1 ∧ (f s a).2.map view = (g (view s) a).2
  foreign : ∀ s a, ¬ Concerns a → Harmless a →
    (f s a).1.filterMap see = [] ∧ (f s a).2.map view = some (view s)

variable {f : σ → α → List β × Option σ} {g : ν → α → List γ × Option ν} {view : σ → ν}
  {see : β → Option γ} {Concerns Harmless : α → Prop} [DecidablePred Concerns]

/-- What the user sees of a run. -/
theorem run_projects (h : Projects f g view see Concerns Harmless) {as : List α}
    (hharmless : ∀ a ∈ as, ¬ Concerns a → Harmless a) (s : Option σ) :
    (run f s as).1.filterMap see = (run g (s.map view) (as.filter (Concerns ·))).1 ∧
      (run f s as).2.map view = (run g (s.map view) (as.filter (Concerns ·))).2 := by
  induction as generalizing s with
  | nil => exact ⟨rfl, rfl⟩
  | cons a as ih =>
    have hrest := ih fun a' ha' => hharmless a' (List.mem_cons_of_mem a ha')
    cases s with
    | none =>
      rw [Option.map_none, run_none, run_none]
      exact ⟨rfl, rfl⟩
    | some s =>
      have hout : (run f (some s) (a :: as)).1.filterMap see
          = (f s a).1.filterMap see ++ (run f (f s a).2 as).1.filterMap see :=
        List.filterMap_append
      rw [hout, Option.map_some]
      by_cases ha : Concerns a
      · obtain ⟨hown, hnext⟩ := h.own s a ha
        rw [List.filter_cons_of_pos (by simpa using ha), hown, (hrest _).1, hnext]
        refine ⟨rfl, (hrest _).2.trans ?_⟩
        rw [hnext]
        rfl
      · obtain ⟨hforeign, hnext⟩ := h.foreign s a ha (hharmless a List.mem_cons_self ha)
        rw [List.filter_cons_of_neg (by simpa using ha), hforeign, (hrest _).1, hnext]
        refine ⟨rfl, (hrest _).2.trans ?_⟩
        rw [hnext]

/-- Two runs with the same inputs for the user look the same to it, whatever the other inputs
and the rest of the states. -/
theorem observed_eq (h : Projects f g view see Concerns Harmless) {as as' : List α}
    (hharmless : ∀ a ∈ as, ¬ Concerns a → Harmless a)
    (hharmless' : ∀ a ∈ as', ¬ Concerns a → Harmless a) {s s' : Option σ}
    (hview : s.map view = s'.map view)
    (hsame : as.filter (Concerns ·) = as'.filter (Concerns ·)) :
    (run f s as).1.filterMap see = (run f s' as').1.filterMap see := by
  rw [(run_projects h hharmless s).1, (run_projects h hharmless' s').1, hview, hsame]

end Projection
