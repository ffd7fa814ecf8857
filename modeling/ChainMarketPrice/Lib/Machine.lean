import Mathlib.Logic.Relation
import Mathlib.Data.List.Basic

/-!
# Machines and their reachable states

A machine is an initial state and a partial step function on labelled actions: `none` is
an action that is not enabled. Interleavings of several parties are runs of one machine
whose actions say which party moves.

`ReachableWhen ok` restricts the runs to those whose every step is taken in a state where
`ok` allows the action, so that one invariant rule serves both unrestricted safety and
safety under a condition on the steps.
-/

/-- A deterministic labelled machine. -/
structure Machine (σ α : Type*) where
  init : σ
  step : σ → α → Option σ

namespace Machine

variable {σ α : Type*} (M : Machine σ α) {ok ok' : σ → α → Prop} {s s' : σ}

/-- One step that `ok` allows. -/
def StepWhen (ok : σ → α → Prop) (s s' : σ) : Prop :=
  ∃ a, ok s a ∧ M.step s a = some s'

/-- Reachable from `s` by steps that `ok` allows. -/
def ReachableFrom (ok : σ → α → Prop) (s s' : σ) : Prop :=
  Relation.ReflTransGen (M.StepWhen ok) s s'

/-- Reachable from the initial state by steps that `ok` allows. -/
def ReachableWhen (ok : σ → α → Prop) (s : σ) : Prop :=
  M.ReachableFrom ok M.init s

/-- Reachable by any steps. -/
def Reachable (s : σ) : Prop :=
  M.ReachableWhen (fun _ _ => True) s

/-- The state after a list of actions, if all of them are enabled in turn. -/
def exec : σ → List α → Option σ
  | s, [] => some s
  | s, a :: as => (M.step s a).bind fun s' => exec s' as

/-- The actions of a run are all enabled and allowed where they are taken. -/
def Allowed (ok : σ → α → Prop) : σ → List α → Prop
  | _, [] => True
  | s, a :: as => ok s a ∧ ∃ s', M.step s a = some s' ∧ Allowed ok s' as

instance decidableAllowed [∀ s a, Decidable (ok s a)] :
    ∀ (s : σ) (as : List α), Decidable (M.Allowed ok s as)
  | _, [] => .isTrue trivial
  | s, a :: as =>
    match h : M.step s a with
    | none => .isFalse (by simp [Allowed, h])
    | some s' =>
      let _ := decidableAllowed s' as
      decidable_of_iff (ok s a ∧ M.Allowed ok s' as) (by simp [Allowed, h])

variable {M}

/-- The invariant rule, from any starting state. -/
theorem ReachableFrom.invariant {Inv : σ → Prop} (h : M.ReachableFrom ok s s') (hinit : Inv s)
    (hstep : ∀ s a s', Inv s → ok s a → M.step s a = some s' → Inv s') : Inv s' := by
  induction h with
  | refl => exact hinit
  | tail _ hs ih =>
    obtain ⟨a, hok, ha⟩ := hs
    exact hstep _ a _ ih hok ha

/-- The invariant rule. -/
theorem ReachableWhen.invariant {Inv : σ → Prop} (h : M.ReachableWhen ok s) (hinit : Inv M.init)
    (hstep : ∀ s a s', Inv s → ok s a → M.step s a = some s' → Inv s') : Inv s :=
  ReachableFrom.invariant h hinit hstep

lemma exec_append (M : Machine σ α) (s : σ) (as as' : List α) :
    M.exec s (as ++ as') = (M.exec s as).bind fun s' => M.exec s' as' := by
  induction as generalizing s with
  | nil => rfl
  | cons a as ih =>
    rw [List.cons_append, exec, exec, Option.bind_assoc]
    congr 1
    funext t
    exact ih t

/-- A run whose actions are all allowed can be executed. -/
lemma Allowed.isSome {as : List α} (h : M.Allowed ok s as) : (M.exec s as).isSome := by
  induction as generalizing s with
  | nil => rfl
  | cons a as ih =>
    obtain ⟨_, t, ht, h⟩ := h
    simp only [exec, ht, Option.bind_some]
    exact ih h

/-- A run whose actions are all allowed reaches its last state. -/
theorem Allowed.reachable {as : List α} (h : M.Allowed ok s as) :
    M.ReachableFrom ok s ((M.exec s as).get h.isSome) := by
  induction as generalizing s with
  | nil => exact .refl
  | cons a as ih =>
    obtain ⟨hok, t, ht, h'⟩ := h
    refine .head ⟨a, hok, ht⟩ ?_
    simp only [exec, ht, Option.bind_some]
    exact ih h'

end Machine

/-!
## Runs with outputs
-/

namespace Transducer

variable {σ τ α β : Type*}

/-- The outputs of a list of inputs, one after the other, and the last state. -/
def run (f : σ → α → β × σ) : σ → List α → List β × σ
  | s, [] => ([], s)
  | s, a :: as => ((f s a).1 :: (run f (f s a).2 as).1, (run f (f s a).2 as).2)

lemma run_append (f : σ → α → β × σ) (s : σ) (as as' : List α) :
    run f s (as ++ as')
      = ((run f s as).1 ++ (run f (run f s as).2 as').1, (run f (run f s as).2 as').2) := by
  induction as generalizing s with
  | nil => rfl
  | cons a as ih =>
    rw [List.cons_append, run, run, ih]
    rfl

/-- Two systems that stay related and answer alike at every input do so over every run. -/
theorem run_simulation {f : σ → α → β × σ} {g : τ → α → β × τ} {R : σ → τ → Prop}
    (hstep : ∀ s t a, R s t → (f s a).1 = (g t a).1 ∧ R (f s a).2 (g t a).2) {s : σ} {t : τ}
    (h : R s t) (as : List α) :
    (run f s as).1 = (run g t as).1 ∧ R (run f s as).2 (run g t as).2 := by
  induction as generalizing s t with
  | nil => exact ⟨rfl, h⟩
  | cons a as ih =>
    obtain ⟨hout, hnext⟩ := hstep s t a h
    obtain ⟨houts, hlast⟩ := ih hnext
    refine ⟨?_, hlast⟩
    rw [run, run, hout, houts]

/-- Two systems that are fed a sequence and its image answer alike, if they do so as long as they
stay related; the relation may look at the inputs that are still to come. -/
theorem run_map_simulation {α' : Type*} {f : σ → α → β × σ} {g : τ → α' → β × τ} {φ : α → α'}
    {R : List α → σ → τ → Prop}
    (hstep : ∀ a as s t, R (a :: as) s t →
      (f s a).1 = (g t (φ a)).1 ∧ R as (f s a).2 (g t (φ a)).2)
    {as : List α} {s : σ} {t : τ} (h : R as s t) :
    (run g t (as.map φ)).1 = (run f s as).1 := by
  induction as generalizing s t with
  | nil => rfl
  | cons a as ih =>
    obtain ⟨hout, hnext⟩ := hstep a as s t h
    rw [List.map_cons, run, run, hout, ih hnext]

/-- Two systems that answer alike as long as they stay related, where the relation may look at the
inputs that are still to come. -/
theorem run_simulation_ahead {f : σ → α → β × σ} {g : τ → α → β × τ} {R : List α → σ → τ → Prop}
    (hstep : ∀ a as s t, R (a :: as) s t → (f s a).1 = (g t a).1 ∧ R as (f s a).2 (g t a).2)
    {as : List α} {s : σ} {t : τ} (h : R as s t) :
    (run f s as).1 = (run g t as).1 ∧ R [] (run f s as).2 (run g t as).2 := by
  induction as generalizing s t with
  | nil => exact ⟨rfl, h⟩
  | cons a as ih =>
    obtain ⟨hout, hnext⟩ := hstep a as s t h
    obtain ⟨houts, hlast⟩ := ih hnext
    refine ⟨?_, hlast⟩
    rw [run, run, hout, houts]

end Transducer
