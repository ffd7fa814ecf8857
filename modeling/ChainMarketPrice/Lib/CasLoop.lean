import Mathlib.Logic.Function.Basic
import Mathlib.Data.List.Basic
import ChainMarketPrice.Lib.Machine

/-!
# Compare-exchange loops

Callers share one atomic word. A call loads the word, computes from its copy either a refusal or
a new word, and installs the new word by a compare-exchange, which may fail although the word is
the expected one; a failed exchange leaves the caller with a fresh copy.

A granted call takes effect at its exchange (`Inv.replayed`), and a refused one was right to
refuse at some word between its start and its return (`Inv.refused`).
-/

namespace CasLoop

variable {κ W C : Type}

/-- Where a caller stands; `since` is the place in the history of the word at the call's start. -/
inductive Caller (W C : Type)
  | idle
  | called (call : C) (since : ℕ)
  | holding (call : C) (since : ℕ) (curr : W)

/-- A refused call, with the words from its start to its return. -/
structure Refusal (κ W C : Type) where
  caller : κ
  call : C
  held : List W

/-- The word and the callers. The other fields only record the run: every word so far, the
granted calls in the order of their exchanges, and the refused ones. -/
structure State (κ W C : Type) where
  word : W
  callers : κ → Caller W C
  history : List W
  granted : List (κ × C)
  refusals : List (Refusal κ W C)

inductive Action (κ C : Type)
  | call (caller : κ) (call : C)
  | load (caller : κ)
  | exchange (caller : κ) (spurious : Bool)

variable [DecidableEq κ]

def State.init (word : W) : State κ W C where
  word := word
  callers := fun _ => .idle
  history := [word]
  granted := []
  refusals := []

def State.setCaller (s : State κ W C) (k : κ) (caller : Caller W C) : State κ W C :=
  { s with callers := Function.update s.callers k caller }

/-- A caller that has its copy of the word: it refuses by itself, or tries the exchange. -/
def exchange [DecidableEq W] (attempt : W → C → Option W) (s : State κ W C) (k : κ) (c : C)
    (since : ℕ) (curr : W) (spurious : Bool) : State κ W C :=
  match attempt curr c with
  | none =>
    { s.setCaller k .idle with
      refusals := s.refusals ++ [{ caller := k, call := c, held := s.history.drop since }] }
  | some next =>
    if s.word = curr ∧ spurious = false then
      { s.setCaller k .idle with
        word := next, history := s.history ++ [next], granted := s.granted ++ [(k, c)] }
    else s.setCaller k (.holding c since s.word)

def step [DecidableEq W] (attempt : W → C → Option W) (s : State κ W C) :
    Action κ C → Option (State κ W C)
  | .call k c =>
    match s.callers k with
    | .idle => some (s.setCaller k (.called c (s.history.length - 1)))
    | _ => none
  | .load k =>
    match s.callers k with
    | .called c since => some (s.setCaller k (.holding c since s.word))
    | _ => none
  | .exchange k spurious =>
    match s.callers k with
    | .holding c since curr => some (exchange attempt s k c since curr spurious)
    | _ => none

/-- The loop as a machine, from a given word. -/
def machine [DecidableEq W] (attempt : W → C → Option W) (word : W) :
    Machine (State κ W C) (Action κ C) where
  init := .init word
  step := step attempt

/-! ## The invariant -/

/-- A caller's place in the history is not after the current word, and its copy was held since. -/
def Caller.Fresh (history : List W) : Caller W C → Prop
  | .idle => True
  | .called _ since => since < history.length
  | .holding _ since curr => curr ∈ history.drop since

structure Inv (attempt : W → C → Option W) (word : W) (s : State κ W C) : Prop where
  replayed : (s.granted.map Prod.snd).foldlM attempt word = some s.word
  current : s.history.getLast? = some s.word
  fresh : ∀ k, (s.callers k).Fresh s.history
  refused : ∀ r ∈ s.refusals, ∃ w ∈ r.held, attempt w r.call = none

variable {attempt : W → C → Option W} {word : W} {s s' : State κ W C}

omit [DecidableEq κ] in
lemma mem_drop_of_getLast? {history : List W} {w : W} (h : history.getLast? = some w) {since : ℕ}
    (hsince : since < history.length) : w ∈ history.drop since := by
  have hlast : (history.drop since).getLast? = some w := by
    rw [List.getLast?_drop, if_neg (by omega), h]
  exact List.mem_of_getLast? hlast

omit [DecidableEq κ] in
lemma Inv.init : Inv attempt word (.init word : State κ W C) where
  replayed := rfl
  current := rfl
  fresh := fun _ => trivial
  refused := fun _ hr => absurd hr List.not_mem_nil

/-- Only one caller moves at a step. -/
lemma fresh_setCaller {caller : Caller W C} {k : κ} (h : ∀ k, (s.callers k).Fresh s.history)
    (hk : caller.Fresh s.history) : ∀ k', ((s.setCaller k caller).callers k').Fresh s.history := by
  intro k'
  show (Function.update s.callers k caller k').Fresh s.history
  rw [Function.update_apply]
  split
  · exact hk
  · exact h k'

/-- A longer history keeps what was held. -/
lemma Caller.Fresh.append {history : List W} {caller : Caller W C} (h : caller.Fresh history)
    (w : W) : caller.Fresh (history ++ [w]) := by
  cases caller with
  | idle => trivial
  | called c since =>
    have hlt : since < history.length := h
    show since < (history ++ [w]).length
    rw [List.length_append]
    omega
  | holding c since curr =>
    show curr ∈ (history ++ [w]).drop since
    rw [List.drop_append]
    exact List.mem_append_left _ h

lemma Inv.setCaller (h : Inv attempt word s) {k : κ} {caller : Caller W C}
    (hk : caller.Fresh s.history) : Inv attempt word (s.setCaller k caller) where
  replayed := h.replayed
  current := h.current
  fresh := fresh_setCaller h.fresh hk
  refused := h.refused

lemma Inv.exchange [DecidableEq W] (h : Inv attempt word s) {k : κ} {c : C} {since : ℕ} {curr : W}
    (hcurr : curr ∈ s.history.drop since) (spurious : Bool) :
    Inv attempt word (exchange attempt s k c since curr spurious) := by
  unfold CasLoop.exchange
  cases hattempt : attempt curr c with
  | none =>
    refine ⟨h.replayed, h.current, fresh_setCaller h.fresh trivial, ?_⟩
    intro r hr
    rcases List.mem_append.mp hr with hr | hr
    · exact h.refused r hr
    · rw [List.mem_singleton.mp hr]
      exact ⟨curr, hcurr, hattempt⟩
  | some next =>
    dsimp only
    split
    case isTrue hsame =>
      -- the copy is the word: the call takes effect here
      refine ⟨?_, List.getLast?_concat .., ?_, h.refused⟩
      · show ((s.granted ++ [(k, c)]).map Prod.snd).foldlM attempt word = some next
        rw [List.map_append, List.foldlM_append, h.replayed, hsame.1]
        simp [hattempt]
      · have hidle : (Caller.idle : Caller W C).Fresh s.history := trivial
        intro k'
        exact (fresh_setCaller h.fresh hidle k').append next
    case isFalse =>
      apply h.setCaller
      have hsince : since < s.history.length := by
        by_contra hle
        rw [List.drop_eq_nil_of_le (Nat.le_of_not_lt hle)] at hcurr
        exact absurd hcurr List.not_mem_nil
      exact mem_drop_of_getLast? h.current hsince

/-- What a step can be. -/
lemma step_cases [DecidableEq W] {a : Action κ C} (h : step attempt s a = some s') :
    (∃ k c, s' = s.setCaller k (.called c (s.history.length - 1))) ∨
    (∃ k c since, s.callers k = .called c since ∧ s' = s.setCaller k (.holding c since s.word)) ∨
    (∃ k c since curr spurious, s.callers k = .holding c since curr ∧
      s' = exchange attempt s k c since curr spurious) := by
  cases a with
  | call k c =>
    cases hk : s.callers k with
    | idle =>
      simp only [step, hk, Option.some.injEq] at h
      exact .inl ⟨k, c, h.symm⟩
    | called c since => simp only [step, hk, reduceCtorEq] at h
    | holding c since curr => simp only [step, hk, reduceCtorEq] at h
  | load k =>
    cases hk : s.callers k with
    | idle => simp only [step, hk, reduceCtorEq] at h
    | called c since =>
      simp only [step, hk, Option.some.injEq] at h
      exact .inr (.inl ⟨k, c, since, hk, h.symm⟩)
    | holding c since curr => simp only [step, hk, reduceCtorEq] at h
  | exchange k spurious =>
    cases hk : s.callers k with
    | idle => simp only [step, hk, reduceCtorEq] at h
    | called c since => simp only [step, hk, reduceCtorEq] at h
    | holding c since curr =>
      simp only [step, hk, Option.some.injEq] at h
      exact .inr (.inr ⟨k, c, since, curr, spurious, hk, h.symm⟩)

/-- Every step of every caller keeps the invariant. -/
lemma Inv.step [DecidableEq W] (h : Inv attempt word s) {a : Action κ C}
    (hstep : step attempt s a = some s') : Inv attempt word s' := by
  rcases step_cases hstep with ⟨k, c, rfl⟩ | ⟨k, c, since, hk, rfl⟩ |
    ⟨k, c, since, curr, spurious, hk, rfl⟩
  · apply h.setCaller
    have hne : s.history ≠ [] := by
      intro hnil
      have hcurrent := h.current
      rw [hnil] at hcurrent
      cases hcurrent
    have hpos := List.length_pos_iff.mpr hne
    show s.history.length - 1 < s.history.length
    omega
  · have hfresh := h.fresh k
    rw [hk] at hfresh
    exact h.setCaller (mem_drop_of_getLast? h.current hfresh)
  · have hfresh := h.fresh k
    rw [hk] at hfresh
    exact h.exchange hfresh spurious

/-- The invariant holds in every state of every interleaving. -/
theorem inv_of_reachable [DecidableEq W] (h : (machine attempt word).Reachable s) :
    Inv attempt word s :=
  h.invariant .init fun _ _ _ hinv _ hstep => hinv.step hstep

omit [DecidableEq κ] in
/-- A property of the first word that no granted call breaks holds of the word. -/
lemma Inv.word_of_attempt {P : W → Prop} (h : Inv attempt word s) (hword : P word)
    (hattempt : ∀ w c w', P w → attempt w c = some w' → P w') : P s.word := by
  have hreplay : ∀ (calls : List C) (w w' : W), P w → calls.foldlM attempt w = some w' → P w' := by
    intro calls
    induction calls with
    | nil =>
      intro w w' hw hfold
      cases hfold
      exact hw
    | cons c calls ih =>
      intro w w' hw hfold
      rw [List.foldlM_cons] at hfold
      obtain ⟨next, hnext, hrest⟩ := Option.bind_eq_some_iff.mp hfold
      exact ih next w' (hattempt w c next hw hnext) hrest
  exact hreplay _ _ _ hword h.replayed

end CasLoop
