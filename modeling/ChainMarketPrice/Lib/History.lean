import Mathlib.Data.List.Induction

/-!
# Histories

A history is a list of events, the newest last. `Since P Q` is the temporal operator "`P` held
at some event and `Q` at every event since": it says what the past makes of the present
without a state.
-/

namespace History

variable {α : Type*} {P : List α → α → Prop} {Q : α → Prop}

/-- Some event satisfies `P`, which may look at the events before it, and all events after it
satisfy `Q`. -/
def Since (P : List α → α → Prop) (Q : α → Prop) (events : List α) : Prop :=
  ∃ before event after, events = before ++ event :: after ∧ P before event ∧ ∀ e ∈ after, Q e

lemma not_since_nil : ¬ Since P Q [] := by
  rintro ⟨before, event, after, h, -⟩
  simp at h

/-- One more event: it is the one that counts, or the earlier one still does. -/
lemma since_concat (events : List α) (event : α) :
    Since P Q (events ++ [event]) ↔ P events event ∨ Since P Q events ∧ Q event := by
  constructor
  · rintro ⟨before, e, after, h, hP, hQ⟩
    -- the event that counts is the last one, or lies before it
    rcases List.eq_nil_or_concat after with rfl | ⟨after', last, rfl⟩
    · obtain ⟨h1, h2⟩ := List.append_inj' h rfl
      cases h2
      subst h1
      exact .inl hP
    · rw [List.concat_eq_append] at h hQ
      have h' : events ++ [event] = (before ++ e :: after') ++ [last] := by
        rw [h, List.append_assoc, List.cons_append]
      obtain ⟨h1, h2⟩ := List.append_inj' h' rfl
      cases h2
      refine .inr ⟨⟨before, e, after', h1, hP, fun x hx => hQ x ?_⟩, hQ _ ?_⟩
      · exact List.mem_append_left _ hx
      · exact List.mem_append_right _ List.mem_cons_self
  · rintro (hP | ⟨⟨before, e, after, h, hP, hQ⟩, hlast⟩)
    · refine ⟨events, event, [], rfl, hP, ?_⟩
      simp
    · refine ⟨before, e, after ++ [event], by rw [h, List.append_assoc, List.cons_append], hP, ?_⟩
      intro x hx
      rcases List.mem_append.mp hx with hx | hx
      · exact hQ x hx
      · rw [List.mem_singleton.mp hx]
        exact hlast

/-- What stands in a place after a run is what the last event that wrote it has left there, or
what stood there before the run. -/
lemma last_write {σ β : Type*} {step : σ → α → σ} {Writes : α → Prop} (read : σ → β)
    (Leaves : List α → α → β → Prop) (start : σ) (events : List α)
    (hwrites : ∀ (before : List α) (event : α), Writes event →
      Leaves before event (read (step (before.foldl step start) event)))
    (hkeeps : ∀ (before : List α) (event : α), ¬ Writes event →
      read (step (before.foldl step start) event) = read (before.foldl step start)) :
    read (events.foldl step start) = read start ∧ (∀ event ∈ events, ¬ Writes event) ∨
      Since (fun before event => Writes event ∧ Leaves before event (read (events.foldl step start)))
        (fun event => ¬ Writes event) events := by
  induction events using List.reverseRecOn with
  | nil => exact .inl ⟨rfl, fun _ h => absurd h List.not_mem_nil⟩
  | append_singleton events event ih =>
    rw [List.foldl_append, List.foldl_cons, List.foldl_nil, since_concat]
    by_cases hevent : Writes event
    · exact .inr (.inl ⟨hevent, hwrites events event hevent⟩)
    · rw [hkeeps events event hevent]
      rcases ih with ⟨hfresh, hnone⟩ | hsince
      · refine .inl ⟨hfresh, fun e he => ?_⟩
        rcases List.mem_append.mp he with he | he
        · exact hnone e he
        · exact List.mem_singleton.mp he ▸ hevent
      · exact .inr (.inr ⟨hsince, hevent⟩)

/-- What is said about the events of a history may be weakened. -/
lemma Since.imp {P' : List α → α → Prop} {Q' : α → Prop} {events : List α}
    (hP : ∀ before, ∀ e ∈ events, P before e → P' before e) (hQ : ∀ e ∈ events, Q e → Q' e)
    (h : Since P Q events) : Since P' Q' events := by
  obtain ⟨before, event, after, rfl, hevent, hafter⟩ := h
  refine ⟨before, event, after, rfl, hP before event ?_ hevent, fun e he => hQ e ?_ (hafter e he)⟩
  · exact List.mem_append_right _ List.mem_cons_self
  · exact List.mem_append_right _ (List.mem_cons_of_mem _ he)

/-- Two accounts of the last event that counts speak about one event. -/
lemma Since.and {P' : List α → α → Prop} {events : List α}
    (hP : ∀ before e, P before e → ¬ Q e) (hP' : ∀ before e, P' before e → ¬ Q e)
    (h : Since P Q events) (h' : Since P' Q events) :
    Since (fun before e => P before e ∧ P' before e) Q events := by
  induction events using List.reverseRecOn with
  | nil => exact absurd h not_since_nil
  | append_singleton events e ih =>
    rw [since_concat] at h h' ⊢
    rcases h with h | ⟨h, hq⟩
    · rcases h' with h' | ⟨-, hq⟩
      · exact .inl ⟨h, h'⟩
      · exact absurd hq (hP _ _ h)
    · rcases h' with h' | ⟨h', -⟩
      · exact absurd hq (hP' _ _ h')
      · exact .inr ⟨ih h h', hq⟩

/-- Events that neither count nor break what counts change nothing. -/
lemma since_append_of_quiet {events quiet : List α}
    (h : ∀ e ∈ quiet, Q e ∧ ∀ before, ¬ P before e) :
    Since P Q (events ++ quiet) ↔ Since P Q events := by
  induction quiet using List.reverseRecOn with
  | nil => rw [List.append_nil]
  | append_singleton quiet e ih =>
    have hlast := h e (List.mem_append_right _ List.mem_cons_self)
    rw [← List.append_assoc, since_concat, ih fun e' he' => h e' (List.mem_append_left _ he')]
    simp [hlast.1, hlast.2]

end History
