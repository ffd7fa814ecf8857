import Mathlib.Data.List.AList

/-!
# Finite maps

A hash map is modelled by its entries without repeated keys (`AList`). Mathlib has lookup,
insertion and removal; the two bulk operations of a hash map are added here: a change of
every value and the removal of the entries that fail a test.
-/

namespace FiniteMap

universe u v

/-- Finite maps from `α` to `β`. -/
abbrev Map (α : Type u) (β : Type v) := AList fun _ : α => β

variable {α : Type u} {β : Type v}

/-- Applies `f` to every value. -/
def mapValues (f : β → β) (s : Map α β) : Map α β where
  entries := s.entries.map fun e => ⟨e.1, f e.2⟩
  nodupKeys := by
    have hkeys : (s.entries.map fun e => (⟨e.1, f e.2⟩ : Sigma fun _ : α => β)).keys
        = s.entries.keys := by
      simp [List.keys, List.map_map, Function.comp_def]
    rw [List.NodupKeys, hkeys]
    exact s.nodupKeys

/-- Keeps the entries whose value passes the test. -/
def retain (p : β → Bool) (s : Map α β) : Map α β where
  entries := s.entries.filter fun e => p e.2
  nodupKeys := s.nodupKeys.sublist List.filter_sublist

variable [DecidableEq α]

lemma lookup_mapValues (f : β → β) (s : Map α β) (a : α) :
    (mapValues f s).lookup a = (s.lookup a).map f := by
  apply Option.ext
  intro b
  rw [Option.map_eq_some_iff]
  have hmap := List.mem_dlookup_iff (mapValues f s).nodupKeys (a := a) (b := b)
  have hs : ∀ b', s.lookup a = some b' ↔ (⟨a, b'⟩ : Sigma fun _ : α => β) ∈ s.entries :=
    fun _ => List.mem_dlookup_iff s.nodupKeys
  simp only [hs]
  refine hmap.trans ?_
  simp only [mapValues, List.mem_map]
  constructor
  · rintro ⟨⟨a', b'⟩, hmem, heq⟩
    cases heq
    exact ⟨b', hmem, rfl⟩
  · rintro ⟨b', hmem, rfl⟩
    exact ⟨⟨a, b'⟩, hmem, rfl⟩

lemma lookup_retain (p : β → Bool) (s : Map α β) (a : α) :
    (retain p s).lookup a = (s.lookup a).filter p := by
  apply Option.ext
  intro b
  rw [← Option.mem_def, ← Option.mem_def, Option.mem_filter_iff]
  simp only [AList.lookup, List.mem_dlookup_iff (retain p s).nodupKeys,
    List.mem_dlookup_iff s.nodupKeys]
  simp [retain, List.mem_filter]

/-- Lookup after an insertion, at any key. -/
lemma lookup_insert_eq (s : Map α β) (a a' : α) (b : β) :
    (s.insert a b).lookup a' = if a' = a then some b else s.lookup a' := by
  split
  · rename_i h
    rw [h, AList.lookup_insert]
  · rename_i h
    exact AList.lookup_insert_ne h

/-- Lookup after a removal, at any key. -/
lemma lookup_erase_eq (s : Map α β) (a a' : α) :
    (s.erase a).lookup a' = if a' = a then none else s.lookup a' := by
  split
  · rename_i h
    rw [h, AList.lookup_erase]
  · rename_i h
    exact AList.lookup_erase_ne h

end FiniteMap
