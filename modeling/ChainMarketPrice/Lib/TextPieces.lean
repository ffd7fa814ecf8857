import Mathlib.Data.List.Infix
import ChainMarketPrice.Lib.Decimal

/-!
# Searching a text made of literals and numbers

A text whose literals are known and whose numbers are not: a pattern that begins with a quote
cannot begin in a number, and that it neither stands in a literal nor begins at its end is a
test on the literal alone. So the search for a pattern is decided by the literals.
-/

namespace Text

/-- What follows the first occurrence of the pattern. -/
def after (pattern text : List UInt8) : Option (List UInt8) :=
  (find pattern text).map fun pos => text.drop (pos + pattern.length)

/-- The bytes a number begins with. -/
def startsNumber (b : UInt8) : Bool := isDigit b || b == '-'.toUInt8

/-- No occurrence of the pattern begins in the literal when a number follows it: at no place does
the pattern fit whole, or up to the end of the literal with a byte next that begins a number. -/
def clearOf (pattern : List UInt8) : List UInt8 → Bool
  | [] => true
  | b :: rest =>
    !pattern.isPrefixOf (b :: rest) &&
      (!(b :: rest).isPrefixOf pattern ||
        !(pattern.drop (b :: rest).length).head?.any startsNumber) &&
      clearOf pattern rest

/-! ## Skipping and finding -/

lemma after_cons {pattern : List UInt8} {b : UInt8} {rest : List UInt8}
    (h : pattern.isPrefixOf (b :: rest) = false) :
    after pattern (b :: rest) = after pattern rest := by
  unfold after
  rw [find, if_neg (by rw [h]; decide), Option.map_map]
  congr 1
  funext pos
  show (b :: rest).drop (pos + 1 + pattern.length) = rest.drop (pos + pattern.length)
  rw [Nat.add_right_comm, List.drop_succ_cons]

/-- A pattern that begins with a quote does not begin in bytes without one. -/
lemma after_append_of_no_quote {pattern number : List UInt8} (h : quote ∉ number)
    (rest : List UInt8) :
    after (quote :: pattern) (number ++ rest) = after (quote :: pattern) rest := by
  induction number with
  | nil => rfl
  | cons b number ih =>
    rw [List.mem_cons, not_or] at h
    have hfirst : (quote :: pattern).isPrefixOf (b :: (number ++ rest)) = false := by
      rw [List.isPrefixOf_cons_cons, beq_false_of_ne h.1, Bool.false_and]
    rw [List.cons_append, after_cons hfirst, ih h.2]

/-- The pattern is a prefix of a literal and a number only if it is one of the literal, or goes
on with the first byte of the number. -/
lemma not_isPrefixOf_append {pattern literal rest : List UInt8} {x : UInt8}
    (hwhole : pattern.isPrefixOf literal = false)
    (hpart : literal.isPrefixOf pattern = true → (pattern.drop literal.length).head? ≠ some x) :
    pattern.isPrefixOf (literal ++ x :: rest) = false := by
  rw [Bool.eq_false_iff, Ne, List.isPrefixOf_iff_prefix] at hwhole ⊢
  rw [List.isPrefixOf_iff_prefix] at hpart
  intro hpre
  rcases List.prefix_or_prefix_of_prefix hpre (List.prefix_append literal (x :: rest)) with h | h
  · exact hwhole h
  · obtain ⟨tail, rfl⟩ := h
    rw [List.prefix_append_right_inj] at hpre
    cases tail with
    | nil => exact hwhole (by rw [List.append_nil])
    | cons y tail =>
      rw [List.cons_prefix_cons] at hpre
      apply hpart (List.prefix_append _ _)
      rw [List.drop_left, List.head?_cons, hpre.1]

/-- A literal that the pattern is clear of is skipped. -/
lemma after_append_of_clearOf {pattern literal rest : List UInt8} {x : UInt8}
    (h : clearOf pattern literal = true) (hx : startsNumber x = true) :
    after pattern (literal ++ x :: rest) = after pattern (x :: rest) := by
  induction literal with
  | nil => rfl
  | cons b literal ih =>
    rw [clearOf, Bool.and_eq_true, Bool.and_eq_true, Bool.not_eq_true', Bool.or_eq_true,
      Bool.not_eq_true', Bool.not_eq_true'] at h
    obtain ⟨⟨hwhole, hpart⟩, hclear⟩ := h
    have hhere : pattern.isPrefixOf (b :: literal ++ x :: rest) = false := by
      apply not_isPrefixOf_append hwhole
      intro hpre hhead
      rcases hpart with hpart | hpart
      · rw [hpre] at hpart
        cases hpart
      · rw [hhead, Option.any_some, hx] at hpart
        cases hpart
    rw [List.cons_append] at hhere ⊢
    rw [after_cons hhere, ih hclear]

lemma find_append_of_some {pattern literal : List UInt8} {pos : ℕ}
    (h : find pattern literal = some pos) (rest : List UInt8) :
    find pattern (literal ++ rest) = some pos := by
  induction literal generalizing pos with
  | nil =>
    rw [find] at h
    split at h
    · next hempty =>
      rw [List.isEmpty_iff.mp hempty, List.nil_append, ← h]
      cases rest with
      | nil => rfl
      | cons b rest => rfl
    · cases h
  | cons b literal ih =>
    rw [find] at h
    rw [List.cons_append, find]
    by_cases hhere : pattern.isPrefixOf (b :: literal) = true
    · rw [if_pos hhere] at h
      rw [← h, if_pos]
      rw [List.isPrefixOf_iff_prefix] at hhere ⊢
      exact hhere.trans (List.prefix_append (b :: literal) rest)
    · rw [if_neg hhere] at h
      obtain ⟨pos', hpos', hsucc⟩ := Option.map_eq_some_iff.mp h
      obtain ⟨before, back, hliteral, -⟩ := find_eq_some hpos'
      rw [if_neg, ih hpos', Option.map_some, hsucc]
      intro hlong
      -- the pattern is no longer than the literal, so it would stand there already
      apply hhere
      rw [List.isPrefixOf_iff_prefix] at hlong ⊢
      apply List.prefix_of_prefix_length_le hlong (List.prefix_append (b :: literal) rest)
      rw [hliteral]
      simp only [List.length_cons, List.length_append]
      omega

/-- An occurrence in the front of a text is the first one of the text. -/
lemma after_append_of_some {pattern literal back : List UInt8} (h : after pattern literal = some back)
    (rest : List UInt8) : after pattern (literal ++ rest) = some (back ++ rest) := by
  obtain ⟨pos, hpos, rfl⟩ := Option.map_eq_some_iff.mp h
  obtain ⟨before, back, hliteral, hlen⟩ := find_eq_some hpos
  unfold after
  rw [find_append_of_some hpos rest, Option.map_some, List.drop_append_of_le_length]
  rw [hliteral]
  simp only [List.length_append]
  omega

/-! ## Pieces -/

/-- A literal and the number behind it. -/
structure Piece where
  literal : List UInt8
  number : List UInt8

/-- The text of some pieces. -/
def join (pieces : List Piece) (tail : List UInt8) : List UInt8 :=
  pieces.foldr (fun piece rest => piece.literal ++ (piece.number ++ rest)) tail

lemma mem_join {pieces : List Piece} {tail : List UInt8} {b : UInt8} (h : b ∈ join pieces tail) :
    (∃ piece ∈ pieces, b ∈ piece.literal ++ piece.number) ∨ b ∈ tail := by
  induction pieces with
  | nil => exact .inr h
  | cons piece pieces ih =>
    have hsplit : b ∈ piece.literal ++ piece.number ++ join pieces tail := by
      rw [List.append_assoc]
      exact h
    rcases List.mem_append.mp hsplit with hhere | hlater
    · exact .inl ⟨piece, List.mem_cons_self, hhere⟩
    · rcases ih hlater with ⟨piece', hmem, hb⟩ | htail
      · exact .inl ⟨piece', List.mem_cons_of_mem _ hmem, hb⟩
      · exact .inr htail

/-- A number has no quotes and begins like one. -/
structure Piece.IsNumber (piece : Piece) : Prop where
  no_quote : quote ∉ piece.number
  starts : ∃ x rest, piece.number = x :: rest ∧ startsNumber x = true

lemma quote_not_mem_of_allDigits {digits : List UInt8} (h : AllDigits digits) : quote ∉ digits :=
  fun hmem => absurd (h quote hmem) (by decide)

lemma exists_cons_of_allDigits {digits : List UInt8} (h : AllDigits digits) (hne : digits ≠ []) :
    ∃ b rest, digits = b :: rest ∧ isDigit b = true := by
  obtain ⟨b, rest, rfl⟩ := List.exists_cons_of_ne_nil hne
  exact ⟨b, rest, rfl, h b List.mem_cons_self⟩

lemma isNumber_digits (literal : List UInt8) {digits : List UInt8} (h : AllDigits digits)
    (hne : digits ≠ []) : Piece.IsNumber ⟨literal, digits⟩ := by
  obtain ⟨b, rest, hcons, hb⟩ := exists_cons_of_allDigits h hne
  refine ⟨quote_not_mem_of_allDigits h, b, rest, hcons, ?_⟩
  rw [startsNumber, hb, Bool.true_or]

/-- What stands between the first occurrence of a pattern and the next number, and that number:
decided by the literals. -/
def lookup (pattern : List UInt8) : List Piece → Option (List UInt8 × List UInt8 × List Piece)
  | [] => none
  | piece :: pieces =>
    match after pattern piece.literal with
    | some back => some (back, piece.number, pieces)
    | none => if clearOf pattern piece.literal then lookup pattern pieces else none

/-- The pieces behind the number are the last ones. -/
lemma lookup_suffix {pattern : List UInt8} {pieces later : List Piece} {back number : List UInt8}
    (h : lookup pattern pieces = some (back, number, later)) : later <:+ pieces := by
  induction pieces with
  | nil => cases h
  | cons piece pieces ih =>
    rw [lookup] at h
    cases hhere : after pattern piece.literal with
    | some back' =>
      rw [hhere] at h
      cases h
      exact List.suffix_cons _ _
    | none =>
      rw [hhere] at h
      dsimp only at h
      split at h
      · exact (ih h).trans (List.suffix_cons _ _)
      · cases h

lemma after_piece {pattern : List UInt8} {piece : Piece} (hnumber : piece.IsNumber)
    (hclear : clearOf (quote :: pattern) piece.literal = true) (rest : List UInt8) :
    after (quote :: pattern) (piece.literal ++ (piece.number ++ rest))
      = after (quote :: pattern) rest := by
  obtain ⟨x, number, hx, hstarts⟩ := hnumber.starts
  rw [← after_append_of_no_quote hnumber.no_quote rest, hx, List.cons_append]
  exact after_append_of_clearOf hclear hstarts

/-- The search for a pattern in the text of pieces is the search in the literals. -/
theorem after_join {pattern : List UInt8} {pieces : List Piece} (tail : List UInt8)
    (hnumbers : ∀ piece ∈ pieces, piece.IsNumber) {back number : List UInt8}
    {later : List Piece} (h : lookup (quote :: pattern) pieces = some (back, number, later)) :
    after (quote :: pattern) (join pieces tail) = some (back ++ (number ++ join later tail)) := by
  induction pieces with
  | nil => cases h
  | cons piece pieces ih =>
    rw [lookup] at h
    show after (quote :: pattern) (piece.literal ++ (piece.number ++ join pieces tail)) = _
    cases hhere : after (quote :: pattern) piece.literal with
    | some back' =>
      rw [hhere] at h
      cases h
      exact after_append_of_some hhere _
    | none =>
      rw [hhere] at h
      dsimp only at h
      split at h
      · next hclear =>
        rw [after_piece (hnumbers piece List.mem_cons_self) hclear]
        exact ih (fun piece' hmem => hnumbers piece' (List.mem_cons_of_mem _ hmem)) h
      · cases h

/-- The pattern stands in no literal, at the end of none and not in the tail. -/
def absent (pattern : List UInt8) (pieces : List Piece) (tail : List UInt8) : Bool :=
  pieces.all (fun piece => clearOf pattern piece.literal) && (find pattern tail).isNone

theorem find_join_eq_none {pattern : List UInt8} {pieces : List Piece} {tail : List UInt8}
    (hnumbers : ∀ piece ∈ pieces, piece.IsNumber)
    (h : absent (quote :: pattern) pieces tail = true) :
    find (quote :: pattern) (join pieces tail) = none := by
  rw [absent, Bool.and_eq_true, List.all_eq_true, Option.isNone_iff_eq_none] at h
  obtain ⟨hclear, htail⟩ := h
  have hnone : after (quote :: pattern) (join pieces tail) = none := by
    induction pieces with
    | nil => exact Option.map_eq_none_iff.mpr htail
    | cons piece pieces ih =>
      show after (quote :: pattern) (piece.literal ++ (piece.number ++ join pieces tail)) = none
      rw [after_piece (hnumbers piece List.mem_cons_self) (hclear piece List.mem_cons_self)]
      exact ih (fun piece' hmem => hnumbers piece' (List.mem_cons_of_mem _ hmem))
        (fun piece' hmem => hclear piece' (List.mem_cons_of_mem _ hmem))
  exact Option.map_eq_none_iff.mp hnone

end Text
