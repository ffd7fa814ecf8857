import ChainMarketPrice.Distribution.UnsubscribeCommand

/-!
# Subscribe commands with blanks around their colons

The scanner knows two patterns for a key, with and without a blank in front of the colon, and
goes on behind the shorter one whichever it found. Behind a key with such a blank it meets the
colon and reads no number: the command is dropped, or its flags are.
-/

namespace ChainMarketPrice.Distribution
namespace WebSocket

open Bytes Text

/-! ## The texts -/

/-- The numeric keys of a subscribe command. -/
inductive NumericKey
  | venue
  | marketId
  | streamType
  | flags
deriving Repr, DecidableEq

def NumericKey.name : NumericKey → String
  | venue => "venue"
  | marketId => "market_id"
  | streamType => "stream_type"
  | flags => "flags"

/-- The blanks around a colon. -/
inductive ColonSpelling
  | none
  | after
  | before
  | around
deriving Repr, DecidableEq

def ColonSpelling.text : ColonSpelling → String
  | none => ":"
  | after => ": "
  | before => " :"
  | around => " : "

def ColonSpelling.BlankBefore : ColonSpelling → Bool
  | none | after => false
  | before | around => true

/-- A colon and the number behind it. -/
structure SpelledNumber where
  spelling : ColonSpelling
  number : Numeral (2 ^ 64)

/-- What stands in front of the first member. -/
def actionHead : String := "\x7b\"action\":\"subscribe\","

/-- A key and its colon, behind the given text. -/
def memberLiteral (head : String) (key : NumericKey) (spelling : ColonSpelling) : List UInt8 :=
  ofString (head ++ "\"" ++ key.name ++ "\"" ++ spelling.text)

variable (fields : NumericKey → SpelledNumber)

def memberPiece (head : String) (key : NumericKey) : Piece :=
  ⟨memberLiteral head key (fields key).spelling, (fields key).number.digits⟩

/-- The members in the given order; a comma stands in front of all but the first. -/
def spelledPieces (head : String) : List NumericKey → List Piece
  | [] => []
  | key :: keys => memberPiece fields head key :: spelledPieces "," keys

/-- The command with its numbers in the given order. -/
def spelledText (order : List NumericKey) : List UInt8 :=
  join (spelledPieces fields actionHead order) (ofString "\x7d")

/-! ## The literals -/

/-- No occurrence of the pattern begins in the literal, so it is skipped. -/
def Skips (pattern literal : List UInt8) : Bool :=
  (Text.after pattern literal).isNone && clearOf pattern literal

/-- The two texts in front of a member. -/
def IsHead (head : String) : Prop := head = actionHead ∨ head = ","

lemma skips_other {head : String} (hhead : IsHead head) {key other : NumericKey}
    (h : other ≠ key) (spelling : ColonSpelling) :
    Skips (pattern1 key.name) (memberLiteral head other spelling) = true ∧
      Skips (pattern2 key.name) (memberLiteral head other spelling) = true := by
  rcases hhead with rfl | rfl
  all_goals
    cases key <;> cases other <;> first
      | exact absurd rfl h
      | cases spelling <;> decide

/-- What stands between the colon and the number. -/
def ColonSpelling.blanksAfter : ColonSpelling → List UInt8
  | none | before => []
  | after | around => [0x20]

lemma isSpace1_blanksAfter (spelling : ColonSpelling) :
    ∀ b ∈ spelling.blanksAfter, isSpace1 b = true := by
  apply List.all_eq_true.mp
  cases spelling <;> rfl

lemma after_own {head : String} (hhead : IsHead head) (key : NumericKey)
    {spelling : ColonSpelling} (h : spelling.BlankBefore = false) :
    Text.after (pattern1 key.name) (memberLiteral head key spelling) = some spelling.blanksAfter := by
  rcases hhead with rfl | rfl
  all_goals
    cases spelling <;> first
      | exact absurd h (by decide)
      | cases key <;> decide

/-- With a blank before the colon only the second pattern is found. -/
lemma after_own_blank {head : String} (hhead : IsHead head) (key : NumericKey)
    {spelling : ColonSpelling} (h : spelling.BlankBefore = true) :
    clearOf (pattern1 key.name) (memberLiteral head key spelling) = true ∧
      Text.after (pattern2 key.name) (memberLiteral head key spelling)
        = some spelling.blanksAfter := by
  rcases hhead with rfl | rfl
  all_goals
    cases spelling <;> first
      | exact absurd h (by decide)
      | cases key <;> decide

/-- The patterns of the two commands that are tested first. -/
def earlierPatterns : List (List UInt8) :=
  ["ping", "pong"].flatMap fun action =>
    [ofString ("\"action\":\"" ++ action ++ "\""), ofString ("\"action\": \"" ++ action ++ "\"")]

lemma clearOf_earlier {head : String} (hhead : IsHead head) (key : NumericKey)
    (spelling : ColonSpelling) :
    earlierPatterns.all (clearOf · (memberLiteral head key spelling)) = true := by
  rcases hhead with rfl | rfl
  all_goals cases key <;> cases spelling <;> decide

lemma contains_actionHead (key : NumericKey) (spelling : ColonSpelling) :
    contains (memberLiteral actionHead key spelling) (ofString "\"action\":\"subscribe\"")
      = true := by
  cases key <;> cases spelling <;> decide

lemma ascii_memberLiteral {head : String} (hhead : IsHead head) (key : NumericKey)
    (spelling : ColonSpelling) : (memberLiteral head key spelling).all (· < 0x80) = true := by
  rcases hhead with rfl | rfl
  all_goals cases key <;> cases spelling <;> decide

/-! ## Searching the text -/

variable {fields}

lemma forall_spelledPieces {P : Piece → Prop}
    (h : ∀ head, IsHead head → ∀ key, P (memberPiece fields head key)) {head : String}
    (hhead : IsHead head) (order : List NumericKey) :
    ∀ piece ∈ spelledPieces fields head order, P piece := by
  induction order generalizing head with
  | nil =>
    intro piece hmem
    cases hmem
  | cons key keys ih =>
    rw [spelledPieces, List.forall_mem_cons]
    exact ⟨h head hhead key, ih (.inr rfl)⟩

lemma isNumber_spelledPieces (order : List NumericKey) :
    ∀ piece ∈ spelledPieces fields actionHead order, piece.IsNumber :=
  forall_spelledPieces (fun _ _ key =>
    isNumber_digits _ (fields key).number.allDigits (fields key).number.ne_nil) (.inl rfl) order

/-- The search for a pattern of a key stops at its member. -/
lemma lookup_spelledPieces {pattern back : List UInt8} {key : NumericKey}
    (hother : ∀ head, IsHead head → ∀ other, other ≠ key →
      Skips pattern (memberLiteral head other (fields other).spelling) = true)
    (hown : ∀ head, IsHead head →
      Text.after pattern (memberLiteral head key (fields key).spelling) = some back)
    {order : List NumericKey} (hmem : key ∈ order) {head : String} (hhead : IsHead head) :
    ∃ later, lookup pattern (spelledPieces fields head order)
      = some (back, (fields key).number.digits, spelledPieces fields "," later) := by
  induction order generalizing head with
  | nil => cases hmem
  | cons first order ih =>
    rw [spelledPieces, lookup]
    by_cases hfirst : first = key
    · subst hfirst
      have hafter : Text.after pattern (memberPiece fields head first).literal = some back :=
        hown head hhead
      rw [hafter]
      exact ⟨order, rfl⟩
    · have hskips := hother head hhead first hfirst
      rw [Skips, Bool.and_eq_true, Option.isNone_iff_eq_none] at hskips
      have hafter : Text.after pattern (memberPiece fields head first).literal = Option.none :=
        hskips.1
      have hclear : clearOf pattern (memberPiece fields head first).literal = true := hskips.2
      rw [hafter]
      dsimp only
      rw [if_pos hclear]
      exact ih ((List.mem_cons.mp hmem).resolve_left (Ne.symm hfirst)) (.inr rfl)

/-- No digit follows a number. -/
lemma head_later (later : List NumericKey) :
    ∀ b ∈ (join (spelledPieces fields "," later) (ofString "\x7d")).head?, isDigit b = false := by
  intro b hb
  cases later with
  | nil =>
    cases hb
    decide
  | cons key keys =>
    cases hb
    decide

/-! ## What the scanner reads -/

/-- A number behind a colon without a blank in front is read. -/
lemma extract_of_no_blank {order : List NumericKey} {key : NumericKey} (hmem : key ∈ order)
    (h : (fields key).spelling.BlankBefore = false) :
    extractJsonU64 (spelledText fields order) key.name
      = some (UInt64.ofNat (fields key).number.value) := by
  obtain ⟨later, hlookup⟩ := lookup_spelledPieces
    (fun head hhead other hne => (skips_other hhead hne (fields other).spelling).1)
    (fun head hhead => after_own hhead key h) hmem (.inl rfl)
  have hafter : Text.after (pattern1 key.name) (spelledText fields order) = _ :=
    after_join (ofString "\x7d") (isNumber_spelledPieces order) hlookup
  have hcarries := carries_of_after_blanks hafter (isSpace1_blanksAfter _)
    (fields key).number.ne_nil (fields key).number.allDigits (head_later later)
  exact extractJsonU64_of_numeral hcarries le_rfl

lemma find_pattern1_eq_none {order : List NumericKey} {key : NumericKey}
    (h : (fields key).spelling.BlankBefore = true) :
    find (pattern1 key.name) (spelledText fields order) = Option.none := by
  have hclear : ∀ piece ∈ spelledPieces fields actionHead order,
      clearOf (pattern1 key.name) piece.literal = true := by
    refine forall_spelledPieces (P := fun piece =>
      clearOf (pattern1 key.name) piece.literal = true) ?_ (.inl rfl) order
    intro head hhead other
    show clearOf (pattern1 key.name) (memberLiteral head other (fields other).spelling) = true
    by_cases hsame : other = key
    · rw [hsame]
      exact (after_own_blank hhead key h).1
    · have hskips := (skips_other hhead hsame (fields other).spelling).1
      rw [Skips, Bool.and_eq_true] at hskips
      exact hskips.2
  have htail : (find (pattern1 key.name) (ofString "\x7d")).isNone = true := by
    cases key <;> decide
  apply find_join_eq_none (isNumber_spelledPieces order)
  show ((spelledPieces fields actionHead order).all _ && _) = true
  rw [Bool.and_eq_true, List.all_eq_true]
  exact ⟨hclear, htail⟩

/-- Behind a colon with a blank in front the scanner stands at the colon. -/
lemma extract_of_blank {order : List NumericKey} {key : NumericKey} (hmem : key ∈ order)
    (h : (fields key).spelling.BlankBefore = true) :
    extractJsonU64 (spelledText fields order) key.name = Option.none := by
  obtain ⟨later, hlookup⟩ := lookup_spelledPieces
    (fun head hhead other hne => (skips_other hhead hne (fields other).spelling).2)
    (fun head hhead => (after_own_blank hhead key h).2) hmem (.inl rfl)
  have hafter : Text.after (pattern2 key.name) (spelledText fields order) = _ :=
    after_join (ofString "\x7d") (isNumber_spelledPieces order) hlookup
  obtain ⟨pos, hpos, -⟩ := Option.map_eq_some_iff.mp hafter
  obtain ⟨before, back, htext, hlen⟩ := find_eq_some hpos
  -- the pattern that was found is longer by the blank, so its colon is left over
  have hcolon : (pattern2 key.name).drop (pattern1 key.name).length = [0x3A] := by
    cases key <;> decide
  have hshorter : (pattern1 key.name).length ≤ (pattern2 key.name).length := by
    cases key <;> decide
  have hrest : (spelledText fields order).drop (pos + (pattern1 key.name).length)
      = 0x3A :: back := by
    rw [htext, ← hlen, List.drop_length_add_append, List.drop_append_of_le_length hshorter, hcolon]
    rfl
  unfold extractJsonU64
  rw [find_pattern1_eq_none h, hpos, Option.none_or]
  dsimp only
  rw [hrest, trimStart_ascii (by decide) (by decide)]
  rfl

/-! ## The command -/

/-- The text is a subscribe command and nothing that is tested before. -/
structure IsSubscribe (text : List UInt8) : Prop where
  utf8 : isUtf8 text = true
  ping : hasAction text "ping" = false
  pong : hasAction text "pong" = false
  subscribe : hasAction text "subscribe" = true

lemma not_contains_earlier (order : List NumericKey) {pattern : List UInt8}
    (h : pattern ∈ earlierPatterns) : contains (spelledText fields order) pattern = false := by
  have hpatterns : earlierPatterns.all
      (fun pattern => pattern.head? == some quote && (find pattern (ofString "\x7d")).isNone)
        = true := by
    decide
  have hpattern := List.all_eq_true.mp hpatterns pattern h
  rw [Bool.and_eq_true, beq_iff_eq] at hpattern
  obtain ⟨hquote, htail⟩ := hpattern
  have hclear : ∀ piece ∈ spelledPieces fields actionHead order,
      clearOf pattern piece.literal = true := by
    refine forall_spelledPieces (P := fun piece => clearOf pattern piece.literal = true) ?_
      (.inl rfl) order
    intro head hhead key
    exact List.all_eq_true.mp (clearOf_earlier hhead key (fields key).spelling) pattern h
  obtain ⟨pattern, rfl⟩ := List.head?_eq_some_iff.mp hquote
  have habsent : absent (quote :: pattern) (spelledPieces fields actionHead order)
      (ofString "\x7d") = true := by
    rw [absent, Bool.and_eq_true, List.all_eq_true]
    exact ⟨hclear, htail⟩
  unfold contains spelledText
  rw [find_join_eq_none (isNumber_spelledPieces order) habsent]
  rfl

lemma ascii_spelledText (order : List NumericKey) : ∀ b ∈ spelledText fields order, b < 0x80 := by
  have hpieces : ∀ piece ∈ spelledPieces fields actionHead order,
      ∀ b ∈ piece.literal ++ piece.number, b < 0x80 := by
    refine forall_spelledPieces (P := fun piece => ∀ b ∈ piece.literal ++ piece.number, b < 0x80)
      ?_ (.inl rfl) order
    intro head hhead key b hb
    rcases List.mem_append.mp hb with hliteral | hnumber
    · have hall := ascii_memberLiteral hhead key (fields key).spelling
      exact of_decide_eq_true (List.all_eq_true.mp hall b hliteral)
    · exact lt_of_isDigit b ((fields key).number.allDigits b hnumber)
  intro b hb
  rcases mem_join hb with ⟨piece, hmem, hpiece⟩ | htail
  · exact hpieces piece hmem b hpiece
  · rw [List.mem_singleton.mp htail]
    decide

lemma isSubscribe_spelledText {order : List NumericKey} (hne : order ≠ []) :
    IsSubscribe (spelledText fields order) where
  utf8 := isUtf8_of_ascii (ascii_spelledText order)
  ping := by
    unfold hasAction
    rw [not_contains_earlier order List.mem_cons_self,
      not_contains_earlier order (List.mem_cons_of_mem _ List.mem_cons_self)]
    rfl
  pong := by
    unfold hasAction
    rw [not_contains_earlier order (by simp [earlierPatterns]),
      not_contains_earlier order (by simp [earlierPatterns])]
    rfl
  subscribe := by
    obtain ⟨key, keys, rfl⟩ := List.exists_cons_of_ne_nil hne
    obtain ⟨pos, hpos⟩ :=
      Option.isSome_iff_exists.mp (contains_actionHead key (fields key).spelling)
    have hfind : find (ofString "\"action\":\"subscribe\"") (spelledText fields (key :: keys))
        = some pos := find_append_of_some hpos _
    have hcontains : contains (spelledText fields (key :: keys))
        (ofString "\"action\":\"subscribe\"") = true := by
      rw [contains, hfind]
      rfl
    unfold hasAction
    exact (congrArg (· || _) hcontains).trans (Bool.true_or _)

/-- The topic that a command names, with the given flags. -/
def spelledTopic (fields : NumericKey → SpelledNumber) (flags : UInt64) : TopicKey :=
  .new (UInt64.ofNat (fields .venue).number.value).toUInt8
    (UInt64.ofNat (fields .marketId).number.value).toUInt32
    (UInt64.ofNat (fields .streamType).number.value).toUInt8 flags.toUInt32

/-- What the scanner makes of a key. -/
lemma extract_spelledText (fields : NumericKey → SpelledNumber) {order : List NumericKey}
    (key : NumericKey) (hmem : key ∈ order) :
    extractJsonU64 (spelledText fields order) key.name
      = if (fields key).spelling.BlankBefore then Option.none
        else some (UInt64.ofNat (fields key).number.value) := by
  split
  · next h => exact extract_of_blank hmem h
  · next h => exact extract_of_no_blank hmem (Bool.eq_false_of_not_eq_true h)

/-- A command with a blank in front of a colon loses its flags, or is no command at all. -/
lemma parse_spelledText {order : List NumericKey} (h : ∀ key, key ∈ order) :
    parseClientCommand (spelledText fields order) =
      if (fields .venue).spelling.BlankBefore || (fields .marketId).spelling.BlankBefore
          || (fields .streamType).spelling.BlankBefore then Option.none
      else some (.subscribe (spelledTopic fields
        (if (fields .flags).spelling.BlankBefore then 0
          else UInt64.ofNat (fields .flags).number.value))) := by
  have hsubscribe : IsSubscribe (spelledText fields order) :=
    isSubscribe_spelledText (List.ne_nil_of_mem (h .venue))
  have hvenue : extractJsonU64 (spelledText fields order) "venue" = _ :=
    extract_spelledText fields .venue (h .venue)
  have hmarketId : extractJsonU64 (spelledText fields order) "market_id" = _ :=
    extract_spelledText fields .marketId (h .marketId)
  have hstreamType : extractJsonU64 (spelledText fields order) "stream_type" = _ :=
    extract_spelledText fields .streamType (h .streamType)
  have hflags : extractJsonU64 (spelledText fields order) "flags" = _ :=
    extract_spelledText fields .flags (h .flags)
  unfold parseClientCommand
  rw [hsubscribe.utf8, hsubscribe.ping, hsubscribe.pong, hsubscribe.subscribe, hvenue, hmarketId,
    hstreamType, hflags]
  -- the first number that is not read ends the command
  cases (fields .venue).spelling.BlankBefore with
  | true => rfl
  | false =>
    cases (fields .marketId).spelling.BlankBefore with
    | true => rfl
    | false =>
      cases (fields .streamType).spelling.BlankBefore with
      | true => rfl
      | false =>
        cases (fields .flags).spelling.BlankBefore with
        | true => rfl
        | false => rfl

lemma spelledTopic_zero_iff (fields : NumericKey → SpelledNumber) (flags : ℕ) :
    spelledTopic fields 0 = spelledTopic fields (UInt64.ofNat flags) ↔ flags % 2 ^ 24 = 0 := by
  have hzero : (0 : UInt64).toUInt32.toNat % 2 ^ 24 = 0 := rfl
  unfold spelledTopic
  rw [TopicKey.new_eq_iff, toNat_market flags, hzero]
  simp only [true_and]
  exact eq_comm

/-- The numeric keys in the order of the source's own commands. -/
def NumericKey.inOrder : List NumericKey := [venue, marketId, streamType, flags]

lemma NumericKey.mem_inOrder (key : NumericKey) : key ∈ inOrder := by
  cases key <;> decide

/-- A subscribe command names its topic exactly when no colon has a blank in front, up to flags
of which the topic keeps nothing. -/
theorem spelled_subscribe_iff (fields : NumericKey → SpelledNumber) {order : List NumericKey}
    (horder : order.Perm NumericKey.inOrder) :
    parseClientCommand (spelledText fields order)
        = some (.subscribe (spelledTopic fields (UInt64.ofNat (fields .flags).number.value))) ↔
      (fields .venue).spelling.BlankBefore = false ∧
        (fields .marketId).spelling.BlankBefore = false ∧
        (fields .streamType).spelling.BlankBefore = false ∧
        ((fields .flags).spelling.BlankBefore = false ∨
          (fields .flags).number.value % 2 ^ 24 = 0) := by
  have hmem (key : NumericKey) : key ∈ order := horder.mem_iff.mpr key.mem_inOrder
  rw [parse_spelledText hmem, ← spelledTopic_zero_iff fields]
  cases (fields .venue).spelling.BlankBefore with
  | true => simp
  | false =>
    cases (fields .marketId).spelling.BlankBefore with
    | true => simp
    | false =>
      cases (fields .streamType).spelling.BlankBefore with
      | true => simp
      | false =>
        cases (fields .flags).spelling.BlankBefore with
        | true => simp
        | false => simp

/-- Whether digits spell a number of 64 bits. -/
def spellsU64 (digits : List UInt8) : Bool :=
  !digits.isEmpty && digits.all isDigit && decide (decimalValue digits < 2 ^ 64)

def numeral (digits : List UInt8) (h : spellsU64 digits = true) : Numeral (2 ^ 64) where
  digits := digits
  ne_nil := by
    rintro rfl
    exact absurd h Bool.false_ne_true
  allDigits := by
    simp only [spellsU64, Bool.and_eq_true] at h
    exact List.all_eq_true.mp h.1.2
  lt := by
    simp only [spellsU64, Bool.and_eq_true] at h
    exact of_decide_eq_true h.2

/-- Venue 1, market 42, stream 1 and flags 1, with the colon of one key spelled as given. -/
def spelledAt (here : NumericKey) (spelling : ColonSpelling) (key : NumericKey) :
    SpelledNumber where
  spelling := if key = here then spelling else .none
  number :=
    if key = .marketId then numeral (ofString "42") rfl
    else numeral (ofString "1") rfl

theorem spelled_subscribe_blank_after :
    parseClientCommand (spelledText (spelledAt .flags .after) NumericKey.inOrder)
      = some (.subscribe (.new 1 42 1 1)) :=
  (spelled_subscribe_iff (spelledAt .flags .after) (List.Perm.refl _)).mpr
    ⟨rfl, rfl, rfl, .inl rfl⟩

/-- With a blank in front of its colon the flags are lost: another topic is subscribed. -/
theorem blank_before_colon_loses_flags :
    ¬ ∀ (fields : NumericKey → SpelledNumber),
      parseClientCommand (spelledText fields NumericKey.inOrder)
        = some (.subscribe (spelledTopic fields (UInt64.ofNat (fields .flags).number.value))) := by
  intro h
  have hlost : parseClientCommand (spelledText (spelledAt .flags .before) NumericKey.inOrder)
      = some (.subscribe (.new 1 42 1 0)) := parse_spelledText NumericKey.mem_inOrder
  have hflags := hlost.symm.trans (h (spelledAt .flags .before))
  revert hflags
  decide

end WebSocket
end ChainMarketPrice.Distribution
