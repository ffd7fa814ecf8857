import ChainMarketPrice.Lib.Decimal
import ChainMarketPrice.CefiIngest.JsonTheorems

/-!
# Fields of a flat object

A key in quotes with a colon behind it stands in a flat object only where a member begins: of the
quotes of the text, the closing ones have no key byte behind them, and the string that an
opening one begins has a colon behind it only if it is a key. So the scan finds the member of its
key, in any order of the members, and reads its value.
-/

namespace ChainMarketPrice.CefiIngest

open Text (AllDigits colon decimalValue isDigit keyPattern quote)

/-! ## The scan over a text -/

variable {src : List UInt8}

/-- A byte at which the key does not begin is passed. -/
lemma afterKey_cons {key : List UInt8} {b : UInt8} (hne : key ≠ []) (h : ¬ key <+: b :: src) :
    afterKey (b :: src) key = afterKey src key := by
  apply Option.ext
  intro rest
  rw [afterKey_eq_some_iff hne, afterKey_eq_some_iff hne]
  constructor
  · rintro ⟨before, hsrc, hat, hfirst⟩
    cases before with
    | nil =>
      rw [List.nil_append] at hsrc
      exact absurd (hsrc ▸ List.prefix_append key rest) h
    | cons b' before =>
      rw [List.cons_append, List.cons.injEq] at hsrc
      refine ⟨before, hsrc.2, hat, ?_⟩
      intro j hj
      exact hfirst (j + 1) (Nat.succ_lt_succ hj)
  · rintro ⟨before, rfl, hat, hfirst⟩
    refine ⟨b :: before, rfl, hat, ?_⟩
    intro j hj
    cases j with
    | zero => exact h
    | succ j => exact hfirst j (Nat.lt_of_succ_lt_succ hj)

lemma afterKey_append_self {key : List UInt8} (hne : key ≠ []) (rest : List UInt8) :
    afterKey (key ++ rest) key = some rest := by
  rw [afterKey_eq_some_iff hne]
  exact ⟨[], rfl, List.prefix_append key rest, fun j hj => absurd hj (Nat.not_lt_zero j)⟩

lemma afterKey_nil {key : List UInt8} (hne : key ≠ []) : afterKey [] key = none := by
  have hpos := List.length_pos_of_ne_nil hne
  unfold afterKey findSubsequence
  dsimp only
  rw [if_pos (.inr hpos)]
  rfl

/-! ## Keys -/

/-- Letters, digits and the underscore. -/
def isKeyByte (b : UInt8) : Bool :=
  ('A'.toUInt8 ≤ b && b ≤ 'Z'.toUInt8) || ('a'.toUInt8 ≤ b && b ≤ 'z'.toUInt8) || isDigit b
    || b == '_'.toUInt8

lemma keyPattern_ne_nil (k : List UInt8) : keyPattern k ≠ [] := List.cons_ne_nil _ _

lemma quote_not_mem {k : List UInt8} (h : ∀ b ∈ k, isKeyByte b = true) : quote ∉ k :=
  fun hmem => absurd (h quote hmem) (by decide)

/-- Bytes without quotes are passed. -/
lemma afterKey_append_of_no_quote {xs : List UInt8} (h : quote ∉ xs) (k rest : List UInt8) :
    afterKey (xs ++ rest) (keyPattern k) = afterKey rest (keyPattern k) := by
  induction xs with
  | nil => rfl
  | cons b xs ih =>
    rw [List.mem_cons, not_or] at h
    have hhere : ¬ keyPattern k <+: b :: (xs ++ rest) := by
      intro hpre
      exact h.1 (List.cons_prefix_cons.mp hpre).1
    rw [List.cons_append, afterKey_cons (keyPattern_ne_nil k) hhere, ih h.2]

/-- Two texts that are cut at their first quotes. -/
lemma prefix_at_quote {k s u v : List UInt8} (hk : quote ∉ k) (hs : quote ∉ s) :
    k ++ quote :: u <+: s ++ quote :: v ↔ k = s ∧ u <+: v := by
  -- the first quote of either text ends its key
  induction k generalizing s with
  | nil =>
    cases s with
    | nil =>
      rw [List.nil_append, List.nil_append, List.cons_prefix_cons]
      exact ⟨fun h => ⟨rfl, h.2⟩, fun h => ⟨rfl, h.2⟩⟩
    | cons b s =>
      rw [List.mem_cons, not_or] at hs
      constructor
      · intro h
        exact absurd (List.cons_prefix_cons.mp h).1 hs.1
      · rintro ⟨hnil, -⟩
        cases hnil
  | cons c k ih =>
    rw [List.mem_cons, not_or] at hk
    cases s with
    | nil =>
      constructor
      · intro h
        exact absurd (List.cons_prefix_cons.mp h).1.symm hk.1
      · rintro ⟨hnil, -⟩
        cases hnil
    | cons b s =>
      rw [List.mem_cons, not_or] at hs
      rw [List.cons_append, List.cons_append, List.cons_prefix_cons, ih hk.2 hs.2, List.cons.injEq,
        and_assoc]

/-- At an opening quote the pattern stands only if the string is the key and a colon follows. -/
lemma keyPattern_prefix_iff {k s v : List UInt8} (hk : quote ∉ k) (hs : quote ∉ s) :
    keyPattern k <+: quote :: (s ++ quote :: v) ↔ k = s ∧ v.head? = some colon := by
  unfold keyPattern
  rw [List.cons_prefix_cons, prefix_at_quote hk hs]
  cases v with
  | nil => simp
  | cons b v =>
    rw [List.cons_prefix_cons]
    simp [eq_comm]

/-- At a closing quote the pattern stands nowhere: what follows is no byte of a key. -/
lemma not_keyPattern_prefix {k v : List UInt8} {b : UInt8} (hk : ∀ b ∈ k, isKeyByte b = true)
    (hb : isKeyByte b = false) (hquote : b ≠ quote) : ¬ keyPattern k <+: quote :: b :: v := by
  intro h
  have htail := (List.cons_prefix_cons.mp h).2
  cases k with
  | nil => exact hquote (List.cons_prefix_cons.mp htail).1.symm
  | cons c k =>
    have hc := hk c List.mem_cons_self
    rw [(List.cons_prefix_cons.mp htail).1, hb] at hc
    cases hc

/-! ## Members -/

/-- A value of a flat object. -/
inductive FlatValue
  /-- a string literal without escapes -/
  | string (value : List UInt8) (h : quote ∉ value ∧ '\\'.toUInt8 ∉ value)
  /-- an integer below `2 ^ 64` -/
  | int (digits : List UInt8)
      (h : AllDigits digits ∧ digits ≠ [] ∧ decimalValue digits < 2 ^ 64)
  | true
  | false
  | null

namespace FlatValue

def text : FlatValue → List UInt8
  | string value _ => quote :: (value ++ [quote])
  | int digits _ => digits
  | true => ['t'.toUInt8, 'r'.toUInt8, 'u'.toUInt8, 'e'.toUInt8]
  | false => ['f'.toUInt8, 'a'.toUInt8, 'l'.toUInt8, 's'.toUInt8, 'e'.toUInt8]
  | null => ['n'.toUInt8, 'u'.toUInt8, 'l'.toUInt8, 'l'.toUInt8]

def string? : FlatValue → Option (List UInt8)
  | string value _ => some value
  | _ => none

def int? : FlatValue → Option ℕ
  | int digits _ => some (decimalValue digits)
  | _ => none

end FlatValue

/-- A member of a flat object: blanks in front of it and behind its colon, its key and its
value. -/
structure FlatMember where
  lead : List UInt8
  key : List UInt8
  blanks : List UInt8
  value : FlatValue
  lead_blank : ∀ b ∈ lead, isBlank b = true
  key_bytes : ∀ b ∈ key, isKeyByte b = true
  key_ne : key ≠ []
  blanks_blank : ∀ b ∈ blanks, isBlank b = true

/-- The members, each behind a separator, and the end of the object. -/
def membersText (separator : UInt8) : List FlatMember → List UInt8
  | [] => ['}'.toUInt8]
  | m :: ms => separator :: (m.lead ++ (keyPattern m.key ++ (m.blanks ++ (m.value.text
      ++ membersText ','.toUInt8 ms))))

/-- The text of a flat object. -/
def flatText : List FlatMember → List UInt8
  | [] => ['{'.toUInt8, '}'.toUInt8]
  | m :: ms => membersText '{'.toUInt8 (m :: ms)

/-- What stands behind a value: a comma or the closing brace. -/
def Follows (rest : List UInt8) : Prop :=
  ∃ b tail, rest = b :: tail ∧ (b = ','.toUInt8 ∨ b = '}'.toUInt8)

lemma follows_membersText (ms : List FlatMember) : Follows (membersText ','.toUInt8 ms) := by
  cases ms with
  | nil => exact ⟨_, _, rfl, .inr rfl⟩
  | cons m ms => exact ⟨_, _, rfl, .inl rfl⟩

lemma quote_not_mem_blanks {blanks : List UInt8} (h : ∀ b ∈ blanks, isBlank b = true) :
    quote ∉ blanks :=
  fun hmem => absurd (h quote hmem) (by decide)

variable {k : List UInt8}

/-- The quotes of a string value are passed. -/
lemma afterKey_value (hk : ∀ b ∈ k, isKeyByte b = true) (v : FlatValue) {rest : List UInt8}
    (hrest : Follows rest) :
    afterKey (v.text ++ rest) (keyPattern k) = afterKey rest (keyPattern k) := by
  obtain ⟨b, tail, rfl, hb⟩ := hrest
  cases v with
  | string value h =>
    -- a string value is followed by a comma or a brace, never by the colon of a key
    have hcolon : b ≠ colon := by
      rcases hb with rfl | rfl
      · decide
      · decide
    have hopen : ¬ keyPattern k <+: quote :: (value ++ quote :: b :: tail) := by
      rw [keyPattern_prefix_iff (quote_not_mem hk) h.1]
      rintro ⟨-, hhead⟩
      exact hcolon (Option.some.inj hhead)
    -- neither does its closing quote open a pattern
    have hclose : ¬ keyPattern k <+: quote :: b :: tail := by
      rcases hb with rfl | rfl
      · exact not_keyPattern_prefix hk (by decide) (by decide)
      · exact not_keyPattern_prefix hk (by decide) (by decide)
    show afterKey (quote :: (value ++ [quote] ++ b :: tail)) _ = _
    rw [List.append_assoc]
    show afterKey (quote :: (value ++ quote :: b :: tail)) _ = _
    rw [afterKey_cons (keyPattern_ne_nil k) hopen, afterKey_append_of_no_quote h.1,
      afterKey_cons (keyPattern_ne_nil k) hclose]
  | int digits h =>
    have hquote : quote ∉ digits := fun hmem => absurd (h.1 quote hmem) (by decide)
    exact afterKey_append_of_no_quote hquote k _
  | true => exact afterKey_append_of_no_quote (by decide) k _
  | false => exact afterKey_append_of_no_quote (by decide) k _
  | null => exact afterKey_append_of_no_quote (by decide) k _

/-- The quotes of another key are passed. -/
lemma afterKey_other (hk : ∀ b ∈ k, isKeyByte b = true) (m : FlatMember) (hne : m.key ≠ k)
    (rest : List UInt8) :
    afterKey (keyPattern m.key ++ rest) (keyPattern k) = afterKey rest (keyPattern k) := by
  have hkey := quote_not_mem m.key_bytes
  have hopen : ¬ keyPattern k <+: quote :: (m.key ++ quote :: colon :: rest) := by
    rw [keyPattern_prefix_iff (quote_not_mem hk) hkey]
    rintro ⟨hsame, -⟩
    exact hne hsame.symm
  have hclose : ¬ keyPattern k <+: quote :: colon :: rest :=
    not_keyPattern_prefix hk (by decide) (by decide)
  have hcolon : ¬ keyPattern k <+: colon :: rest := by
    intro hpre
    exact absurd (List.cons_prefix_cons.mp hpre).1 (by decide)
  show afterKey (quote :: (m.key ++ [quote, colon] ++ rest)) _ = _
  rw [List.append_assoc]
  show afterKey (quote :: (m.key ++ quote :: colon :: rest)) _ = _
  rw [afterKey_cons (keyPattern_ne_nil k) hopen, afterKey_append_of_no_quote hkey,
    afterKey_cons (keyPattern_ne_nil k) hclose, afterKey_cons (keyPattern_ne_nil k) hcolon]

lemma quote_not_mem_lead {m : FlatMember} {separator : UInt8} (h : separator ≠ quote) :
    quote ∉ separator :: m.lead := by
  rw [List.mem_cons, not_or]
  exact ⟨h.symm, quote_not_mem_blanks m.lead_blank⟩

/-- A member with another key is passed. -/
lemma afterKey_member (hk : ∀ b ∈ k, isKeyByte b = true) (m : FlatMember) (hne : m.key ≠ k)
    (ms : List FlatMember) {separator : UInt8} (hseparator : separator ≠ quote) :
    afterKey (membersText separator (m :: ms)) (keyPattern k)
      = afterKey (membersText ','.toUInt8 ms) (keyPattern k) := by
  show afterKey ((separator :: m.lead) ++ _) _ = _
  rw [afterKey_append_of_no_quote (quote_not_mem_lead hseparator), afterKey_other hk m hne,
    afterKey_append_of_no_quote (quote_not_mem_blanks m.blanks_blank),
    afterKey_value hk m.value (follows_membersText ms)]

/-- A key of no member is not found. -/
lemma afterKey_absent (hk : ∀ b ∈ k, isKeyByte b = true) {ms : List FlatMember}
    (h : ∀ m ∈ ms, m.key ≠ k) {separator : UInt8} (hseparator : separator ≠ quote) :
    afterKey (membersText separator ms) (keyPattern k) = none := by
  induction ms generalizing separator with
  | nil =>
    have hbrace : quote ∉ ['}'.toUInt8] := by decide
    have hend := afterKey_append_of_no_quote hbrace k []
    rw [List.append_nil, afterKey_nil (keyPattern_ne_nil k)] at hend
    exact hend
  | cons m ms ih =>
    rw [List.forall_mem_cons] at h
    rw [afterKey_member hk m h.1 ms hseparator]
    exact ih h.2 (by decide)

/-- A key is found at its member, whose value follows. -/
lemma afterKey_present {ms : List FlatMember} (hdistinct : (ms.map FlatMember.key).Nodup)
    {m : FlatMember} (hm : m ∈ ms) {separator : UInt8} (hseparator : separator ≠ quote) :
    ∃ rest, Follows rest ∧ afterKey (membersText separator ms) (keyPattern m.key)
      = some (m.blanks ++ (m.value.text ++ rest)) := by
  induction ms generalizing separator with
  | nil => cases hm
  | cons first ms ih =>
    rw [List.map_cons, List.nodup_cons] at hdistinct
    rcases List.mem_cons.mp hm with rfl | hlater
    · refine ⟨_, follows_membersText ms, ?_⟩
      show afterKey ((separator :: m.lead) ++ _) _ = _
      rw [afterKey_append_of_no_quote (quote_not_mem_lead hseparator),
        afterKey_append_self (keyPattern_ne_nil m.key)]
    · have hne : first.key ≠ m.key := by
        intro hsame
        apply hdistinct.1
        rw [hsame]
        exact List.mem_map_of_mem hlater
      rw [afterKey_member m.key_bytes first hne ms hseparator]
      exact ih hdistinct.2 hlater (by decide)

/-! ## Values -/

lemma not_blank_of_isDigit (b : UInt8) : isDigit b = true → isBlank b = false ∧ b ≠ quote :=
  Text.forall_byte (P := fun b => isDigit b = true → isBlank b = false ∧ b ≠ quote)
    (by decide +kernel) b

/-- A value that begins with another byte than a quote is no string. -/
lemma extractJsonStrField_other {key blanks tail : List UInt8} {b : UInt8}
    (hafter : afterKey src key = some (blanks ++ b :: tail))
    (hblanks : ∀ b ∈ blanks, isBlank b = true) (hb : isBlank b = false ∧ b ≠ quote) :
    extractJsonStrField src key = .error "Field not found" := by
  have hstop : ¬ isBlank b = true := by
    rw [hb.1]
    decide
  unfold extractJsonStrField
  rw [hafter]
  dsimp only
  rw [List.dropWhile_append_of_pos hblanks, List.dropWhile_cons_of_neg hstop]
  dsimp only
  rw [if_neg hb.2]

lemma extractJsonStrField_value {key : List UInt8} {m : FlatMember} {rest : List UInt8}
    (hafter : afterKey src key = some (m.blanks ++ (m.value.text ++ rest))) :
    extractJsonStrField src key = m.value.string?.elim (.error "Field not found") .ok := by
  cases hvalue : m.value with
  | string value h =>
    rw [hvalue] at hafter
    -- the value holds no quote, so that the next quote is its end
    have hquoted : quoted (value ++ [quote] ++ rest) = some value := by
      rw [quoted_eq_some_iff]
      exact ⟨rest, List.append_assoc value [quote] rest, h.1⟩
    have hdrop : (m.blanks ++ ((FlatValue.string value h).text ++ rest)).dropWhile isBlank
        = quote :: (value ++ [quote] ++ rest) := by
      rw [List.dropWhile_append_of_pos m.blanks_blank]
      exact List.dropWhile_cons_of_neg (by decide)
    unfold extractJsonStrField
    rw [hafter]
    dsimp only
    rw [hdrop]
    dsimp only
    rw [if_pos rfl, hquoted]
    rfl
  | int digits h =>
    -- a value without an opening quote
    rw [hvalue] at hafter
    obtain ⟨b, tail, rfl⟩ := List.exists_cons_of_ne_nil h.2.1
    exact extractJsonStrField_other hafter m.blanks_blank
      (not_blank_of_isDigit b (h.1 b List.mem_cons_self))
  | true =>
    rw [hvalue] at hafter
    exact extractJsonStrField_other hafter m.blanks_blank (by decide)
  | false =>
    rw [hvalue] at hafter
    exact extractJsonStrField_other hafter m.blanks_blank (by decide)
  | null =>
    rw [hvalue] at hafter
    exact extractJsonStrField_other hafter m.blanks_blank (by decide)

/-- The digits of an integer end where the value ends. -/
lemma extractJsonIntField_value {key : List UInt8} {m : FlatMember} {rest : List UInt8}
    (hrest : Follows rest) (hafter : afterKey src key = some (m.blanks ++ (m.value.text ++ rest)))
    {n : ℕ} (hint : m.value.int? = some n) :
    ∃ v, extractJsonIntField src key = some v ∧ v.toNat = n := by
  cases hvalue : m.value with
  | int digits h =>
    rw [hvalue] at hafter hint
    cases hint
    obtain ⟨hdigits, hne, hlt⟩ := h
    obtain ⟨b, tail, rfl⟩ := List.exists_cons_of_ne_nil hne
    have hb := not_blank_of_isDigit b (hdigits b List.mem_cons_self)
    -- blanks are skipped, and the skip stops at the first digit
    have hskipped : ∀ b ∈ m.blanks, (isBlank b || b == quote) = true := by
      intro b hmem
      rw [m.blanks_blank b hmem, Bool.true_or]
    have hstop : ¬ (isBlank b || b == quote) = true := by
      rw [hb.1, Bool.false_or, beq_iff_eq]
      exact hb.2
    -- the digits stop at the comma or the brace behind the value
    have hend : ∀ c ∈ rest.head?, isDigit c = false := by
      obtain ⟨c, tail', rfl, hc⟩ := hrest
      intro c' hc'
      cases hc'
      rcases hc with rfl | rfl
      · decide
      · decide
    have hafter' : afterKey src key = some (m.blanks ++ ((b :: tail) ++ rest)) := hafter
    have hdrop : (m.blanks ++ ((b :: tail) ++ rest)).dropWhile (fun b => isBlank b || b == quote)
        = (b :: tail) ++ rest := by
      rw [List.dropWhile_append_of_pos hskipped]
      exact List.dropWhile_cons_of_neg hstop
    have htake := (Text.takeWhile_digits hdigits hend).1
    refine ⟨UInt64.ofNat (decimalValue (b :: tail)), ?_, ?_⟩
    · unfold extractJsonIntField
      rw [hafter']
      dsimp only
      rw [hdrop, htake, digitsValue_eq]
      rfl
    · rw [UInt64.toNat_ofNat', Nat.mod_eq_of_lt hlt]
  | string value h =>
    rw [hvalue] at hint
    cases hint
  | true =>
    -- every other value has no integer to find
    rw [hvalue] at hint
    cases hint
  | false =>
    rw [hvalue] at hint
    cases hint
  | null =>
    rw [hvalue] at hint
    cases hint

/-! ## The object -/

lemma flatText_of_mem {members : List FlatMember} {m : FlatMember} (hm : m ∈ members) :
    flatText members = membersText '{'.toUInt8 members := by
  cases members with
  | nil => cases hm
  | cons first ms => rfl

lemma afterKey_flatText_present {members : List FlatMember}
    (hdistinct : (members.map FlatMember.key).Nodup) {m : FlatMember} (hm : m ∈ members) :
    ∃ rest, Follows rest ∧ afterKey (flatText members) (keyPattern m.key)
      = some (m.blanks ++ (m.value.text ++ rest)) := by
  rw [flatText_of_mem hm]
  exact afterKey_present hdistinct hm (by decide)

lemma afterKey_flatText_absent (hk : ∀ b ∈ k, isKeyByte b = true) {members : List FlatMember}
    (h : ∀ m ∈ members, m.key ≠ k) : afterKey (flatText members) (keyPattern k) = none := by
  cases members with
  | nil =>
    have hbraces : quote ∉ ['{'.toUInt8, '}'.toUInt8] := by decide
    have hend := afterKey_append_of_no_quote hbraces k []
    rw [List.append_nil, afterKey_nil (keyPattern_ne_nil k)] at hend
    exact hend
  | cons first ms => exact afterKey_absent hk h (by decide)

/-- In a flat object with different keys each string field and each integer field is read, and
no other. -/
theorem flat_fields {members : List FlatMember}
    (hdistinct : (members.map FlatMember.key).Nodup) {k : List UInt8}
    (hk : ∀ b ∈ k, isKeyByte b = true) :
    (∀ m ∈ members, m.key = k → ∀ s, m.value.string? = some s →
        extractJsonStrField (flatText members) (keyPattern k) = .ok s) ∧
      ((∀ m ∈ members, m.key = k → m.value.string? = none) →
        extractJsonStrField (flatText members) (keyPattern k) = .error "Field not found") ∧
      (∀ m ∈ members, m.key = k → ∀ n, m.value.int? = some n →
        ∃ v, extractJsonIntField (flatText members) (keyPattern k) = some v ∧ v.toNat = n) ∧
      ((∀ m ∈ members, m.key ≠ k) →
        extractJsonIntField (flatText members) (keyPattern k) = none) := by
  refine ⟨?_, ?_, ?_, ?_⟩
  · rintro m hm rfl s hs
    obtain ⟨rest, -, hafter⟩ := afterKey_flatText_present hdistinct hm
    rw [extractJsonStrField_value hafter, hs]
    rfl
  · intro hother
    by_cases hpresent : ∃ m ∈ members, m.key = k
    · obtain ⟨m, hm, rfl⟩ := hpresent
      obtain ⟨rest, -, hafter⟩ := afterKey_flatText_present hdistinct hm
      rw [extractJsonStrField_value hafter, hother m hm rfl]
      rfl
    · have habsent : ∀ m ∈ members, m.key ≠ k := fun m hm hkey => hpresent ⟨m, hm, hkey⟩
      unfold extractJsonStrField
      rw [afterKey_flatText_absent hk habsent]
  · rintro m hm rfl n hn
    obtain ⟨rest, hrest, hafter⟩ := afterKey_flatText_present hdistinct hm
    exact extractJsonIntField_value hrest hafter hn
  · intro habsent
    unfold extractJsonIntField
    rw [afterKey_flatText_absent hk habsent]

/-- The members `"id":7` and `"trade_id": "id"`, each read by its own key. -/
def idMembers : List FlatMember :=
  [{ lead := [], key := Bytes.ofString "id", blanks := []
     value := .int ['7'.toUInt8] ⟨List.forall_mem_singleton.mpr rfl, by decide, by decide⟩
     lead_blank := List.forall_mem_nil _, key_bytes := by decide +kernel
     key_ne := by decide +kernel, blanks_blank := List.forall_mem_nil _ },
   { lead := [], key := Bytes.ofString "trade_id", blanks := [' '.toUInt8]
     value := .string (Bytes.ofString "id") (by decide +kernel)
     lead_blank := List.forall_mem_nil _, key_bytes := by decide +kernel
     key_ne := by decide +kernel, blanks_blank := List.forall_mem_singleton.mpr rfl }]

theorem flat_fields_id :
    extractJsonStrField (flatText idMembers) (keyPattern (Bytes.ofString "trade_id"))
      = .ok (Bytes.ofString "id") ∧
    (∃ v, extractJsonIntField (flatText idMembers) (keyPattern (Bytes.ofString "id")) = some v ∧
      v.toNat = 7) :=
  have hdistinct : (idMembers.map FlatMember.key).Nodup := by decide +kernel
  ⟨(flat_fields hdistinct (by decide +kernel)).1 _ (.tail _ (.head _)) rfl _ rfl,
    (flat_fields hdistinct (by decide +kernel)).2.2.1 _ (.head _) rfl _ rfl⟩

end ChainMarketPrice.CefiIngest
