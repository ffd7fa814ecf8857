import Mathlib.Data.List.TakeWhile
import ChainMarketPrice.Lib.Text

/-!
# Where a text may be cut

A UTF-8 text may be cut at its ends and before a byte that does not continue a code point. In
a well-formed text every place right after an ASCII byte is such a boundary.
-/

namespace Text

/-- The text may be cut before byte `i`. -/
def isCharBoundary (text : List UInt8) (i : ℕ) : Bool :=
  match text[i]? with
  | some b => !(0x80 ≤ b && b < 0xC0)
  | none => i == text.length

/-! ## Bytes of code points -/

/-- A fact about every byte, checked on the 256 of them. -/
lemma forall_byte {P : UInt8 → Prop} (h : ∀ n : Fin 256, P (UInt8.ofNat n)) (b : UInt8) : P b := by
  have hb := h ⟨b.toNat, b.toNat_lt⟩
  rwa [UInt8.ofNat_toNat] at hb

/-- ASCII bytes begin a code point. -/
lemma isUTF8FirstByte_of_ascii (b : UInt8) : b < 0x80 → b.IsUTF8FirstByte :=
  forall_byte (P := fun b => b < 0x80 → b.IsUTF8FirstByte) (by decide +kernel) b

/-- The first byte of a code point does not continue another. -/
lemma not_continuation_of_isUTF8FirstByte (b : UInt8) :
    b.IsUTF8FirstByte → (!(0x80 ≤ b && b < 0xC0)) = true :=
  forall_byte (P := fun b => b.IsUTF8FirstByte → (!(0x80 ≤ b && b < 0xC0)) = true)
    (by decide +kernel) b

/-- An encoding that begins with an ASCII byte is that byte. -/
lemma eq_nil_of_ascii {c : Char} {b : UInt8} {rest : List UInt8}
    (h : String.utf8EncodeChar c = b :: rest) (hb : b < 0x80) : rest = [] := by
  rw [UInt8.lt_iff_toNat_lt] at hb
  have hlimit : UInt8.toNat 0x80 = 0x80 := rfl
  have hmax := c.val.toNat_lt
  unfold String.utf8EncodeChar at h
  dsimp only at h
  -- the first byte of the longer encodings is at least `0xC0`
  split at h
  · exact (List.cons.inj h).2.symm
  split at h
  · have hfirst := congrArg UInt8.toNat (List.cons.inj h).1
    rw [UInt8.toNat_ofNat'] at hfirst
    omega
  split at h
  · have hfirst := congrArg UInt8.toNat (List.cons.inj h).1
    rw [UInt8.toNat_ofNat'] at hfirst
    omega
  · have hfirst := congrArg UInt8.toNat (List.cons.inj h).1
    rw [UInt8.toNat_ofNat'] at hfirst
    omega

/-! ## Boundaries of a text -/

/-- The bytes of a list of characters. -/
def encode (chars : List Char) : List UInt8 := chars.flatMap String.utf8EncodeChar

lemma exists_encode {text : List UInt8} (h : isUtf8 text = true) :
    ∃ chars, text = encode chars := by
  unfold isUtf8 at h
  rw [ByteArray.validateUTF8_eq_true_iff] at h
  obtain ⟨chars, hchars⟩ := h
  refine ⟨chars, ?_⟩
  have hdata := congrArg (fun bytes => bytes.data.toList) hchars
  simpa [List.utf8Encode, encode] using hdata

lemma utf8EncodeChar_of_ascii (b : UInt8) :
    b < 0x80 → String.utf8EncodeChar (Char.ofNat b.toNat) = [b] :=
  forall_byte (P := fun b => b < 0x80 → String.utf8EncodeChar (Char.ofNat b.toNat) = [b])
    (by decide +kernel) b

lemma isUtf8_of_ascii {text : List UInt8} (h : ∀ b ∈ text, b < 0x80) : isUtf8 text = true := by
  unfold isUtf8
  rw [ByteArray.validateUTF8_eq_true_iff]
  refine ⟨text.map fun b => Char.ofNat b.toNat, ?_⟩
  have hencode : (text.map fun b => Char.ofNat b.toNat).flatMap String.utf8EncodeChar = text := by
    induction text with
    | nil => rfl
    | cons b text ih =>
      rw [List.map_cons, List.flatMap_cons, utf8EncodeChar_of_ascii b (h b List.mem_cons_self),
        ih fun b' hb' => h b' (List.mem_cons_of_mem _ hb')]
      rfl
  rw [List.utf8Encode, hencode]
  exact (ByteArray.ext List.data_toByteArray).symm

/-- The first byte of a text begins a code point. -/
lemma isUTF8FirstByte_head {chars : List Char} {b : UInt8} {rest : List UInt8}
    (h : encode chars = b :: rest) : b.IsUTF8FirstByte := by
  cases chars with
  | nil => simp [encode] at h
  | cons c chars =>
    rw [encode, List.flatMap_cons] at h
    obtain ⟨b', rest', henc⟩ := List.exists_cons_of_ne_nil (String.utf8EncodeChar_ne_nil (c := c))
    rw [henc, List.cons_append] at h
    have hzero : 0 < (String.utf8EncodeChar c).length := by
      rw [henc]
      exact Nat.succ_pos _
    have hfirst : ((String.utf8EncodeChar c).get ⟨0, hzero⟩).IsUTF8FirstByte :=
      UInt8.isUTF8FirstByte_getElem_utf8EncodeChar.mpr rfl
    simp only [henc, List.get_eq_getElem, List.getElem_cons_zero] at hfirst
    rw [← (List.cons.inj h).1]
    exact hfirst

/-- After an ASCII byte the text ends or a code point begins. -/
lemma isUTF8FirstByte_after_ascii {chars : List Char} {before after : List UInt8} {b b' : UInt8}
    (h : encode chars = before ++ b :: b' :: after) (hb : b < 0x80) : b'.IsUTF8FirstByte := by
  induction chars generalizing before with
  | nil => simp [encode] at h
  | cons c chars ih =>
    rw [encode, List.flatMap_cons, ← encode, List.append_eq_append_iff] at h
    rcases h with ⟨skipped, hbefore, hrest⟩ | ⟨cut, henc, hrest⟩
    · -- the ASCII byte belongs to a later character
      exact ih hrest
    · cases cut with
      | nil =>
        have hlater : encode chars = [] ++ b :: b' :: after := hrest.symm
        exact ih hlater
      | cons x cut =>
        -- it is a byte of this character, so its first and its only one
        rw [List.cons_append] at hrest
        obtain ⟨hx, htail⟩ := List.cons.inj hrest
        subst hx
        have hlt : before.length < (String.utf8EncodeChar c).length := by
          rw [henc]
          simp
        have hget : (String.utf8EncodeChar c).get ⟨before.length, hlt⟩ = b := by
          simp [henc]
        have hfirst : ((String.utf8EncodeChar c).get ⟨before.length, hlt⟩).IsUTF8FirstByte := by
          rw [hget]
          exact isUTF8FirstByte_of_ascii b hb
        have hnil : before = [] :=
          List.eq_nil_of_length_eq_zero (UInt8.isUTF8FirstByte_getElem_utf8EncodeChar.mp hfirst)
        rw [hnil, List.nil_append] at henc
        rw [eq_nil_of_ascii henc hb, List.nil_append] at htail
        exact isUTF8FirstByte_head htail.symm

/-- A well-formed text may be cut after any of its ASCII bytes. -/
theorem isCharBoundary_after_ascii {text before after : List UInt8} {b : UInt8}
    (h : isUtf8 text = true) (htext : text = before ++ b :: after) (hb : b < 0x80) :
    isCharBoundary text (before.length + 1) = true := by
  obtain ⟨chars, hchars⟩ := exists_encode h
  unfold isCharBoundary
  cases after with
  | nil => simp [htext]
  | cons b' after =>
    have hget : text[before.length + 1]? = some b' := by simp [htext]
    rw [hget]
    apply not_continuation_of_isUTF8FirstByte
    exact isUTF8FirstByte_after_ascii (hchars.symm.trans htext) hb

/-! ## Searching, trimming and numbers -/

/-- Where a pattern is found it stands in the text. -/
lemma find_eq_some {pattern text : List UInt8} {pos : ℕ} (h : find pattern text = some pos) :
    ∃ before after, text = before ++ (pattern ++ after) ∧ before.length = pos := by
  induction text generalizing pos with
  | nil =>
    rw [find] at h
    split at h
    · next hnil =>
      refine ⟨[], [], ?_, by simpa using h⟩
      simp [List.isEmpty_iff.mp hnil]
    · cases h
  | cons b rest ih =>
    rw [find] at h
    split at h
    · next hhere =>
      obtain ⟨after, hafter⟩ := List.isPrefixOf_iff_prefix.mp hhere
      exact ⟨[], after, hafter.symm, by simpa using h⟩
    · obtain ⟨pos', hpos', hsucc⟩ := Option.map_eq_some_iff.mp h
      obtain ⟨before, after, hrest, hlen⟩ := ih hpos'
      refine ⟨b :: before, after, ?_, ?_⟩
      · rw [hrest, List.cons_append]
      · rw [List.length_cons, hlen, hsucc]

/-- Trimming drops bytes in front. -/
lemma trimStart_isSuffix (text : List UInt8) : trimStart text <:+ text := by
  fun_induction trimStart text with
  | case1 b0 b1 b2 rest _ ih => exact ih.trans (List.suffix_cons _ _)
  | case2 b0 b1 b2 rest _ _ ih => exact ih.trans ⟨[b0, b1], rfl⟩
  | case3 b0 b1 b2 rest _ _ _ ih => exact ih.trans ⟨[b0, b1, b2], rfl⟩
  | case4 => exact List.suffix_rfl
  | case5 b0 b1 _ ih => exact ih.trans (List.suffix_cons _ _)
  | case6 => exact List.nil_suffix
  | case7 => exact List.suffix_rfl
  | case8 => exact List.nil_suffix
  | case9 => exact List.suffix_rfl
  | case10 => exact List.suffix_rfl

/-- Boundaries of a rest of the text are boundaries of the text. -/
lemma isCharBoundary_append (before text : List UInt8) (i : ℕ) :
    isCharBoundary (before ++ text) (before.length + i) = isCharBoundary text i := by
  unfold isCharBoundary
  rw [List.getElem?_append_right (Nat.le_add_right _ _), Nat.add_sub_cancel_left,
    List.length_append]
  cases text[i]? with
  | some b => rfl
  | none =>
    show decide _ = decide _
    rw [decide_eq_decide]
    exact Nat.add_left_cancel_iff

/-- A rest of a well-formed text may be cut after an ASCII byte. -/
lemma isCharBoundary_suffix_after_ascii {text rest before after : List UInt8} {b : UInt8}
    (h : isUtf8 text = true) (hrest : rest <:+ text) (hcut : rest = before ++ b :: after)
    (hb : b < 0x80) : isCharBoundary rest (before.length + 1) = true := by
  obtain ⟨skipped, htext⟩ := hrest
  rw [← isCharBoundary_append skipped rest, htext]
  have hwhole : text = (skipped ++ before) ++ b :: after := by
    rw [← htext, hcut, List.append_assoc]
  have hcutAt := isCharBoundary_after_ascii h hwhole hb
  rwa [List.length_append, Nat.add_assoc] at hcutAt

lemma lt_of_isDigit (b : UInt8) : isDigit b = true → b < 0x80 :=
  forall_byte (P := fun b => isDigit b = true → b < 0x80) (by decide +kernel) b

/-- A rest of a well-formed text may be cut after the digits in front of it. -/
lemma isCharBoundary_after_digits {text rest : List UInt8} (h : isUtf8 text = true)
    (hrest : rest <:+ text) (hdigits : rest.takeWhile isDigit ≠ []) :
    isCharBoundary rest (rest.takeWhile isDigit).length = true := by
  obtain ⟨before, b, hlast⟩ :=
    (List.eq_nil_or_concat' (rest.takeWhile isDigit)).resolve_left hdigits
  have hb : isDigit b = true := by
    have hmem : b ∈ rest.takeWhile isDigit := by simp [hlast]
    exact List.mem_takeWhile_imp hmem
  have hcut : rest = before ++ b :: rest.dropWhile isDigit := by
    calc rest = rest.takeWhile isDigit ++ rest.dropWhile isDigit := by
          rw [List.takeWhile_append_dropWhile]
      _ = before ++ b :: rest.dropWhile isDigit := by
          rw [hlast, List.append_assoc, List.singleton_append]
  rw [hlast, List.length_append, List.length_singleton]
  exact isCharBoundary_suffix_after_ascii h hrest hcut (lt_of_isDigit b hb)

end Text
