import ChainMarketPrice.Lib.FixedWidth
import ChainMarketPrice.Distribution.FastJsonText
import ChainMarketPrice.Distribution.SbeTheorems

/-!
# The two wire formats of a best bid and offer

A field of the JSON text is found by its key and read as an exact decimal. It has the value that
the SBE message decodes to, except for quantities from `2 ^ 63` on: these are printed as signed
numbers (`formats_agree_iff`).
-/

namespace ChainMarketPrice.Distribution
namespace WireFormats

open Bytes FastJson FastJsonWriter Text

/-! ## Reading a field -/

/-- Prices and quantities stand in quotes. -/
def dropQuote : List UInt8 → List UInt8
  | [] => []
  | b :: rest => if b = quote then rest else b :: rest

/-- The decimal behind the key. -/
def decimalField (text : List UInt8) (key : String) : Option ℚ :=
  (after (keyPattern (ofString key)) text).bind fun rest => readDecimal (dropQuote rest)

/-- The same, times `10 ^ 8`. -/
def scaledField (text : List UInt8) (key : String) : Option ℚ :=
  (decimalField text key).map (· * 10 ^ 8)

/-- The fields of the text have the values of the record. -/
structure SameValues (text : List UInt8) (bbo : NormalizedBbo) : Prop where
  marketId : decimalField text "market_id" = some (bbo.marketId.toNat : ℚ)
  venue : decimalField text "venue" = some (bbo.venue.toNat : ℚ)
  chain : decimalField text "chain" = some (bbo.chain.toNat : ℚ)
  sequence : decimalField text "sequence" = some (bbo.sequence.toNat : ℚ)
  bidPrice : scaledField text "bid_px" = some (bbo.bidPrice.toInt : ℚ)
  bidQty : scaledField text "bid_qty" = some (bbo.bidQty.toNat : ℚ)
  askPrice : scaledField text "ask_px" = some (bbo.askPrice.toInt : ℚ)
  askQty : scaledField text "ask_qty" = some (bbo.askQty.toNat : ℚ)
  spreadBps : decimalField text "spread_bps" = some (bbo.spreadBps.toNat : ℚ)
  flags : decimalField text "flags" = some (bbo.flags.toNat : ℚ)
  t0 : decimalField text "t0" = some (bbo.telemetry.t0ExchangeNs.toNat : ℚ)
  t1 : decimalField text "t1" = some (bbo.telemetry.t1IngestNicNs.toNat : ℚ)
  t2 : decimalField text "t2" = some (bbo.telemetry.t2EngineProcNs.toNat : ℚ)
  t3 : decimalField text "t3" = some (bbo.telemetry.t3EgressNs.toNat : ℚ)

/-! ## Numbers as pieces -/

lemma isNumber_u64Text (literal : List UInt8) (val : UInt64) :
    Piece.IsNumber ⟨literal, u64Text val⟩ :=
  isNumber_digits literal (u64Text_spec val).1 (u64Text_spec val).2.1

lemma isNumber_fixedText (literal : List UInt8) (val : Int64) :
    Piece.IsNumber ⟨literal, fixedText val⟩ := by
  obtain ⟨hdigits, hne, -⟩ := u64Text_spec (unsignedAbs val / 100000000)
  obtain ⟨hfrac, -⟩ := fracDigits_spec (toNat_fraction_lt (unsignedAbs val))
  obtain ⟨b, rest, hcons, hb⟩ := exists_cons_of_allDigits hdigits hne
  constructor
  -- a sign, digits, a point and digits: none of them is a quote
  · intro hmem
    unfold fixedText at hmem
    rcases List.mem_append.mp hmem with hmem | hmem
    · split at hmem
      · exact absurd (List.mem_singleton.mp hmem) (by decide)
      · exact absurd hmem List.not_mem_nil
    · rcases List.mem_append.mp hmem with hmem | hmem
      · exact quote_not_mem_of_allDigits hdigits hmem
      · rcases List.mem_cons.mp hmem with hmem | hmem
        · exact absurd hmem (by decide)
        · exact quote_not_mem_of_allDigits hfrac hmem
  · unfold fixedText
    by_cases hneg : val < 0
    · rw [if_pos hneg]
      exact ⟨45, _, rfl, by decide⟩
    · rw [if_neg hneg, List.nil_append, hcons]
      refine ⟨b, _, rfl, ?_⟩
      rw [startsNumber, hb, Bool.true_or]

lemma isNumber_bboPieces (bbo : NormalizedBbo) : ∀ piece ∈ bboPieces bbo, piece.IsNumber := by
  simp only [bboPieces, List.forall_mem_cons, isNumber_u64Text, isNumber_fixedText, true_and]
  exact fun piece hmem => absurd hmem List.not_mem_nil

/-! ## The fields of the text -/

/-- A literal whose first byte ends a number. -/
def endsNumber (literal : List UInt8) : Bool :=
  literal.head?.any fun b => !isDigit b && b != '.'.toUInt8

lemma ends_append {literal : List UInt8} (h : endsNumber literal = true) (rest : List UInt8) :
    Ends (literal ++ rest) := by
  cases literal with
  | nil => cases h
  | cons b literal =>
    rw [endsNumber, List.head?_cons, Option.any_some, Bool.and_eq_true, Bool.not_eq_true',
      bne_iff_ne] at h
    intro b' hb'
    cases hb'
    exact h

lemma ends_bboText {bbo : NormalizedBbo} {later : List Piece} (h : later <:+ bboPieces bbo) :
    Ends (join later (ofString "\x7d\x7d")) := by
  have hall : ∀ piece ∈ bboPieces bbo, endsNumber piece.literal = true :=
    List.all_eq_true.mp (show (bboPieces bbo).all (fun piece => endsNumber piece.literal) = true
      from rfl)
  cases later with
  | nil =>
    have htail := ends_append (show endsNumber (ofString "\x7d\x7d") = true by decide) []
    rwa [List.append_nil] at htail
  | cons piece later => exact ends_append (hall piece (h.mem List.mem_cons_self)) _

lemma decimalField_bboText {bbo : NormalizedBbo} {key : String} {back number : List UInt8}
    {later : List Piece}
    (h : lookup (keyPattern (ofString key)) (bboPieces bbo) = some (back, number, later)) :
    decimalField (bboText bbo) key
      = readDecimal (dropQuote (back ++ (number ++ join later (ofString "\x7d\x7d")))) := by
  unfold decimalField bboText
  rw [keyPattern, after_join _ (isNumber_bboPieces bbo) h]
  rfl

/-- A field printed by `write_u64`. -/
lemma decimalField_u64Text {bbo : NormalizedBbo} {key : String} {val : UInt64}
    {later : List Piece}
    (h : lookup (keyPattern (ofString key)) (bboPieces bbo) = some ([], u64Text val, later)) :
    decimalField (bboText bbo) key = some (val.toNat : ℚ) := by
  obtain ⟨hdigits, hne, hvalue⟩ := u64Text_spec val
  obtain ⟨b, rest, hcons, hb⟩ := exists_cons_of_allDigits hdigits hne
  have hquote : dropQuote (u64Text val ++ join later (ofString "\x7d\x7d"))
      = u64Text val ++ join later (ofString "\x7d\x7d") := by
    rw [hcons, List.cons_append, dropQuote, if_neg]
    rintro rfl
    exact absurd hb (by decide)
  rw [decimalField_bboText h, List.nil_append, hquote, readDecimal_of_digit,
    readUnsigned_integer hdigits hne (ends_bboText (lookup_suffix h)), hvalue]
  rw [hcons]
  exact ⟨b, _, rfl, hb⟩

lemma decimalField_u16Text {bbo : NormalizedBbo} {key : String} {val : UInt16}
    {later : List Piece}
    (h : lookup (keyPattern (ofString key)) (bboPieces bbo) = some ([], u64Text val.toUInt64, later)) :
    decimalField (bboText bbo) key = some (val.toNat : ℚ) := by
  rw [decimalField_u64Text h, UInt16.toNat_toUInt64]

lemma decimalField_u32Text {bbo : NormalizedBbo} {key : String} {val : UInt32}
    {later : List Piece}
    (h : lookup (keyPattern (ofString key)) (bboPieces bbo) = some ([], u64Text val.toUInt64, later)) :
    decimalField (bboText bbo) key = some (val.toNat : ℚ) := by
  rw [decimalField_u64Text h, UInt32.toNat_toUInt64]

/-- The value of a fixed-point text without its sign. -/
lemma readUnsigned_fixedText (val : UInt64) {rest : List UInt8} (hrest : Ends rest) :
    readUnsigned (u64Text (val / 100000000) ++
      (46 :: (fracDigits (val % 100000000).toNat ++ rest))) = some ((val.toNat : ℚ) / 10 ^ 8) := by
  obtain ⟨hdigits, hne, hvalue⟩ := u64Text_spec (val / 100000000)
  obtain ⟨hfrac, hfracValue⟩ := fracDigits_spec (toNat_fraction_lt val)
  have hread := readUnsigned_fraction hdigits hne hfrac (fun b hb => (hrest b hb).1)
  rw [hvalue, hfracValue, length_fracDigits, UInt64.toNat_div, UInt64.toNat_mod] at hread
  have hsplit := Nat.div_add_mod val.toNat 100000000
  have hexact : (val.toNat : ℚ)
      = 10 ^ 8 * (val.toNat / 100000000 : ℕ) + (val.toNat % 100000000 : ℕ) := by
    exact_mod_cast hsplit.symm
  refine hread.trans ?_
  rw [Option.some.injEq, hexact]
  show ((val.toNat / 100000000 : ℕ) : ℚ) + (val.toNat % 100000000 : ℕ) / 10 ^ 8 = _
  ring

/-- A field printed by `write_fixed_point_8`. -/
lemma scaledField_fixedText {bbo : NormalizedBbo} {key : String} {val : Int64}
    {later : List Piece}
    (h : lookup (keyPattern (ofString key)) (bboPieces bbo) = some ([quote], fixedText val, later)) :
    scaledField (bboText bbo) key = some (val.toInt : ℚ) := by
  have hends := ends_bboText (lookup_suffix h)
  -- the absolute value of the smallest `i64` still fits the unsigned word
  have habs : ((unsignedAbs val).toNat : ℤ) = |val.toInt| := by
    rw [toNat_unsignedAbs, Int.natCast_natAbs]
  have hread := readUnsigned_fixedText (unsignedAbs val) hends
  have hquote : ∀ rest, dropQuote (quote :: rest) = rest := by
    intro rest
    rw [dropQuote, if_pos rfl]
  have hiff : val < 0 ↔ val.toInt < 0 := Int64.lt_iff_toInt_lt
  have hcast : ((unsignedAbs val).toNat : ℚ) = ((|val.toInt| : ℤ) : ℚ) := by
    exact_mod_cast congrArg (Int.cast : ℤ → ℚ) habs
  unfold scaledField
  rw [decimalField_bboText h, List.singleton_append, hquote, fixedText]
  by_cases hneg : val < 0
  · rw [if_pos hneg, List.singleton_append, List.cons_append, List.append_assoc, List.cons_append]
    have hsigned := readDecimal_minus (u64Text (unsignedAbs val / 100000000) ++
      (46 :: (fracDigits (unsignedAbs val % 100000000).toNat
        ++ join later (ofString "\x7d\x7d"))))
    rw [hread, Option.map_some, hcast, abs_of_neg (hiff.mp hneg)] at hsigned
    refine (congrArg (Option.map (· * 10 ^ 8)) hsigned).trans ?_
    rw [Option.map_some, Option.some.injEq]
    push_cast
    ring
  · rw [if_neg hneg, List.nil_append, List.append_assoc, List.cons_append]
    have hdigit : ∃ b rest, u64Text (unsignedAbs val / 100000000) ++
        (46 :: (fracDigits (unsignedAbs val % 100000000).toNat
          ++ join later (ofString "\x7d\x7d"))) = b :: rest ∧ isDigit b = true := by
      obtain ⟨hdigits, hne, -⟩ := u64Text_spec (unsignedAbs val / 100000000)
      obtain ⟨b, rest, hcons, hb⟩ := exists_cons_of_allDigits hdigits hne
      rw [hcons]
      exact ⟨b, _, rfl, hb⟩
    rw [readDecimal_of_digit hdigit, hread, Option.map_some, hcast,
      abs_of_nonneg (not_lt.mp (mt hiff.mpr hneg)), Option.some.injEq]
    ring

/-! ## Agreement -/

/-- A quantity is printed as a signed number. -/
lemma toInt_toInt64_eq_iff (qty : UInt64) :
    qty.toInt64.toInt = qty.toNat ↔ qty.toNat < 2 ^ 63 := by
  have hlt := qty.toNat_lt
  rw [FixedWidth.toInt_toInt64]
  split <;> omega

lemma scaledField_qty_iff {bbo : NormalizedBbo} {key : String} {qty : UInt64}
    {later : List Piece}
    (h : lookup (keyPattern (ofString key)) (bboPieces bbo)
      = some ([quote], fixedText qty.toInt64, later)) :
    scaledField (bboText bbo) key = some (qty.toNat : ℚ) ↔ qty.toNat < 2 ^ 63 := by
  rw [scaledField_fixedText h, Option.some.injEq, ← toInt_toInt64_eq_iff]
  exact_mod_cast Iff.rfl

/-- The text agrees with its own record when the quantities are not read as negative. -/
lemma sameValues_bboText_iff (bbo : NormalizedBbo) :
    SameValues (bboText bbo) bbo ↔ bbo.bidQty.toNat < 2 ^ 63 ∧ bbo.askQty.toNat < 2 ^ 63 := by
  have hbid : scaledField (bboText bbo) "bid_qty" = some (bbo.bidQty.toNat : ℚ) ↔
      bbo.bidQty.toNat < 2 ^ 63 := scaledField_qty_iff rfl
  have hask : scaledField (bboText bbo) "ask_qty" = some (bbo.askQty.toNat : ℚ) ↔
      bbo.askQty.toNat < 2 ^ 63 := scaledField_qty_iff rfl
  constructor
  · intro h
    -- the quantities are the two fields that are printed as signed numbers
    exact ⟨hbid.mp h.bidQty, hask.mp h.askQty⟩
  · rintro ⟨hbidQty, haskQty⟩
    exact
      { marketId := decimalField_u32Text rfl
        venue := decimalField_u16Text rfl
        chain := decimalField_u16Text rfl
        sequence := decimalField_u64Text rfl
        bidPrice := scaledField_fixedText rfl
        bidQty := hbid.mpr hbidQty
        askPrice := scaledField_fixedText rfl
        askQty := hask.mpr haskQty
        spreadBps := decimalField_u16Text rfl
        flags := decimalField_u16Text rfl
        t0 := decimalField_u64Text rfl
        t1 := decimalField_u64Text rfl
        t2 := decimalField_u64Text rfl
        t3 := decimalField_u64Text rfl }

/-- Whatever buffers the two formats are written to, the text has the values that the message
decodes to. -/
def FormatsAgree (bbo : NormalizedBbo) : Prop :=
  ∀ jsonOut jsonLen, (serializeBboJson bbo jsonOut).1 = .ok jsonLen →
    ∀ sbeOut sbeLen, (Sbe.encodeBboSbe bbo sbeOut).1 = .ok sbeLen →
      ∃ decoded, Sbe.decodeBboSbe ((Sbe.encodeBboSbe bbo sbeOut).2.take sbeLen) = .ok decoded ∧
        SameValues ((serializeBboJson bbo jsonOut).2.take jsonLen) decoded

lemma take_serializeBboJson {bbo : NormalizedBbo} {out : List UInt8} {n : ℕ}
    (h : (serializeBboJson bbo out).1 = .ok n) :
    (serializeBboJson bbo out).2.take n = bboText bbo := by
  obtain ⟨hroom, hfull⟩ := serializes_bboJson bbo out
  by_cases hlen : (bboText bbo).length ≤ out.length
  · obtain ⟨hok, htake⟩ := hroom hlen
    rw [hok] at h
    cases h
    exact htake
  · obtain ⟨e, he⟩ := hfull (by omega)
    rw [he] at h
    cases h

lemma decode_encodeBboSbe {bbo : NormalizedBbo} {out : List UInt8} {n : ℕ}
    (h : (Sbe.encodeBboSbe bbo out).1 = .ok n) :
    Sbe.decodeBboSbe ((Sbe.encodeBboSbe bbo out).2.take n) = .ok bbo := by
  by_cases hlen : Sbe.totalSbeBboLen ≤ out.length
  · have hdecode := Sbe.decodeBboSbe_pack bbo []
    rw [List.append_nil] at hdecode
    rw [Sbe.encodeBboSbe_eq hlen] at h ⊢
    cases h
    have hmessage : (pack (Sbe.bboFields bbo) ++ out.drop 92).take Sbe.totalSbeBboLen
        = pack (Sbe.bboFields bbo) := List.take_left' (Sbe.length_pack_bboFields bbo)
    dsimp only
    rw [hmessage, hdecode]
  · rw [Sbe.encodeBboSbe, if_pos (by omega)] at h
    cases h

/-- The buffers of the router have room for both formats. -/
lemma sameValues_of_formatsAgree {bbo : NormalizedBbo} (h : FormatsAgree bbo) :
    SameValues (bboText bbo) bbo := by
  have hlen := length_bboText_le bbo
  obtain ⟨hjson, -⟩ := (serializes_bboJson bbo (List.replicate 512 0)).1 (by
    rw [List.length_replicate]
    omega)
  have hroom : Sbe.totalSbeBboLen ≤ (List.replicate 92 (0 : UInt8)).length := by
    rw [List.length_replicate]
    exact Nat.le_refl _
  have hsbe : (Sbe.encodeBboSbe bbo (List.replicate 92 0)).1 = .ok Sbe.totalSbeBboLen := by
    rw [Sbe.encodeBboSbe_eq hroom]
  obtain ⟨decoded, hdecode, hsame⟩ := h _ _ hjson _ _ hsbe
  rw [decode_encodeBboSbe hsbe] at hdecode
  cases hdecode
  rwa [take_serializeBboJson hjson] at hsame

/-- Both formats carry the same values exactly when both quantities fit a signed word. -/
theorem formats_agree_iff (bbo : NormalizedBbo) :
    FormatsAgree bbo ↔ bbo.bidQty.toNat < 2 ^ 63 ∧ bbo.askQty.toNat < 2 ^ 63 := by
  rw [← sameValues_bboText_iff]
  constructor
  · exact sameValues_of_formatsAgree
  · intro h jsonOut jsonLen hjson sbeOut sbeLen hsbe
    refine ⟨bbo, decode_encodeBboSbe hsbe, ?_⟩
    rwa [take_serializeBboJson hjson]

/-- A record with a bid quantity of `2 ^ 63`. -/
def largeBid : NormalizedBbo := { bidQty := 0x8000000000000000 }

/-- In the text the quantity is `-92233720368.54775808`. -/
theorem large_quantity_negative :
    scaledField (bboText largeBid) "bid_qty" = some (-2 ^ 63) ∧ ¬ FormatsAgree largeBid := by
  constructor
  · have hfield : scaledField (bboText largeBid) "bid_qty"
        = some ((largeBid.bidQty.toInt64.toInt : ℤ) : ℚ) := scaledField_fixedText rfl
    rw [hfield, show largeBid.bidQty.toInt64.toInt = -2 ^ 63 by decide]
    norm_num
  · intro h
    have hsame := sameValues_of_formatsAgree h
    rw [sameValues_bboText_iff] at hsame
    exact absurd hsame.1 (by decide)

end WireFormats
end ChainMarketPrice.Distribution
