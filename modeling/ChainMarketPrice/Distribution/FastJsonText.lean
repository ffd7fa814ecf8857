import ChainMarketPrice.Lib.Decimal
import ChainMarketPrice.Lib.TextPieces
import ChainMarketPrice.Distribution.FastJsonTheorems

/-!
# The texts of the JSON writer

The digits that the table-driven printers collect are those of the number (`u64Text_spec`,
`fracDigits_spec`), and an object is the literals of the source with the texts of its
fields between them (`prints_bboJson`, `prints_tradeJson`).
-/

namespace ChainMarketPrice.Distribution
namespace FastJson

open Bytes FastJsonWriter Text

/-! ## Pairs of digits -/

/-- The two digits of a number below one hundred. -/
def pair (rem : ℕ) : List UInt8 :=
  [decDigitsLut.getD (rem * 2) 0, decDigitsLut.getD (rem * 2 + 1) 0]

lemma pair_eq : ∀ rem : Fin 100, (pair rem).all isDigit = true ∧ decimalValue (pair rem) = rem := by
  decide +kernel

lemma allDigits_pair {rem : ℕ} (h : rem < 100) : AllDigits (pair rem) :=
  List.all_eq_true.mp (pair_eq ⟨rem, h⟩).1

lemma decimalValue_pair {rem : ℕ} (h : rem < 100) : decimalValue (pair rem) = rem :=
  (pair_eq ⟨rem, h⟩).2

/-- A pair goes right in front of the digits so far. -/
lemma drop_putPair {temp : List UInt8} {idx : ℕ} (rem : ℕ) (h : idx + 2 ≤ temp.length) :
    (putPair temp idx rem).drop idx = pair rem ++ temp.drop (idx + 2) := by
  have hfirst : idx < (putPair temp idx rem).length := by
    rw [length_putPair]
    omega
  have hsecond : idx + 1 < (putPair temp idx rem).length := by
    rw [length_putPair]
    omega
  rw [List.drop_eq_getElem_cons hfirst, List.drop_eq_getElem_cons hsecond]
  have hrest : (putPair temp idx rem).drop (idx + 1 + 1) = temp.drop (idx + 2) := by
    rw [putPair, List.drop_set_of_lt (by omega), List.drop_set_of_lt (by omega)]
  rw [hrest]
  simp [putPair, pair]

/-- The digits from `idx` on, with a number still to be put in front of them. -/
structure Collected (total val : ℕ) (temp : List UInt8) (idx : ℕ) : Prop where
  room : val < 10 ^ idx
  inside : idx ≤ temp.length
  digits : AllDigits (temp.drop idx)
  value : val * 10 ^ (temp.length - idx) + decimalValue (temp.drop idx) = total

/-- A number that is left has room for its last digit. -/
lemma Collected.one_le {total val : ℕ} {temp : List UInt8} {idx : ℕ}
    (h : Collected total val temp idx) (hval : 0 < val) : 1 ≤ idx := by
  by_contra hzero
  have hroom := h.room
  rw [show idx = 0 by omega] at hroom
  omega

/-- A number of two digits or more has room for two of them. -/
lemma Collected.two_le {total val : ℕ} {temp : List UInt8} {idx : ℕ}
    (h : Collected total val temp idx) (hval : 10 ≤ val) : 2 ≤ idx := by
  by_contra hlt
  have hten : 10 ^ idx ≤ 10 ^ 1 := Nat.pow_le_pow_right (by decide) (by omega)
  have hroom := h.room
  omega

/-- One turn of either loop. -/
lemma Collected.putPair {total val : ℕ} {temp : List UInt8} {idx : ℕ}
    (h : Collected total val temp idx) (hidx : 2 ≤ idx) :
    Collected total (val / 100) (putPair temp (idx - 2) (val % 100)) (idx - 2) := by
  obtain ⟨i, rfl⟩ : ∃ i, idx = i + 2 := ⟨idx - 2, by omega⟩
  obtain ⟨hroom, hinside, hdigits, hvalue⟩ := h
  have hrem : val % 100 < 100 := Nat.mod_lt _ (by decide)
  rw [Nat.add_sub_cancel]
  have hdrop := drop_putPair (val % 100) hinside
  constructor
  · rw [Nat.div_lt_iff_lt_mul (by decide)]
    rwa [pow_add] at hroom
  · rw [length_putPair]
    omega
  · rw [hdrop]
    exact (allDigits_pair hrem).append hdigits
  · rw [hdrop, length_putPair, decimalValue_append, decimalValue_pair hrem, List.length_drop,
      ← hvalue]
    have hhundred : 10 ^ 2 = 100 := by decide
    have hpow : 10 ^ (temp.length - i) = 100 * 10 ^ (temp.length - (i + 2)) := by
      rw [show temp.length - i = 2 + (temp.length - (i + 2)) by omega, pow_add, hhundred]
    have hval : val = val / 100 * 100 + val % 100 := (Nat.div_add_mod' val 100).symm
    -- what is still to be printed loses the pair that the digits gain
    calc val / 100 * 10 ^ (temp.length - i) +
          (val % 100 * 10 ^ (temp.length - (i + 2)) + decimalValue (temp.drop (i + 2)))
        = (val / 100 * 100 + val % 100) * 10 ^ (temp.length - (i + 2))
            + decimalValue (temp.drop (i + 2)) := by
          rw [hpow]
          ring
      _ = val * 10 ^ (temp.length - (i + 2)) + decimalValue (temp.drop (i + 2)) := by rw [← hval]

/-! ## Integers -/

/-- The loop of `write_u64` leaves a number below one hundred. -/
lemma pairLoop_spec {total : ℕ} : ∀ (fuel val : ℕ) (temp : List UInt8) (idx : ℕ),
    val < 100 ^ (fuel + 1) → 0 < val → Collected total val temp idx →
    (pairLoop fuel val temp idx).1 < 100 ∧ 0 < (pairLoop fuel val temp idx).1 ∧
      Collected total (pairLoop fuel val temp idx).1 (pairLoop fuel val temp idx).2.1
        (pairLoop fuel val temp idx).2.2 := by
  intro fuel
  induction fuel with
  | zero =>
    intro val temp idx hval hpos h
    exact ⟨hval, hpos, h⟩
  | succ fuel ih =>
    intro val temp idx hval hpos h
    rw [pairLoop]
    by_cases hloop : val ≥ 100
    · rw [if_pos hloop]
      apply ih
      · rw [Nat.div_lt_iff_lt_mul (by decide)]
        rwa [pow_succ] at hval
      · omega
      · exact h.putPair (h.two_le (by omega))
    · rw [if_neg hloop]
      exact ⟨by omega, hpos, h⟩

lemma digit_eq : ∀ n : Fin 10,
    isDigit (48 + UInt8.ofNat n) = true ∧ decimalValue [48 + UInt8.ofNat n] = n := by
  decide +kernel

/-- The last digit goes right in front of the others. -/
lemma drop_set_pred {temp : List UInt8} {idx : ℕ} (hidx : 1 ≤ idx) (h : idx ≤ temp.length)
    (b : UInt8) : (temp.set (idx - 1) b).drop (idx - 1) = [b] ++ temp.drop idx := by
  have hin : idx - 1 < (temp.set (idx - 1) b).length := by
    rw [List.length_set]
    omega
  rw [List.drop_eq_getElem_cons hin, List.getElem_set_self, List.drop_set_of_lt (by omega),
    Nat.sub_add_cancel hidx]
  rfl

/-- The scratch buffer before the loop, and the number that is to go into it. -/
lemma collected_start {val : UInt64} (hval : val ≠ 0) :
    0 < val.toNat ∧ val.toNat < 100 ^ (10 + 1) ∧
      Collected val.toNat val.toNat (List.replicate 20 0) 20 := by
  have hlt := val.toNat_lt
  have hpos : 0 < val.toNat := by
    rw [Nat.pos_iff_ne_zero]
    exact fun hzero => hval (UInt64.toNat_inj.mp hzero)
  refine ⟨hpos, by omega, by omega, by simp, ?_, ?_⟩
  · intro b hb
    simp at hb
  · simp [decimalValue]

/-- The first of the two digits of a number of two digits is not zero. -/
lemma head_pair {n : ℕ} (hten : 10 ≤ n) (hlt : n < 100) (rest : List UInt8) :
    (pair n ++ rest).head? ≠ some 48 := by
  have hpair : ∀ rem : Fin 100, 10 ≤ rem.val → (pair rem).head? ≠ some 48 := by decide +kernel
  rw [List.head?_append_of_ne_nil _ (by simp [pair])]
  exact hpair ⟨n, hlt⟩ hten

/-- The digits of a number that is not zero. -/
lemma u64Digits_spec {val : UInt64} (hval : val ≠ 0) :
    AllDigits (u64Digits val) ∧ u64Digits val ≠ [] ∧ decimalValue (u64Digits val) = val.toNat ∧
      (u64Digits val).head? ≠ some 48 := by
  obtain ⟨hpos, hlt, hstart⟩ := collected_start hval
  obtain ⟨hsmall, hleft, hend⟩ :=
    pairLoop_spec 10 val.toNat (List.replicate 20 0) 20 hlt hpos hstart
  unfold u64Digits
  dsimp only
  generalize (pairLoop 10 val.toNat (List.replicate 20 0) 20).1 = n at hsmall hleft hend ⊢
  generalize (pairLoop 10 val.toNat (List.replicate 20 0) 20).2.1 = temp at hend ⊢
  generalize (pairLoop 10 val.toNat (List.replicate 20 0) 20).2.2 = idx at hend ⊢
  -- what is left has one digit or two
  by_cases hone : n < 10
  · have hdigit := digit_eq ⟨n, hone⟩
    have hfirst : ∀ n : Fin 10, 0 < n.val → (48 : UInt8) + UInt8.ofNat n ≠ 48 := by decide
    rw [if_pos hone, drop_set_pred (hend.one_le hleft) hend.inside]
    refine ⟨(allDigits_singleton hdigit.1).append hend.digits, by simp, ?_, ?_⟩
    · rw [decimalValue_append, hdigit.2, List.length_drop]
      exact hend.value
    · rw [List.singleton_append, List.head?_cons, Ne, Option.some_inj]
      exact hfirst ⟨n, hone⟩ hleft
  · have hidx := hend.two_le (show 10 ≤ n by omega)
    have hinside := hend.inside
    have hdrop := drop_putPair n (show idx - 2 + 2 ≤ temp.length by omega)
    rw [Nat.sub_add_cancel hidx] at hdrop
    rw [if_neg hone, hdrop]
    refine ⟨(allDigits_pair hsmall).append hend.digits, by simp [pair], ?_, ?_⟩
    · rw [decimalValue_append, decimalValue_pair hsmall, List.length_drop]
      exact hend.value
    · exact head_pair (by omega) hsmall _

/-- The text of a 64-bit number is its decimal. -/
lemma u64Text_spec (val : UInt64) :
    AllDigits (u64Text val) ∧ u64Text val ≠ [] ∧ decimalValue (u64Text val) = val.toNat := by
  unfold u64Text
  by_cases hzero : val = 0
  · rw [if_pos hzero, hzero]
    exact ⟨allDigits_singleton (by decide), by simp, rfl⟩
  · rw [if_neg hzero]
    obtain ⟨hdigits, hne, hvalue, -⟩ := u64Digits_spec hzero
    exact ⟨hdigits, hne, hvalue⟩

/-! ## Fractions -/

/-- Digits behind zeros. -/
lemma zeros_append {total idx : ℕ} {fracBuf : List UInt8} (h : Collected total 0 fracBuf idx)
    (hzeros : fracBuf.take idx = List.replicate idx 48) :
    AllDigits fracBuf ∧ decimalValue fracBuf = total := by
  have hzero := zeros_spec idx
  have hsplit : fracBuf = List.replicate idx 48 ++ fracBuf.drop idx := by
    rw [← hzeros, List.take_append_drop]
  constructor
  · rw [hsplit]
    exact hzero.1.append h.digits
  · have hvalue := h.value
    rw [hsplit, decimalValue_append, hzero.2, Nat.zero_mul, Nat.zero_add]
    rwa [Nat.zero_mul, Nat.zero_add] at hvalue

/-- The loop of `write_fixed_point_8` uses the fraction up. -/
lemma fracLoop_spec {total : ℕ} : ∀ (fuel frac : ℕ) (fracBuf : List UInt8) (idx : ℕ),
    idx = 2 * fuel → Collected total frac fracBuf idx →
    fracBuf.take idx = List.replicate idx 48 →
    (fracLoop fuel frac fracBuf idx).1 = 0 ∧ AllDigits (fracLoop fuel frac fracBuf idx).2.1 ∧
      decimalValue (fracLoop fuel frac fracBuf idx).2.1 = total := by
  intro fuel
  induction fuel with
  | zero =>
    intro frac fracBuf idx hidx h hzeros
    -- no place is left, so nothing is left to print
    have hfrac : frac = 0 := by
      have hroom := h.room
      rw [hidx] at hroom
      omega
    rw [hfrac] at h ⊢
    exact ⟨rfl, zeros_append h hzeros⟩
  | succ fuel ih =>
    intro frac fracBuf idx hidx h hzeros
    rw [fracLoop]
    by_cases hloop : frac > 0 ∧ idx ≥ 2
    · rw [if_pos hloop]
      apply ih
      · omega
      · exact h.putPair hloop.2
      · have htake := congrArg (List.take (idx - 2)) hzeros
        rw [List.take_take, Nat.min_eq_left (by omega), List.take_replicate,
          Nat.min_eq_left (by omega)] at htake
        rw [putPair, List.take_set_of_le (by omega), List.take_set_of_le (Nat.le_refl _), htake]
    · rw [if_neg hloop]
      have hfrac : frac = 0 := by omega
      rw [hfrac] at h ⊢
      exact ⟨rfl, zeros_append h hzeros⟩

/-- Eight digits with the value of the fraction. -/
lemma fracDigits_spec {fracPart : ℕ} (h : fracPart < 10 ^ 8) :
    AllDigits (fracDigits fracPart) ∧ decimalValue (fracDigits fracPart) = fracPart := by
  have hstart : Collected fracPart fracPart (List.replicate 8 48) 8 := by
    refine ⟨h, by simp, ?_, ?_⟩
    · intro b hb
      simp at hb
    · simp [decimalValue]
  obtain ⟨hzero, hspec⟩ := fracLoop_spec 4 fracPart (List.replicate 8 48) 8 rfl hstart rfl
  unfold fracDigits
  dsimp only
  rw [hzero, if_neg (fun hpos => absurd hpos.1 (Nat.lt_irrefl 0))]
  exact hspec

/-! ## Fixed-point numbers -/

/-- The magnitude of an `i64`, that of the smallest one included. -/
lemma toNat_unsignedAbs (val : Int64) : (unsignedAbs val).toNat = val.toInt.natAbs := by
  have hlt := val.toInt_lt
  have hle := val.le_toInt
  exact UInt64.toNat_ofNat_of_lt' (by show val.toInt.natAbs < 2 ^ 64; omega)

/-- The fraction of a fixed-point number is below one. -/
lemma toNat_fraction_lt (val : UInt64) : (val % 100000000).toNat < 10 ^ 8 := by
  rw [UInt64.toNat_mod]
  exact Nat.mod_lt _ (by decide)

/-- A sign, the integer part, the point and eight digits. -/
def fixedText (val : Int64) : List UInt8 :=
  (if val < 0 then [45] else []) ++
    (u64Text (unsignedAbs val / 100000000) ++
      (46 :: fracDigits (unsignedAbs val % 100000000).toNat))

/-- `m` appends the bytes, and fails if there is no room for them. -/
structure Prints (m : JsonM Unit) (bytes : List UInt8) : Prop where
  writes : Writes m bytes
  fails : ∀ w : FastJsonWriter, w.pos ≤ w.buf.length → w.buf.length < w.pos + bytes.length →
    ∃ e w', m w = .error e w'

lemma prints_writeBytes (bytes : List UInt8) : Prints (writeBytes bytes) bytes where
  writes := writes_writeBytes bytes
  fails := fun w _ hfull => by
    rw [writeBytes, if_pos hfull]
    exact ⟨_, _, rfl⟩

lemma prints_writeByte (b : UInt8) : Prints (writeByte b) [b] where
  writes := writes_writeByte b
  fails := fun w _ hfull => by
    rw [List.length_singleton] at hfull
    rw [writeByte, if_pos (by omega)]
    exact ⟨_, _, rfl⟩

lemma prints_pure : Prints (pure ()) [] where
  writes := fun w _ => ⟨w, rfl, rfl, rfl, (List.append_nil _).symm⟩
  fails := fun w hpos hfull => by
    rw [List.length_nil] at hfull
    omega

lemma Prints.bind {m m' : JsonM Unit} {bytes bytes' : List UInt8} (h : Prints m bytes)
    (h' : Prints m' bytes') : Prints (m >>= fun _ => m') (bytes ++ bytes') := by
  constructor
  · intro w hw
    rw [List.length_append] at hw
    obtain ⟨w1, hm, hlen1, hpos1, htext1⟩ := h.writes w (by omega)
    obtain ⟨w2, hm', hlen2, hpos2, htext2⟩ := h'.writes w1 (by omega)
    refine ⟨w2, ?_, hlen2.trans hlen1, ?_, ?_⟩
    · show EStateM.bind m (fun _ => m') w = .ok () w2
      rw [EStateM.bind, hm]
      exact hm'
    · rw [List.length_append]
      omega
    · rw [htext2, htext1, List.append_assoc]
  · intro w hpos hfull
    rw [List.length_append] at hfull
    show ∃ e w', EStateM.bind m (fun _ => m') w = .error e w'
    unfold EStateM.bind
    -- the first writer has room or not, and what fits it may still be too much for both
    by_cases hroom : w.pos + bytes.length ≤ w.buf.length
    · obtain ⟨w1, hm, hlen1, hpos1, -⟩ := h.writes w hroom
      obtain ⟨e, w2, hm'⟩ := h'.fails w1 (by omega) (by omega)
      rw [hm]
      exact ⟨e, w2, hm'⟩
    · obtain ⟨e, w1, hm⟩ := h.fails w hpos (by omega)
      rw [hm]
      exact ⟨e, w1, rfl⟩

lemma prints_writeU64 (val : UInt64) : Prints (writeU64 val) (u64Text val) := by
  unfold writeU64 u64Text
  split
  · exact prints_writeByte 48
  · exact prints_writeBytes _

lemma prints_writeFixedPoint8 (val : Int64) : Prints (writeFixedPoint8 val) (fixedText val) := by
  have htail : Prints (do
      writeU64 (unsignedAbs val / 100000000)
      writeByte 46
      writeBytes (fracDigits (unsignedAbs val % 100000000).toNat))
      (u64Text (unsignedAbs val / 100000000) ++
        ([46] ++ fracDigits (unsignedAbs val % 100000000).toNat)) :=
    (prints_writeU64 _).bind ((prints_writeByte _).bind (prints_writeBytes _))
  unfold writeFixedPoint8 fixedText
  by_cases hneg : val < 0
  · rw [if_pos hneg, if_pos hneg]
    exact (prints_writeByte 45).bind htail
  · rw [if_neg hneg, if_neg hneg]
    exact prints_pure.bind htail

/-! ## Objects -/

/-- The literals of `serialize_bbo_json` with the numbers behind them. -/
def bboPieces (bbo : NormalizedBbo) : List Piece :=
  [⟨ofString "\x7b\"type\":\"bbo\",\"market_id\":", u64Text bbo.marketId.toUInt64⟩,
    ⟨ofString ",\"venue\":", u64Text bbo.venue.toUInt64⟩,
    ⟨ofString ",\"chain\":", u64Text bbo.chain.toUInt64⟩,
    ⟨ofString ",\"sequence\":", u64Text bbo.sequence⟩,
    ⟨ofString ",\"bid_px\":\"", fixedText bbo.bidPrice⟩,
    ⟨ofString "\",\"bid_qty\":\"", fixedText bbo.bidQty.toInt64⟩,
    ⟨ofString "\",\"ask_px\":\"", fixedText bbo.askPrice⟩,
    ⟨ofString "\",\"ask_qty\":\"", fixedText bbo.askQty.toInt64⟩,
    ⟨ofString "\",\"spread_bps\":", u64Text bbo.spreadBps.toUInt64⟩,
    ⟨ofString ",\"flags\":", u64Text bbo.flags.toUInt64⟩,
    ⟨ofString ",\"telemetry\":\x7b\"t0\":", u64Text bbo.telemetry.t0ExchangeNs⟩,
    ⟨ofString ",\"t1\":", u64Text bbo.telemetry.t1IngestNicNs⟩,
    ⟨ofString ",\"t2\":", u64Text bbo.telemetry.t2EngineProcNs⟩,
    ⟨ofString ",\"t3\":", u64Text bbo.telemetry.t3EgressNs⟩]

/-- The JSON of a best bid and offer. -/
def bboText (bbo : NormalizedBbo) : List UInt8 := join (bboPieces bbo) (ofString "\x7d\x7d")

lemma prints_bboJson (bbo : NormalizedBbo) : Prints (bboJson bbo) (bboText bbo) := by
  unfold bboJson bboText
  simp only [bboPieces, join, List.foldr_cons, List.foldr_nil]
  repeat
    first
    | exact prints_writeBytes _
    | apply Prints.bind (prints_writeBytes _)
    | apply Prints.bind (prints_writeU64 _)
    | apply Prints.bind (prints_writeFixedPoint8 _)

/-- The JSON of a trade. -/
def tradeText (trade : UnifiedTrade) : List UInt8 :=
  join
    [⟨ofString "\x7b\"type\":\"trade\",\"market_id\":", u64Text trade.marketId.toUInt64⟩,
      ⟨ofString ",\"venue\":", u64Text trade.venue.toUInt64⟩,
      ⟨ofString ",\"chain\":", u64Text trade.chain.toUInt64⟩,
      ⟨ofString ",\"sequence\":", u64Text trade.sequence⟩,
      ⟨ofString ",\"trade_id\":", u64Text trade.tradeId⟩,
      ⟨ofString ",\"price\":\"", fixedText trade.price⟩,
      ⟨ofString "\",\"size\":\"", fixedText trade.size.toInt64⟩,
      ⟨ofString "\",\"side\":", u64Text trade.side.toUInt64⟩,
      ⟨ofString ",\"is_liquidation\":",
        ofString (if trade.isLiquidation then "true" else "false")⟩,
      ⟨ofString ",\"telemetry\":\x7b\"t0\":", u64Text trade.telemetry.t0ExchangeNs⟩,
      ⟨ofString ",\"t1\":", u64Text trade.telemetry.t1IngestNicNs⟩,
      ⟨ofString ",\"t2\":", u64Text trade.telemetry.t2EngineProcNs⟩,
      ⟨ofString ",\"t3\":", u64Text trade.telemetry.t3EgressNs⟩]
    (ofString "\x7d\x7d")

lemma prints_tradeJson (trade : UnifiedTrade) : Prints (tradeJson trade) (tradeText trade) := by
  unfold tradeJson tradeText
  simp only [join, List.foldr_cons, List.foldr_nil]
  repeat
    first
    | exact prints_writeBytes _
    | apply Prints.bind (prints_writeBytes _)
    | apply Prints.bind (prints_writeU64 _)
    | apply Prints.bind (prints_writeFixedPoint8 _)

/-- What is written is no longer than what fits. -/
lemma Writes.length_le {m : JsonM Unit} {bytes : List UInt8} {n : ℕ} (h : Writes m bytes)
    (hfits : Fits m n) : bytes.length ≤ n := by
  have hlen : (FastJsonWriter.new (List.replicate (bytes.length + n) 0)).buf.length
      = bytes.length + n := List.length_replicate
  have hzero : (FastJsonWriter.new (List.replicate (bytes.length + n) 0)).pos = 0 := rfl
  obtain ⟨w, hm, -, hpos, -⟩ :=
    h (FastJsonWriter.new (List.replicate (bytes.length + n) 0)) (by omega)
  obtain ⟨a, w', hm', -, hpos'⟩ :=
    hfits (FastJsonWriter.new (List.replicate (bytes.length + n) 0)) (by omega)
  rw [hm] at hm'
  cases hm'
  omega

lemma length_bboText_le (bbo : NormalizedBbo) : (bboText bbo).length ≤ 488 :=
  (prints_bboJson bbo).writes.length_le (fits_bboJson bbo)

lemma length_tradeText_le (trade : UnifiedTrade) : (tradeText trade).length ≤ 421 :=
  (prints_tradeJson trade).writes.length_le (fits_tradeJson trade)

/-- A serializer writes the whole text into a buffer with room, and fails on any other. -/
def Serializes (serialize : List UInt8 → Except JsonError ℕ × List UInt8) (text : List UInt8) :
    Prop :=
  ∀ out, (text.length ≤ out.length → (serialize out).1 = .ok text.length ∧
      (serialize out).2.take text.length = text) ∧
    (out.length < text.length → ∃ e, (serialize out).1 = .error e)

lemma Prints.serializes {m : JsonM Unit} {text : List UInt8} (h : Prints m text)
    {serialize : List UInt8 → Except JsonError ℕ × List UInt8}
    (hok : ∀ out w, m (FastJsonWriter.new out) = .ok () w → serialize out = (.ok w.pos, w.buf))
    (herror : ∀ out e w, m (FastJsonWriter.new out) = .error e w →
      serialize out = (.error e, w.buf)) : Serializes serialize text := by
  intro out
  have hzero : (FastJsonWriter.new out).pos = 0 := rfl
  have hbuf : (FastJsonWriter.new out).buf = out := rfl
  constructor
  · intro hroom
    obtain ⟨w, hm, -, hpos, htext⟩ := h.writes (FastJsonWriter.new out) (by rw [hbuf]; omega)
    rw [hzero, Nat.zero_add] at hpos
    rw [hok out w hm, ← hpos]
    exact ⟨rfl, htext⟩
  · intro hfull
    obtain ⟨e, w, hm⟩ :=
      h.fails (FastJsonWriter.new out) (by rw [hzero]; exact Nat.zero_le _) (by rw [hbuf]; omega)
    rw [herror out e w hm]
    exact ⟨e, rfl⟩

lemma serializes_bboJson (bbo : NormalizedBbo) : Serializes (serializeBboJson bbo) (bboText bbo) := by
  apply (prints_bboJson bbo).serializes
  · intro out w hm
    rw [serializeBboJson, hm]
  · intro out e w hm
    rw [serializeBboJson, hm]

lemma serializes_tradeJson (trade : UnifiedTrade) :
    Serializes (serializeTradeJson trade) (tradeText trade) := by
  apply (prints_tradeJson trade).serializes
  · intro out w hm
    rw [serializeTradeJson, hm]
  · intro out e w hm
    rw [serializeTradeJson, hm]

end FastJson
end ChainMarketPrice.Distribution
