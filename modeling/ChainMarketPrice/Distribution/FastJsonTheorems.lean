import ChainMarketPrice.Distribution.FastJson

/-!
# What the JSON writer writes, and the room it needs

`Fits m n` says that `m` succeeds whenever the buffer has `n` bytes left. The bounds of the
single writes add up along a sequence, and the JSON of any best bid and offer needs fewer than
the 512 bytes the router gives it. `Writes m bytes` says what `m` appends.
-/

namespace ChainMarketPrice.Distribution
namespace FastJson

open Bytes FastJsonWriter

/-- `m` succeeds with `n` bytes left, and moves the cursor by at most `n`. -/
def Fits {α : Type} (m : JsonM α) (n : ℕ) : Prop :=
  ∀ w : FastJsonWriter, w.pos + n ≤ w.buf.length →
    ∃ a w', m w = .ok a w' ∧ w'.buf.length = w.buf.length ∧ w'.pos ≤ w.pos + n

lemma Fits.mono {α : Type} {m : JsonM α} {n n' : ℕ} (h : Fits m n) (hn : n ≤ n') : Fits m n' := by
  intro w hw
  obtain ⟨a, w', hm, hlen, hpos⟩ := h w (by omega)
  exact ⟨a, w', hm, hlen, by omega⟩

lemma Fits.bind {α β : Type} {m : JsonM α} {f : α → JsonM β} {n n' : ℕ} (hm : Fits m n)
    (hf : ∀ a, Fits (f a) n') : Fits (m >>= f) (n + n') := by
  intro w hw
  obtain ⟨a, w1, h1, hlen1, hpos1⟩ := hm w (by omega)
  obtain ⟨b, w2, h2, hlen2, hpos2⟩ := hf a w1 (by omega)
  refine ⟨b, w2, ?_, by omega, by omega⟩
  show EStateM.bind m f w = .ok b w2
  rw [EStateM.bind, h1]
  exact h2

lemma fits_pure {α : Type} (a : α) : Fits (pure a : JsonM α) 0 :=
  fun w _ => ⟨a, w, rfl, rfl, Nat.le_refl _⟩

lemma fits_writeByte (b : UInt8) : Fits (writeByte b) 1 := by
  intro w hw
  refine ⟨(), { buf := w.buf.set w.pos b, pos := w.pos + 1 }, ?_, ?_, Nat.le_refl _⟩
  · rw [writeByte, if_neg (by omega)]
  · simp

lemma fits_writeBytes (bytes : List UInt8) : Fits (writeBytes bytes) bytes.length := by
  intro w hw
  refine ⟨(), { buf := copyAt w.buf w.pos bytes, pos := w.pos + bytes.length }, ?_, ?_,
    Nat.le_refl _⟩
  · rw [writeBytes, if_neg (by omega)]
  · exact length_copyAt hw

lemma fits_writeStr (s : String) : Fits (writeStr s) (ofString s).length := fits_writeBytes _

/-! ## Integers -/

lemma length_putPair (temp : List UInt8) (idx rem : ℕ) :
    (putPair temp idx rem).length = temp.length := by
  simp [putPair]

lemma length_pairLoop : ∀ (fuel val : ℕ) (temp : List UInt8) (idx : ℕ),
    (pairLoop fuel val temp idx).2.1.length = temp.length := by
  intro fuel
  induction fuel with
  | zero => intro val temp idx; rfl
  | succ fuel ih =>
    intro val temp idx
    rw [pairLoop]
    split
    · rw [ih, length_putPair]
    · rfl

lemma length_u64Digits_le (val : UInt64) : (u64Digits val).length ≤ 20 := by
  have hlen := length_pairLoop 10 val.toNat (List.replicate 20 0) 20
  rw [List.length_replicate] at hlen
  unfold u64Digits
  dsimp only
  split
  · rw [List.length_drop, List.length_set, hlen]
    omega
  · rw [List.length_drop, length_putPair, hlen]
    omega

lemma fits_writeU64 (val : UInt64) : Fits (writeU64 val) 20 := by
  rw [writeU64]
  split
  · exact (fits_writeByte _).mono (by decide)
  · exact (fits_writeBytes _).mono (length_u64Digits_le val)

lemma length_fracLoop : ∀ (fuel frac : ℕ) (fracBuf : List UInt8) (idx : ℕ),
    (fracLoop fuel frac fracBuf idx).2.1.length = fracBuf.length := by
  intro fuel
  induction fuel with
  | zero => intro frac fracBuf idx; rfl
  | succ fuel ih =>
    intro frac fracBuf idx
    rw [fracLoop]
    split
    · rw [ih, length_putPair]
    · rfl

lemma length_fracDigits (fracPart : ℕ) : (fracDigits fracPart).length = 8 := by
  have hlen := length_fracLoop 4 fracPart (List.replicate 8 48) 8
  rw [List.length_replicate] at hlen
  unfold fracDigits
  dsimp only
  split
  · rw [List.length_set, hlen]
  · exact hlen

/-- A sign, the integer part, the point and eight digits. -/
lemma fits_writeFixedPoint8 (val : Int64) : Fits (writeFixedPoint8 val) 30 := by
  have htail : Fits (do
      writeU64 (unsignedAbs val / 100000000)
      writeByte 46
      writeBytes (fracDigits (unsignedAbs val % 100000000).toNat)) (20 + (1 + 8)) := by
    refine (fits_writeU64 _).bind fun _ => (fits_writeByte _).bind fun _ => ?_
    exact (fits_writeBytes _).mono (by rw [length_fracDigits])
  rw [writeFixedPoint8]
  split
  · exact (fits_writeByte _).bind fun _ => htail
  · exact ((fits_pure ()).bind fun _ => htail).mono (by decide)

/-! ## The object -/

/-- The JSON of a best bid and offer takes at most 488 bytes. -/
theorem fits_bboJson (bbo : NormalizedBbo) : Fits (bboJson bbo) 488 := by
  apply Fits.mono
  · unfold bboJson
    repeat
      first
      | exact fits_writeStr _
      | apply Fits.bind (fits_writeStr _); intro _
      | apply Fits.bind (fits_writeU64 _); intro _
      | apply Fits.bind (fits_writeFixedPoint8 _); intro _
  · decide

/-- The JSON of a trade takes at most 421 bytes. -/
theorem fits_tradeJson (trade : UnifiedTrade) : Fits (tradeJson trade) 421 := by
  have hflag : Fits (writeStr (if trade.isLiquidation then "true" else "false")) 5 := by
    cases trade.isLiquidation with
    | true => exact (fits_writeStr _).mono (by decide)
    | false => exact (fits_writeStr _).mono (by decide)
  apply Fits.mono
  · unfold tradeJson
    repeat
      first
      | exact fits_writeStr _
      | apply Fits.bind hflag; intro _
      | apply Fits.bind (fits_writeStr _); intro _
      | apply Fits.bind (fits_writeU64 _); intro _
      | apply Fits.bind (fits_writeFixedPoint8 _); intro _
  · decide

/-! ## Contents -/

/-- The bytes written so far. -/
def FastJsonWriter.written (w : FastJsonWriter) : List UInt8 := w.buf.take w.pos

/-- `m` appends `bytes` if there is room for them. -/
def Writes (m : JsonM Unit) (bytes : List UInt8) : Prop :=
  ∀ w : FastJsonWriter, w.pos + bytes.length ≤ w.buf.length →
    ∃ w', m w = .ok () w' ∧ w'.buf.length = w.buf.length ∧ w'.pos = w.pos + bytes.length ∧
      w'.written = w.written ++ bytes

lemma writes_writeBytes (bytes : List UInt8) : Writes (writeBytes bytes) bytes := by
  intro w hw
  refine ⟨{ buf := copyAt w.buf w.pos bytes, pos := w.pos + bytes.length }, ?_, ?_, rfl, ?_⟩
  · rw [writeBytes, if_neg (by omega)]
  · exact length_copyAt hw
  · exact take_copyAt (by omega)

lemma writes_writeByte (b : UInt8) : Writes (writeByte b) [b] := by
  intro w hw
  rw [List.length_singleton] at hw
  refine ⟨{ buf := w.buf.set w.pos b, pos := w.pos + 1 }, ?_, ?_, rfl, ?_⟩
  · rw [writeByte, if_neg (by omega)]
  · simp
  · show (w.buf.set w.pos b).take (w.pos + 1) = w.buf.take w.pos ++ [b]
    have hlt : w.pos < (w.buf.set w.pos b).length := by
      rw [List.length_set]
      omega
    rw [List.take_succ_eq_append_getElem hlt, List.take_set_of_le (Nat.le_refl _),
      List.getElem_set_self]

/-- The decimal digits of a 64-bit number as `write_u64` writes them. -/
def u64Text (val : UInt64) : List UInt8 := if val = 0 then [48] else u64Digits val

lemma length_u64Text_le (val : UInt64) : (u64Text val).length ≤ 20 := by
  unfold u64Text
  split
  · decide
  · exact length_u64Digits_le val

lemma writes_writeU64 (val : UInt64) : Writes (writeU64 val) (u64Text val) := by
  unfold writeU64 u64Text
  split
  · exact writes_writeByte 48
  · exact writes_writeBytes _

end FastJson
end ChainMarketPrice.Distribution
