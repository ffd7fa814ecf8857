import ChainMarketPrice.Lib.Packed
import ChainMarketPrice.Distribution.Sbe

/-!
# SBE messages as packed records

Both encoders write the fields of their message one behind the other from the front of the
buffer on (`encodeBboSbe_eq`, `encodeTradeSbe_eq`), so that the hand-written offsets are those
of a packed record. Round trips, and which buffers a decoder accepts, follow from there.
-/

namespace ChainMarketPrice.Distribution
namespace Sbe

open Bytes

/-! ## Headers -/

/-- The fields of a header. -/
def headerFields (blockLength templateId : UInt16) : List (ℕ × ℕ) :=
  [(2, blockLength.toNat), (2, templateId.toNat), (2, sbeSchemaId.toNat),
    (2, sbeSchemaVersion.toNat)]

lemma written_writeTo (blockLength templateId : UInt16) (out : List UInt8) :
    Written ((SbeMessageHeader.new blockLength templateId).writeTo out)
      (headerFields blockLength templateId) 8 out := by
  have h1 := (Written.nil out).copy 2 blockLength.toNat
  have h2 := h1.copy 2 templateId.toNat
  have h3 := h2.copy 2 sbeSchemaId.toNat
  exact h3.copy 2 sbeSchemaVersion.toNat

lemma readLe_take {buf : List UInt8} {start width n : ℕ} (h : start + width ≤ n) :
    readLe (buf.take n) start width = readLe buf start width := by
  unfold readLe
  rw [List.drop_take, List.take_take, Nat.min_eq_left (by omega)]

lemma readLe_lt (buf : List UInt8) (start width : ℕ) : readLe buf start width < 256 ^ width := by
  have hlt := ofLe_lt ((buf.drop start).take width)
  have hwidth : 256 ^ ((buf.drop start).take width).length ≤ 256 ^ width :=
    Nat.pow_le_pow_right (by decide) (List.length_take_le _ _)
  exact Nat.lt_of_lt_of_le hlt hwidth

lemma ofNat_readLe_eq_iff (buf : List UInt8) (start : ℕ) (x : UInt16) :
    UInt16.ofNat (readLe buf start 2) = x ↔ readLe buf start 2 = x.toNat := by
  have hlt := readLe_lt buf start 2
  rw [← UInt16.toNat_inj, UInt16.toNat_ofNat', Nat.mod_eq_of_lt (show _ < 2 ^ 16 from hlt)]

/-- A buffer is decoded when it is long enough and has the schema and the template of the
message. Block length and version do not matter. -/
lemma decodeMessage_ok_iff {α : Type} {totalLen : ℕ} (hlen : 8 ≤ totalLen) (templateId : UInt16)
    (readFields : List UInt8 → α) (buf : List UInt8) (a : α) :
    decodeMessage totalLen templateId readFields buf = .ok a ↔
      totalLen ≤ buf.length ∧ readLe buf 4 2 = sbeSchemaId.toNat ∧
        readLe buf 2 2 = templateId.toNat ∧ readFields buf = a := by
  unfold decodeMessage
  by_cases hshort : buf.length < totalLen
  · rw [if_pos hshort]
    constructor
    · intro h
      cases h
    · intro h
      omega
  · have height : (buf.take 8).length = 8 := by
      rw [List.length_take]
      omega
    rw [if_neg hshort, SbeMessageHeader.readFrom, height, if_neg (by decide)]
    -- the header is read from the first eight bytes, which are those of the buffer
    simp only [readLe_take (show 0 + 2 ≤ 8 by decide), readLe_take (show 2 + 2 ≤ 8 by decide),
      readLe_take (show 4 + 2 ≤ 8 by decide), readLe_take (show 6 + 2 ≤ 8 by decide),
      ← ofNat_readLe_eq_iff]
    by_cases hschema : UInt16.ofNat (readLe buf 4 2) = sbeSchemaId
    · rw [if_neg (not_not.mpr hschema)]
      by_cases htemplate : UInt16.ofNat (readLe buf 2 2) = templateId
      · dsimp only
        rw [if_neg (not_not.mpr htemplate), Except.ok.injEq]
        exact ⟨fun h => ⟨Nat.le_of_not_lt hshort, hschema, htemplate, h⟩, fun h => h.2.2.2⟩
      · dsimp only
        rw [if_pos htemplate]
        constructor
        · intro h
          cases h
        · intro h
          exact absurd h.2.2.1 htemplate
    · rw [if_pos hschema]
      constructor
      · intro h
        cases h
      · intro h
        exact absurd h.2.1 hschema

/-! ## The bytes of a best bid and offer -/

def bboFields (bbo : NormalizedBbo) : List (ℕ × ℕ) :=
  headerFields blockLengthBbo templateIdBbo ++
    [(8, bbo.telemetry.t0ExchangeNs.toNat), (8, bbo.telemetry.t1IngestNicNs.toNat),
      (8, bbo.telemetry.t2EngineProcNs.toNat), (8, bbo.telemetry.t3EgressNs.toNat),
      (2, bbo.venue.toNat), (2, bbo.chain.toNat), (4, bbo.marketId.toNat),
      (8, bbo.sequence.toNat), (8, bbo.bidPrice.toUInt64.toNat), (8, bbo.bidQty.toNat),
      (8, bbo.askPrice.toUInt64.toNat), (8, bbo.askQty.toNat), (2, bbo.spreadBps.toNat),
      (2, bbo.flags.toNat)]

/-- A buffer with room gets the packed fields, and keeps what is behind them. -/
lemma encodeBboSbe_eq {bbo : NormalizedBbo} {out : List UInt8} (h : totalSbeBboLen ≤ out.length) :
    encodeBboSbe bbo out = (.ok totalSbeBboLen, pack (bboFields bbo) ++ out.drop 92) := by
  unfold encodeBboSbe
  rw [if_neg (by omega)]
  have h0 := written_writeTo blockLengthBbo templateIdBbo out
  have h1 := h0.copy 8 bbo.telemetry.t0ExchangeNs.toNat
  have h2 := h1.copy 8 bbo.telemetry.t1IngestNicNs.toNat
  have h3 := h2.copy 8 bbo.telemetry.t2EngineProcNs.toNat
  have h4 := h3.copy 8 bbo.telemetry.t3EgressNs.toNat
  have h5 := h4.copy 2 bbo.venue.toNat
  have h6 := h5.copy 2 bbo.chain.toNat
  have h7 := h6.copy 4 bbo.marketId.toNat
  have h8 := h7.copy 8 bbo.sequence.toNat
  have h9 := h8.copy 8 bbo.bidPrice.toUInt64.toNat
  have h10 := h9.copy 8 bbo.bidQty.toNat
  have h11 := h10.copy 8 bbo.askPrice.toUInt64.toNat
  have h12 := h11.copy 8 bbo.askQty.toNat
  have h13 := h12.copy 2 bbo.spreadBps.toNat
  have h14 := h13.copy 2 bbo.flags.toNat
  simp only [List.append_assoc, List.cons_append, List.nil_append] at h14
  exact congrArg _ h14.eq

/-! ## The bytes of a trade -/

def tradeFields (trade : UnifiedTrade) : List (ℕ × ℕ) :=
  headerFields blockLengthTrade templateIdTrade ++
    [(8, trade.telemetry.t0ExchangeNs.toNat), (8, trade.telemetry.t1IngestNicNs.toNat),
      (8, trade.telemetry.t2EngineProcNs.toNat), (8, trade.telemetry.t3EgressNs.toNat),
      (2, trade.venue.toNat), (2, trade.chain.toNat), (4, trade.marketId.toNat),
      (8, trade.sequence.toNat), (8, trade.tradeId.toNat), (1, trade.side.toNat),
      (8, trade.price.toUInt64.toNat), (8, trade.size.toNat), (8, (quoteQty trade).toNat), (2, 0),
      (1, (if trade.isLiquidation then 1 else 0 : UInt8).toNat), (1, (1 : UInt8).toNat), (2, 0)]

lemma encodeTradeSbe_eq {trade : UnifiedTrade} {out : List UInt8}
    (h : totalSbeTradeLen ≤ out.length) :
    encodeTradeSbe trade out = (.ok totalSbeTradeLen, pack (tradeFields trade) ++ out.drop 95) := by
  have hroom : 95 ≤ out.length := h
  unfold encodeTradeSbe
  rw [if_neg (by omega)]
  -- one fact for each write of the encoder, in its order
  have h0 := written_writeTo blockLengthTrade templateIdTrade out
  have h1 := h0.copy 8 trade.telemetry.t0ExchangeNs.toNat
  have h2 := h1.copy 8 trade.telemetry.t1IngestNicNs.toNat
  have h3 := h2.copy 8 trade.telemetry.t2EngineProcNs.toNat
  have h4 := h3.copy 8 trade.telemetry.t3EgressNs.toNat
  have h5 := h4.copy 2 trade.venue.toNat
  have h6 := h5.copy 2 trade.chain.toNat
  have h7 := h6.copy 4 trade.marketId.toNat
  have h8 := h7.copy 8 trade.sequence.toNat
  have h9 := h8.copy 8 trade.tradeId.toNat
  have h10 := h9.set trade.side (by omega)
  have h11 := h10.copy 8 trade.price.toUInt64.toNat
  have h12 := h11.copy 8 trade.size.toNat
  have h13 := h12.copy 8 (quoteQty trade).toNat
  have h14 := h13.copy 2 0
  have h15 := h14.set (if trade.isLiquidation then 1 else 0) (by omega)
  have h16 := h15.set 1 (by omega)
  have h17 := h16.copy 2 0
  simp only [List.append_assoc, List.cons_append, List.nil_append] at h17
  exact congrArg _ h17.eq

/-! ## The fields by their offsets -/

/-- The widths of the fields of a best bid and offer, header included. -/
def bboWidths : List ℕ := [2, 2, 2, 2, 8, 8, 8, 8, 2, 2, 4, 8, 8, 8, 8, 8, 2, 2]

lemma unpack_bbo (buf : List UInt8) :
    unpack bboWidths buf =
      [readLe buf 0 2, readLe buf 2 2, readLe buf 4 2, readLe buf 6 2, readLe buf 8 8,
        readLe buf 16 8, readLe buf 24 8, readLe buf 32 8, readLe buf 40 2, readLe buf 42 2,
        readLe buf 44 4, readLe buf 48 8, readLe buf 56 8, readLe buf 64 8, readLe buf 72 8,
        readLe buf 80 8, readLe buf 88 2, readLe buf 90 2] := by
  simp only [bboWidths, unpack, readLe, List.drop_drop, List.drop_zero, Nat.reduceAdd]

/-- The widths of the fields of a trade, header and length of the variable data included. -/
def tradeWidths : List ℕ := [2, 2, 2, 2, 8, 8, 8, 8, 2, 2, 4, 8, 8, 1, 8, 8, 8, 2, 1, 1, 2]

lemma unpack_trade (buf : List UInt8) :
    unpack tradeWidths buf =
      [readLe buf 0 2, readLe buf 2 2, readLe buf 4 2, readLe buf 6 2, readLe buf 8 8,
        readLe buf 16 8, readLe buf 24 8, readLe buf 32 8, readLe buf 40 2, readLe buf 42 2,
        readLe buf 44 4, readLe buf 48 8, readLe buf 56 8, readLe buf 64 1, readLe buf 65 8,
        readLe buf 73 8, readLe buf 81 8, readLe buf 89 2, readLe buf 91 1, readLe buf 92 1,
        readLe buf 93 2] := by
  simp only [tradeWidths, unpack, readLe, List.drop_drop, List.drop_zero, Nat.reduceAdd]

lemma readLe_one (buf : List UInt8) (start : ℕ) :
    readLe buf start 1 = (buf.getD start 0).toNat := by
  unfold readLe
  rw [List.getD_eq_getElem?_getD, ← List.head?_drop]
  cases buf.drop start with
  | nil => rfl
  | cons b bs => exact Nat.add_zero _

lemma getD_of_readLe {buf : List UInt8} {start : ℕ} {b : UInt8}
    (h : readLe buf start 1 = b.toNat % 256 ^ 1) : buf.getD start 0 = b := by
  have hlt : b.toNat < 256 ^ 1 := b.toNat_lt
  rw [readLe_one, Nat.mod_eq_of_lt hlt] at h
  exact UInt8.toNat_inj.mp h

/-! ## Decoding what was encoded -/

lemma ofNat_toNat_mod_two (x : UInt16) : UInt16.ofNat (x.toNat % 256 ^ 2) = x := by
  have hlt : x.toNat < 256 ^ 2 := x.toNat_lt
  rw [Nat.mod_eq_of_lt hlt, UInt16.ofNat_toNat]

lemma ofNat_toNat_mod_four (x : UInt32) : UInt32.ofNat (x.toNat % 256 ^ 4) = x := by
  have hlt : x.toNat < 256 ^ 4 := x.toNat_lt
  rw [Nat.mod_eq_of_lt hlt, UInt32.ofNat_toNat]

lemma ofNat_toNat_mod_eight (x : UInt64) : UInt64.ofNat (x.toNat % 256 ^ 8) = x := by
  have hlt : x.toNat < 256 ^ 8 := x.toNat_lt
  rw [Nat.mod_eq_of_lt hlt, UInt64.ofNat_toNat]

lemma readBbo_pack (bbo : NormalizedBbo) (back : List UInt8) :
    readBbo (pack (bboFields bbo) ++ back) = bbo := by
  have hread := unpack_pack (bboFields bbo) back
  rw [show (bboFields bbo).map Prod.fst = bboWidths from rfl, unpack_bbo] at hread
  generalize pack (bboFields bbo) ++ back = buf at hread ⊢
  simp only [bboFields, headerFields, List.cons_append, List.nil_append, List.map_cons,
    List.map_nil, List.cons.injEq, and_true] at hread
  obtain ⟨-, -, -, -, h0, h1, h2, h3, hvenue, hchain, hmarket, hseq, hbid, hbidQty, hask, haskQty,
    hspread, hflags⟩ := hread
  unfold readBbo readTelemetry
  simp only [h0, h1, h2, h3, hvenue, hchain, hmarket, hseq, hbid, hbidQty, hask, haskQty, hspread,
    hflags, ofNat_toNat_mod_two, ofNat_toNat_mod_four, ofNat_toNat_mod_eight,
    Int64.toInt64_toUInt64]

lemma readTrade_pack (trade : UnifiedTrade) (back : List UInt8) :
    readTrade (pack (tradeFields trade) ++ back) = trade := by
  have hread := unpack_pack (tradeFields trade) back
  rw [show (tradeFields trade).map Prod.fst = tradeWidths from rfl, unpack_trade] at hread
  generalize pack (tradeFields trade) ++ back = buf at hread ⊢
  simp only [tradeFields, headerFields, List.cons_append, List.nil_append, List.map_cons,
    List.map_nil, List.cons.injEq, and_true] at hread
  obtain ⟨-, -, -, -, h0, h1, h2, h3, hvenue, hchain, hmarket, hseq, htrade, hside, hprice, hsize,
    -, -, hliquidation, -, -⟩ := hread
  have hflag : (buf.getD 91 0 != 0) = trade.isLiquidation := by
    rw [getD_of_readLe hliquidation]
    cases trade.isLiquidation <;> rfl
  unfold readTrade readTelemetry
  simp only [h0, h1, h2, h3, hvenue, hchain, hmarket, hseq, htrade, getD_of_readLe hside, hprice,
    hsize, hflag, ofNat_toNat_mod_two, ofNat_toNat_mod_four, ofNat_toNat_mod_eight,
    Int64.toInt64_toUInt64]

/-- The header of a message that an encoder wrote. -/
lemma readLe_header (blockLength templateId : UInt16) (fields : List (ℕ × ℕ))
    (back : List UInt8) :
    let buf := pack (headerFields blockLength templateId ++ fields) ++ back
    readLe buf 0 2 = blockLength.toNat ∧ readLe buf 2 2 = templateId.toNat ∧
      readLe buf 4 2 = sbeSchemaId.toNat ∧ readLe buf 6 2 = sbeSchemaVersion.toNat := by
  have hread := unpack_pack (headerFields blockLength templateId) (pack fields ++ back)
  rw [← List.append_assoc, ← pack_append] at hread
  dsimp only
  generalize pack (headerFields blockLength templateId ++ fields) ++ back = buf at hread ⊢
  have hblock : blockLength.toNat < 256 ^ 2 := blockLength.toNat_lt
  have htemplate : templateId.toNat < 256 ^ 2 := templateId.toNat_lt
  simp only [headerFields, List.map_cons, List.map_nil, unpack, List.drop_drop, Nat.reduceAdd,
    List.cons.injEq, Nat.mod_eq_of_lt hblock, Nat.mod_eq_of_lt htemplate, and_true] at hread
  exact hread

lemma length_pack_bboFields (bbo : NormalizedBbo) : (pack (bboFields bbo)).length = 92 := by
  have hwidths : (bboFields bbo).map Prod.fst = bboWidths := rfl
  rw [length_pack, hwidths]
  decide

lemma length_pack_tradeFields (trade : UnifiedTrade) : (pack (tradeFields trade)).length = 95 := by
  have hwidths : (tradeFields trade).map Prod.fst = tradeWidths := rfl
  rw [length_pack, hwidths]
  decide

lemma decodeBboSbe_pack (bbo : NormalizedBbo) (back : List UInt8) :
    decodeBboSbe (pack (bboFields bbo) ++ back) = .ok bbo := by
  obtain ⟨-, htemplate, hschema, -⟩ := readLe_header blockLengthBbo templateIdBbo _ back
  refine (decodeMessage_ok_iff (by decide) _ _ _ _).mpr
    ⟨?_, hschema, htemplate, readBbo_pack bbo back⟩
  rw [List.length_append, length_pack_bboFields]
  exact Nat.le_add_right _ _

lemma decodeTradeSbe_pack (trade : UnifiedTrade) (back : List UInt8) :
    decodeTradeSbe (pack (tradeFields trade) ++ back) = .ok trade := by
  obtain ⟨-, htemplate, hschema, -⟩ := readLe_header blockLengthTrade templateIdTrade _ back
  refine (decodeMessage_ok_iff (by decide) _ _ _ _).mpr
    ⟨?_, hschema, htemplate, readTrade_pack trade back⟩
  rw [List.length_append, length_pack_tradeFields]
  exact Nat.le_add_right _ _

/-- What an encoder and its decoder promise for a value, an output buffer and bytes behind the
message: the encoder succeeds exactly on a buffer with room, writes nothing behind the message
and nothing at all on an error, and the message decodes to the value, and only as what it is. -/
structure RoundTrips {α β : Type} (totalLen : ℕ)
    (encode : α → List UInt8 → Except SbeError ℕ × List UInt8)
    (decode : List UInt8 → Except SbeError α) (decodeOther : List UInt8 → Except SbeError β)
    (a : α) (out back : List UInt8) : Prop where
  ok_iff : (∃ n, (encode a out).1 = .ok n) ↔ totalLen ≤ out.length
  unchanged : ∀ e, (encode a out).1 = .error e → (encode a out).2 = out
  written : ∀ n, (encode a out).1 = .ok n → n = totalLen ∧
    (encode a out).2.length = out.length ∧ (encode a out).2.drop n = out.drop n
  decodes : ∀ n, (encode a out).1 = .ok n → decode ((encode a out).2.take n ++ back) = .ok a
  rejected : ∀ n, (encode a out).1 = .ok n →
    ∀ b, decodeOther ((encode a out).2.take n ++ back) ≠ .ok b

lemma RoundTrips.of_pack {α β : Type} {totalLen : ℕ}
    {encode : α → List UInt8 → Except SbeError ℕ × List UInt8}
    {decode : List UInt8 → Except SbeError α} {decodeOther : List UInt8 → Except SbeError β}
    {a : α} {out back : List UInt8} {fields : List (ℕ × ℕ)}
    (hsize : (pack fields).length = totalLen)
    (hshort : out.length < totalLen →
      encode a out = (.error (.bufferTooSmall totalLen out.length), out))
    (hroom : totalLen ≤ out.length →
      encode a out = (.ok totalLen, pack fields ++ out.drop totalLen))
    (hdecode : decode (pack fields ++ back) = .ok a)
    (hother : ∀ b, decodeOther (pack fields ++ back) ≠ .ok b) :
    RoundTrips totalLen encode decode decodeOther a out back := by
  by_cases hlen : totalLen ≤ out.length
  · have heq := hroom hlen
    have hn : ∀ n, (encode a out).1 = .ok n → n = totalLen := by
      intro n h
      rw [heq] at h
      cases h
      rfl
    constructor
    · exact ⟨fun _ => hlen, fun _ => ⟨totalLen, by rw [heq]⟩⟩
    · intro e h
      rw [heq] at h
      cases h
    · intro n h
      rw [hn n h, heq, List.length_append, hsize, List.length_drop, List.drop_left' hsize]
      exact ⟨rfl, by omega, rfl⟩
    · intro n h
      rw [hn n h, heq, List.take_left' hsize, hdecode]
    · intro n h
      rw [hn n h, heq, List.take_left' hsize]
      exact hother
  · -- too short a buffer is refused, so nothing was written that could be decoded
    have heq := hshort (by omega)
    have hn : ∀ n, (encode a out).1 ≠ .ok n := by
      intro n h
      rw [heq] at h
      cases h
    constructor
    · exact ⟨fun ⟨n, h⟩ => absurd h (hn n), fun h => absurd h hlen⟩
    · intro e _
      rw [heq]
    · exact fun n h => absurd h (hn n)
    · exact fun n h => absurd h (hn n)
    · exact fun n h => absurd h (hn n)

/-- Decoding undoes encoding, for best bids and offers and for trades. -/
theorem sbe_round_trips (bbo : NormalizedBbo) (trade : UnifiedTrade) (out back : List UInt8) :
    RoundTrips 92 encodeBboSbe decodeBboSbe decodeTradeSbe bbo out back ∧
      RoundTrips 95 encodeTradeSbe decodeTradeSbe decodeBboSbe trade out back := by
  constructor
  · apply RoundTrips.of_pack (length_pack_bboFields bbo)
    · exact fun h => if_pos h
    · exact fun h => encodeBboSbe_eq h
    · exact decodeBboSbe_pack bbo back
    · intro decoded h
      obtain ⟨-, htemplate, -, -⟩ := readLe_header blockLengthBbo templateIdBbo _ back
      have hneeded := ((decodeMessage_ok_iff (by decide) _ _ _ _).mp h).2.2.1
      exact absurd (htemplate.symm.trans hneeded) (by decide)
  · apply RoundTrips.of_pack (length_pack_tradeFields trade)
    · exact fun h => if_pos h
    · exact fun h => encodeTradeSbe_eq h
    · exact decodeTradeSbe_pack trade back
    · intro decoded h
      obtain ⟨-, htemplate, -, -⟩ := readLe_header blockLengthTrade templateIdTrade _ back
      have hneeded := ((decodeMessage_ok_iff (by decide) _ _ _ _).mp h).2.2.1
      exact absurd (htemplate.symm.trans hneeded) (by decide)

/-! ## Canonical messages -/

lemma toNat_ofNat_readLe_two (buf : List UInt8) (start : ℕ) :
    (UInt16.ofNat (readLe buf start 2)).toNat = readLe buf start 2 :=
  UInt16.toNat_ofNat_of_lt' (readLe_lt buf start 2)

lemma toNat_ofNat_readLe_four (buf : List UInt8) (start : ℕ) :
    (UInt32.ofNat (readLe buf start 4)).toNat = readLe buf start 4 :=
  UInt32.toNat_ofNat_of_lt' (readLe_lt buf start 4)

lemma toNat_ofNat_readLe_eight (buf : List UInt8) (start : ℕ) :
    (UInt64.ofNat (readLe buf start 8)).toNat = readLe buf start 8 :=
  UInt64.toNat_ofNat_of_lt' (readLe_lt buf start 8)

/-- The header of a buffer is the one that `encode_bbo_sbe` writes. -/
def HasBboHeader (buf : List UInt8) : Prop :=
  readLe buf 0 2 = blockLengthBbo.toNat ∧ readLe buf 2 2 = templateIdBbo.toNat ∧
    readLe buf 4 2 = sbeSchemaId.toNat ∧ readLe buf 6 2 = sbeSchemaVersion.toNat

/-- The record that is read has the bytes it was read from. -/
lemma pack_readBbo {buf : List UInt8} (hlen : 92 ≤ buf.length) (hheader : HasBboHeader buf) :
    pack (bboFields (readBbo buf)) = buf.take 92 := by
  obtain ⟨hblock, htemplate, hschema, hversion⟩ := hheader
  -- every field of the record keeps its bytes, and the header is the one given
  have hfields : bboFields (readBbo buf) = bboWidths.zip (unpack bboWidths buf) := by
    rw [unpack_bbo, hblock, htemplate, hschema, hversion]
    simp only [bboFields, headerFields, readBbo, readTelemetry, UInt64.toUInt64_toInt64,
      toNat_ofNat_readLe_two, toNat_ofNat_readLe_four, toNat_ofNat_readLe_eight]
    rfl
  have hsum : bboWidths.sum = 92 := by decide
  rw [hfields, pack_unpack (by omega), hsum]

/-- A buffer keeps to the canonical form: what it decodes to is encoded as its first bytes, and
another block length or version is rejected. -/
structure CanonicalBbo (buf : List UInt8) : Prop where
  written : ∀ bbo, decodeBboSbe buf = .ok bbo → ∀ out, 92 ≤ out.length →
    encodeBboSbe bbo out = (.ok 92, buf.take 92 ++ out.drop 92)
  rejected : readLe buf 0 2 ≠ 84 ∨ readLe buf 6 2 ≠ 1 → ∀ bbo, decodeBboSbe buf ≠ .ok bbo

/-- The decoder takes a buffer only in canonical form, unless it has the length, the schema and
the template of a best bid and offer with another block length or version: these two are read
from the header and never compared. -/
theorem canonicalBbo_iff (buf : List UInt8) :
    CanonicalBbo buf ↔
      (92 ≤ buf.length → readLe buf 2 2 = 101 → readLe buf 4 2 = 1 →
        readLe buf 0 2 = 84 ∧ readLe buf 6 2 = 1) := by
  constructor
  · intro h hlen htemplate hschema
    have hdecode : decodeBboSbe buf = .ok (readBbo buf) :=
      (decodeMessage_ok_iff (by decide) _ _ _ _).mpr ⟨hlen, hschema, htemplate, rfl⟩
    -- the buffer is accepted whatever the other two fields of its header are
    by_contra hheader
    refine h.rejected ?_ _ hdecode
    omega
  · intro h
    constructor
    · intro bbo hdecode out hout
      obtain ⟨hlen, hschema, htemplate, rfl⟩ :=
        (decodeMessage_ok_iff (by decide) _ _ _ _).mp hdecode
      obtain ⟨hblock, hversion⟩ := h hlen htemplate hschema
      rw [encodeBboSbe_eq hout, pack_readBbo hlen ⟨hblock, htemplate, hschema, hversion⟩]
      rfl
    · intro hheader bbo hdecode
      obtain ⟨hlen, hschema, htemplate, -⟩ := (decodeMessage_ok_iff (by decide) _ _ _ _).mp hdecode
      have hfixed := h hlen htemplate hschema
      omega

/-- A message of version 2 with an empty body. -/
def versionTwoBbo : List UInt8 := [84, 0, 101, 0, 1, 0, 2, 0] ++ List.replicate 84 0

/-- It is decoded as if it were of version 1, and comes back with another header. -/
theorem version_two_decodes :
    decodeBboSbe versionTwoBbo = .ok {} ∧ ¬ CanonicalBbo versionTwoBbo ∧
      (encodeBboSbe {} versionTwoBbo).2 ≠ versionTwoBbo := by
  have hdecode : decodeBboSbe versionTwoBbo = .ok {} := by rfl
  refine ⟨hdecode, fun h => h.rejected (.inr (by decide)) _ hdecode, by decide⟩

end Sbe
end ChainMarketPrice.Distribution
