import ChainMarketPrice.Lib.FixedWidth
import ChainMarketPrice.Lib.WireSchema
import ChainMarketPrice.Distribution.SbeTheorems

/-!
# The SBE schema

`schemas/market_data.sbe.xml`: the header, the two messages that the codec handles and the types
they use. A generic reader of the schema finds in an encoded message the values of the record
(`sbe_implements_schema`), and the decoders return what it reads.
-/

namespace ChainMarketPrice.Distribution
namespace Sbe

open Bytes WireSchema

/-- The names of fields and members. -/
inductive FieldName
  | blockLength | templateId | schemaId | version
  | telemetry | t0ExchangeNs | t1IngestNicNs | t2EngineProcNs | t3EgressNs
  | venue | chain | marketId | sequence
  | bidPrice | bidQty | askPrice | askQty | spreadBps | flags
  | tradeId | side | price | baseQty | quoteQty | feeBps | isLiquidation | executionVenueType
  | protocolContext
deriving Repr, DecidableEq

/-- The names of types. -/
inductive TypeName
  | u8 | u16 | u32 | u64
  | priceScaled | qtyScaled
  | venueId | chainId | side
  | telemetryTimestamps
deriving Repr, DecidableEq

/-- The `types` of the schema; the enumerations by their `encodingType`. -/
def typeEncoding : TypeName → Encoding FieldName
  | .u8 => .primitive .uint8
  | .u16 => .primitive .uint16
  | .u32 => .primitive .uint32
  | .u64 => .primitive .uint64
  | .priceScaled => .primitive .int64
  | .qtyScaled => .primitive .uint64
  | .venueId => .primitive .uint16
  | .chainId => .primitive .uint16
  | .side => .primitive .uint8
  | .telemetryTimestamps =>
    .composite
      [(.t0ExchangeNs, .uint64), (.t1IngestNicNs, .uint64), (.t2EngineProcNs, .uint64),
        (.t3EgressNs, .uint64)]

/-- `messageSchema`, with the members of its `MessageHeader`. -/
def marketDataSchema : Schema FieldName TypeName where
  id := 1
  version := 1
  encoding := typeEncoding
  header :=
    [(.blockLength, .uint16), (.templateId, .uint16), (.schemaId, .uint16), (.version, .uint16)]

/-- `BBOReport`. -/
def bboReport : Message FieldName TypeName where
  id := 101
  fields :=
    [(.telemetry, .telemetryTimestamps), (.venue, .venueId), (.chain, .chainId),
      (.marketId, .u32), (.sequence, .u64), (.bidPrice, .priceScaled), (.bidQty, .qtyScaled),
      (.askPrice, .priceScaled), (.askQty, .qtyScaled), (.spreadBps, .u16), (.flags, .u16)]

/-- `TradeExecutionReport`. The schema has no type `varDataEncoding`: that the length takes two
bytes is said in `sbe.rs`. -/
def tradeExecutionReport : Message FieldName TypeName where
  id := 104
  fields :=
    [(.telemetry, .telemetryTimestamps), (.venue, .venueId), (.chain, .chainId),
      (.marketId, .u32), (.sequence, .u64), (.tradeId, .u64), (.side, .side),
      (.price, .priceScaled), (.baseQty, .qtyScaled), (.quoteQty, .qtyScaled), (.feeBps, .u16),
      (.isLiquidation, .u8), (.executionVenueType, .u8)]
  data := [(.protocolContext, .uint16)]

/-! ## The values of a record by the names of the schema -/

def headerValues (blockLength templateId schemaId version : ℕ) : List (List FieldName × ℤ) :=
  [([.blockLength], blockLength), ([.templateId], templateId), ([.schemaId], schemaId),
    ([.version], version)]

def telemetryValues (telemetry : TelemetryTimestamps) : List (List FieldName × ℤ) :=
  [([.telemetry, .t0ExchangeNs], telemetry.t0ExchangeNs.toNat),
    ([.telemetry, .t1IngestNicNs], telemetry.t1IngestNicNs.toNat),
    ([.telemetry, .t2EngineProcNs], telemetry.t2EngineProcNs.toNat),
    ([.telemetry, .t3EgressNs], telemetry.t3EgressNs.toNat)]

def bboValues (bbo : NormalizedBbo) : List (List FieldName × ℤ) :=
  telemetryValues bbo.telemetry ++
    ([([.venue], bbo.venue.toNat), ([.chain], bbo.chain.toNat), ([.marketId], bbo.marketId.toNat),
      ([.sequence], bbo.sequence.toNat), ([.bidPrice], bbo.bidPrice.toInt),
      ([.bidQty], bbo.bidQty.toNat), ([.askPrice], bbo.askPrice.toInt),
      ([.askQty], bbo.askQty.toNat), ([.spreadBps], bbo.spreadBps.toNat),
      ([.flags], bbo.flags.toNat)] : List (List FieldName × ℤ))

/-- The values of a trade, with those that the record does not hold. -/
def tradeValues (trade : UnifiedTrade) (quoteQty feeBps isLiquidation executionVenueType : ℕ) :
    List (List FieldName × ℤ) :=
  telemetryValues trade.telemetry ++
    ([([.venue], trade.venue.toNat), ([.chain], trade.chain.toNat),
      ([.marketId], trade.marketId.toNat), ([.sequence], trade.sequence.toNat),
      ([.tradeId], trade.tradeId.toNat), ([.side], trade.side.toNat),
      ([.price], trade.price.toInt), ([.baseQty], trade.size.toNat), ([.quoteQty], quoteQty),
      ([.feeBps], feeBps), ([.isLiquidation], isLiquidation),
      ([.executionVenueType], executionVenueType)] : List (List FieldName × ℤ))

/-! ## What the generic reader finds -/

lemma toInt_ofNat_readLe (buf : List UInt8) (start : ℕ) :
    (UInt64.ofNat (readLe buf start 8)).toInt64.toInt
      = Primitive.int64.value (readLe buf start 8) := by
  have hlt : readLe buf start 8 < 2 ^ 64 := readLe_lt buf start 8
  generalize readLe buf start 8 = n at hlt ⊢
  rw [FixedWidth.toInt_toInt64, UInt64.toNat_ofNat_of_lt' hlt, Primitive.value]

lemma read_bboReport (buf : List UInt8) :
    (marketDataSchema.read bboReport buf).values =
      headerValues (readLe buf 0 2) (readLe buf 2 2) (readLe buf 4 2) (readLe buf 6 2) ++
        bboValues (readBbo buf) := by
  have hwidths : (marketDataSchema.layout bboReport).map (fun leaf => leaf.2.width) = bboWidths :=
    rfl
  unfold Schema.read
  dsimp only
  rw [readLeaves_eq, hwidths, unpack_bbo]
  simp only [bboValues, telemetryValues, readBbo, readTelemetry, toNat_ofNat_readLe_two,
    toNat_ofNat_readLe_four, toNat_ofNat_readLe_eight, toInt_ofNat_readLe]
  rfl

lemma read_tradeExecutionReport (buf : List UInt8) :
    (marketDataSchema.read tradeExecutionReport buf).values =
      headerValues (readLe buf 0 2) (readLe buf 2 2) (readLe buf 4 2) (readLe buf 6 2) ++
        tradeValues (readTrade buf) (readLe buf 81 8) (readLe buf 89 2) (readLe buf 91 1)
          (readLe buf 92 1) := by
  have hwidths : (marketDataSchema.layout tradeExecutionReport).map (fun leaf => leaf.2.width)
      = tradeWidths.take 20 := rfl
  unfold Schema.read
  dsimp only
  rw [readLeaves_eq, hwidths, unpack_take, unpack_trade]
  simp only [tradeValues, telemetryValues, readTrade, readTelemetry, toNat_ofNat_readLe_two,
    toNat_ofNat_readLe_four, toNat_ofNat_readLe_eight, toInt_ofNat_readLe, ← readLe_one]
  rfl

/-- The variable data behind the block of a trade. -/
lemma read_tradeExecutionReport_data (buf : List UInt8) :
    (marketDataSchema.read tradeExecutionReport buf).data =
      [(.protocolContext, (buf.drop 95).take (readLe buf 93 2))] := by
  have hsize : Schema.size (marketDataSchema.layout tradeExecutionReport) = 93 := by decide
  unfold Schema.read
  dsimp only
  rw [hsize]
  simp only [tradeExecutionReport, readData, List.drop_drop, Primitive.width, Nat.reduceAdd, readLe]

/-! ## The codec against the schema -/

/-- The quote quantity of a trade: the rounded product of price and size, narrowed to 64 bits. -/
def quoteQtyValue (trade : UnifiedTrade) : ℕ :=
  if 0 < trade.price.toInt then trade.price.toInt.toNat * trade.size.toNat / 10 ^ 8 % 2 ^ 64 else 0

lemma toNat_toUInt64_of_pos {x : Int64} (h : 0 < x.toInt) : x.toUInt64.toNat = x.toInt.toNat := by
  have hint := FixedWidth.toInt_toInt64 x.toUInt64
  rw [Int64.toInt64_toUInt64] at hint
  have hlt := x.toUInt64.toNat_lt
  split at hint <;> omega

lemma toNat_quoteQty (trade : UnifiedTrade) : (quoteQty trade).toNat = quoteQtyValue trade := by
  have hiff : trade.price > 0 ↔ 0 < trade.price.toInt := Int64.lt_iff_toInt_lt
  unfold quoteQty quoteQtyValue
  by_cases hprice : 0 < trade.price.toInt
  · rw [if_pos (hiff.mpr hprice), if_pos hprice, UInt64.toNat_ofNat', toNat_toUInt64_of_pos hprice]
    rfl
  · rw [if_neg (mt hiff.mp hprice), if_neg hprice]
    rfl

/-- The values behind the header that an encoder of trades adds to the record. -/
lemma readLe_tradeFields (trade : UnifiedTrade) (back : List UInt8) :
    let buf := pack (tradeFields trade) ++ back
    readLe buf 81 8 = quoteQtyValue trade ∧ readLe buf 89 2 = 0 ∧
      readLe buf 91 1 = trade.isLiquidation.toNat ∧ readLe buf 92 1 = 1 ∧ readLe buf 93 2 = 0 := by
  have hread := unpack_pack (tradeFields trade) back
  rw [show (tradeFields trade).map Prod.fst = tradeWidths from rfl, unpack_trade] at hread
  dsimp only
  generalize pack (tradeFields trade) ++ back = buf at hread ⊢
  simp only [tradeFields, headerFields, List.cons_append, List.nil_append, List.map_cons,
    List.map_nil, List.cons.injEq, and_true] at hread
  obtain ⟨-, -, -, -, -, -, -, -, -, -, -, -, -, -, -, -, hquote, hfee, hliquidation, hvenue,
    hdata⟩ := hread
  have hlt : (quoteQty trade).toNat < 256 ^ 8 := (quoteQty trade).toNat_lt
  rw [Nat.mod_eq_of_lt hlt, toNat_quoteQty] at hquote
  refine ⟨hquote, hfee, ?_, hvenue, hdata⟩
  rw [hliquidation]
  cases trade.isLiquidation <;> rfl

/-- What an encoder writes for a value, read by the schema. -/
def WritesMessage {α : Type} (message : Message FieldName TypeName) (totalLen : ℕ)
    (encode : α → List UInt8 → Except SbeError ℕ × List UInt8) (a : α)
    (fields : List (List FieldName × ℤ)) (data : List (FieldName × List UInt8))
    (out back : List UInt8) : Prop :=
  totalLen ≤ out.length →
    (encode a out).1 = .ok totalLen ∧
      marketDataSchema.read message ((encode a out).2.take totalLen ++ back) =
        { values :=
            headerValues (Schema.size (marketDataSchema.block message)) message.id
              marketDataSchema.id marketDataSchema.version ++ fields
          data := data }

/-- A decoder takes a buffer of the schema's id with the message's id, and returns a value whose
fields are the ones the schema reads. -/
def ReadsMessage {α : Type} (message : Message FieldName TypeName) (totalLen : ℕ)
    (decode : List UInt8 → Except SbeError α) (Holds : α → List (List FieldName × ℤ) → Prop)
    (buf : List UInt8) : Prop :=
  totalLen ≤ buf.length → ∀ blockLength version fields,
    (marketDataSchema.read message buf).values =
      headerValues blockLength message.id marketDataSchema.id version ++ fields →
    ∃ a, decode buf = .ok a ∧ Holds a fields

/-- The fields of a trade's message, as far as the record holds them. -/
def HoldsTrade (trade : UnifiedTrade) (fields : List (List FieldName × ℤ)) : Prop :=
  ∃ quoteQty feeBps isLiquidation executionVenueType : ℕ,
    fields = tradeValues trade quoteQty feeBps isLiquidation executionVenueType ∧
      (trade.isLiquidation ↔ isLiquidation ≠ 0)

lemma headerValues_append_inj {b t s v b' t' s' v' : ℕ} {fields fields' : List (List FieldName × ℤ)}
    (h : headerValues b t s v ++ fields = headerValues b' t' s' v' ++ fields') :
    t = t' ∧ s = s' ∧ fields = fields' := by
  simp only [headerValues, List.cons_append, List.nil_append, List.cons.injEq, Prod.mk.injEq,
    true_and, Nat.cast_inj] at h
  exact ⟨h.2.1, h.2.2.1, h.2.2.2.2⟩

/-- The hand-written codec implements the schema: a generic reader finds the record in what the
encoders write, and the decoders return what it reads. -/
theorem sbe_implements_schema (bbo : NormalizedBbo) (trade : UnifiedTrade)
    (out back buf : List UInt8) :
    WritesMessage bboReport 92 encodeBboSbe bbo (bboValues bbo) [] out back ∧
      WritesMessage tradeExecutionReport 95 encodeTradeSbe trade
        (tradeValues trade (quoteQtyValue trade) 0 trade.isLiquidation.toNat 1)
        [(.protocolContext, [])] out back ∧
      ReadsMessage bboReport 92 decodeBboSbe (fun b fields => fields = bboValues b) buf ∧
      ReadsMessage tradeExecutionReport 95 decodeTradeSbe HoldsTrade buf := by
  refine ⟨?_, ?_, ?_, ?_⟩
  · intro hout
    have hlen := length_pack_bboFields bbo
    obtain ⟨hblock, htemplate, hschema, hversion⟩ :=
      readLe_header blockLengthBbo templateIdBbo _ back
    have hvalues := read_bboReport (pack (bboFields bbo) ++ back)
    rw [readBbo_pack, bboFields, hblock, htemplate, hschema, hversion] at hvalues
    rw [encodeBboSbe_eq hout, List.take_left' hlen]
    refine ⟨rfl, congrArg (Reading.mk · []) hvalues⟩
  · intro hout
    have hlen := length_pack_tradeFields trade
    obtain ⟨hblock, htemplate, hschema, hversion⟩ :=
      readLe_header blockLengthTrade templateIdTrade _ back
    -- four fields of the message are computed or fixed by the encoder
    obtain ⟨hquote, hfee, hliquidation, hvenue, hdata⟩ := readLe_tradeFields trade back
    have hvalues := read_tradeExecutionReport (pack (tradeFields trade) ++ back)
    rw [readTrade_pack, hquote, hfee, hliquidation, hvenue, tradeFields, hblock, htemplate, hschema,
      hversion] at hvalues
    have hcontext := read_tradeExecutionReport_data (pack (tradeFields trade) ++ back)
    rw [hdata, List.take_zero] at hcontext
    rw [encodeTradeSbe_eq hout, List.take_left' hlen]
    exact ⟨rfl, congr (congrArg Reading.mk hvalues) hcontext⟩
  · intro hlen blockLength version fields hvalues
    rw [read_bboReport] at hvalues
    obtain ⟨htemplate, hschema, hfields⟩ := headerValues_append_inj hvalues
    refine ⟨readBbo buf, ?_, hfields.symm⟩
    exact (decodeMessage_ok_iff (by decide) _ _ _ _).mpr ⟨hlen, hschema, htemplate, rfl⟩
  · intro hlen blockLength version fields hvalues
    rw [read_tradeExecutionReport] at hvalues
    obtain ⟨htemplate, hschema, hfields⟩ := headerValues_append_inj hvalues
    refine ⟨readTrade buf, ?_, _, _, _, _, hfields.symm, ?_⟩
    · exact (decodeMessage_ok_iff (by decide) _ _ _ _).mpr ⟨hlen, hschema, htemplate, rfl⟩
    · rw [readLe_one, readTrade, bne_iff_ne, Ne, Ne, ← UInt8.toNat_inj]
      rfl

end Sbe
end ChainMarketPrice.Distribution
