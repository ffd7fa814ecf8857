import ChainMarketPrice.LiveFeed.SessionTheorems

/-!
# Runs of a session

The runner calls `on_connected`, `note_action_taken` and `on_message` in any order on one
session and one output list. A run keeps what each call appended and returned.

Seen from one product, a message only reads and changes the registers of this product
(`react`), and a call that is not a message clears them (`follow`).
-/

namespace ChainMarketPrice.LiveFeed

open CefiIngest Session

/-- The calls that change a session. -/
inductive SessionOp
  | connected (nowMs : UInt64)
  | actionTaken (action : Action)
  | message (payload : List UInt8) (t1Ns nowMs : UInt64)
deriving Repr, DecidableEq

/-- A call, the events it appended to the output and the action it returned. -/
structure Call where
  op : SessionOp
  events : List Event
  action : Option Action
deriving Repr, DecidableEq

/-- A session under way: its output list and the calls so far. -/
structure SessionRun where
  session : Session
  out : List Event
  calls : List Call
deriving Repr, DecidableEq

namespace SessionRun

def step (r : SessionRun) (op : SessionOp) : SessionRun :=
  match op with
  | .connected nowMs => ⟨r.session.onConnected nowMs, r.out, r.calls ++ [⟨op, [], none⟩]⟩
  | .actionTaken action => ⟨r.session.noteActionTaken action, r.out, r.calls ++ [⟨op, [], none⟩]⟩
  | .message payload t1Ns nowMs =>
    let o := r.session.onMessage payload t1Ns nowMs r.out
    ⟨o.session, o.out, r.calls ++ [⟨op, o.out.drop r.out.length, o.action⟩]⟩

/-- The run of a list of calls on a session, with an empty output list. -/
def run (s : Session) (ops : List SessionOp) : SessionRun := ops.foldl step ⟨s, [], []⟩

end SessionRun

/-- The trades among some events. -/
def trades (events : List Event) : List UnifiedTrade :=
  events.filterMap fun
    | .bbo _ => none
    | .trade trade => some trade

/-- The call is a message of the product. -/
def SessionOp.Names (name : List UInt8) : SessionOp → Prop
  | .message payload _ _ => CefiParser.coinbaseProductId payload = some name
  | _ => False

instance decidableNames (name : List UInt8) : (op : SessionOp) → Decidable (op.Names name)
  | .connected _ => inferInstanceAs (Decidable False)
  | .actionTaken _ => inferInstanceAs (Decidable False)
  | .message payload _ _ =>
    inferInstanceAs (Decidable (CefiParser.coinbaseProductId payload = some name))

/-- The calls for the messages of a product. -/
def ownCalls (name : List UInt8) (calls : List Call) : List Call :=
  calls.filter fun c => c.op.Names name

/-- The trades given out for the messages of a product. -/
def tradesFor (name : List UInt8) (calls : List Call) : List UnifiedTrade :=
  trades ((ownCalls name calls).flatMap (·.events))

/-- The trade id of a complete ticker of the product. -/
def tickerId (name payload : List UInt8) : Option UInt64 :=
  if CefiParser.coinbaseMessageType payload = some (Bytes.ofString "ticker") ∧
      CefiParser.coinbaseProductId payload = some name ∧
      (extractJsonIntField payload (keyOf "sequence")).isSome ∧
      ∀ field ∈ tickerFields, HasStrField payload field
  then extractJsonIntField payload (keyOf "trade_id")
  else none

/-- The trade ids of the product's complete tickers among some calls. -/
def tickerIds (name : List UInt8) (ops : List SessionOp) : List UInt64 :=
  ops.filterMap fun
    | .message payload _ _ => tickerId name payload
    | _ => none

/-! ## One product -/

/-- What a message does to its product, and what it gives out. -/
structure Reaction where
  product : Option Product
  events : List Event
  action : Option Action
deriving Repr, DecidableEq

/-- The registers after a ticker with these numbers. -/
def Product.afterTicker (p : Product) (sequence tradeId : UInt64) : Product :=
  { p with
    lastSeq := some sequence
    lastTradeId := some tradeId
    maxEmittedTradeId := if tradeId > p.maxEmittedTradeId then tradeId else p.maxEmittedTradeId }

def Product.onTicker (p : Product) (payload : List UInt8) (t1Ns : UInt64) : Reaction :=
  match CefiParser.parseCoinbaseTickerBbo p.marketId payload t1Ns,
      CefiParser.parseCoinbaseTickerTrade p.marketId payload t1Ns with
  | .ok bbo, .ok trade =>
    ⟨some (p.afterTicker bbo.sequence trade.tradeId),
      .bbo bbo :: if trade.tradeId > p.maxEmittedTradeId then [.trade trade] else [],
      (checkTicker p {} bbo.sequence trade.tradeId).1⟩
  | _, _ => ⟨some p, [], none⟩

def Product.onHeartbeat (p : Product) (payload : List UInt8) : Reaction :=
  match CefiParser.coinbaseSequence payload, CefiParser.coinbaseTradeId payload with
  | some seq, some exchangeLastTrade =>
    match p.lastSeq with
    | some last =>
      if seq ≤ last then ⟨some p, [], some (.resubscribe (.sequenceRegression last seq))⟩
      else
        ⟨some { p with lastSeq := some seq }, [], (checkHeartbeat p {} exchangeLastTrade).1⟩
    | none => ⟨some p, [], (checkHeartbeat p {} exchangeLastTrade).1⟩
  | _, _ => ⟨some p, [], none⟩

/-- The reaction of the product a message names, `none` when the session does not have it. -/
def react (product : Option Product) (payload : List UInt8) (t1Ns : UInt64) : Reaction :=
  match CefiParser.coinbaseMessageType payload with
  | none => ⟨product, [], none⟩
  | some ty =>
    if ty = Bytes.ofString "ticker" then
      product.elim ⟨none, [], none⟩ fun p => p.onTicker payload t1Ns
    else if ty = Bytes.ofString "heartbeat" then
      product.elim ⟨none, [], none⟩ fun p => p.onHeartbeat payload
    else if ty = Bytes.ofString "error" then ⟨product, [], some (.reconnect .serverError)⟩
    else ⟨product, [], none⟩

/-- The product a message names. -/
def productFor (s : Session) (payload : List UInt8) : Option Product :=
  (CefiParser.coinbaseProductId payload).bind s.productOf

/-- What a call does to the product of the given name. -/
def follow (name : List UInt8) (product : Option Product) : SessionOp → Option Product
  | .connected _ => product.map fun p => { p with lastSeq := none, lastTradeId := none }
  | .actionTaken _ => product.map fun p => { p with lastSeq := none, lastTradeId := none }
  | .message payload t1Ns _ =>
    if CefiParser.coinbaseProductId payload = some name then (react product payload t1Ns).product
    else product

/-! ## Messages only -/

/-- The arguments of a call of `on_message`. -/
structure Delivery where
  payload : List UInt8
  t1Ns : UInt64
  nowMs : UInt64
deriving Repr, DecidableEq

def Delivery.op (d : Delivery) : SessionOp := .message d.payload d.t1Ns d.nowMs

/-- The deliveries whose `product_id` field is the given name. -/
def ownDeliveries (name : List UInt8) (deliveries : List Delivery) : List Delivery :=
  deliveries.filter fun d => CefiParser.coinbaseProductId d.payload = some name

/-- The events and the action of each call. -/
def answers (calls : List Call) : List (List Event × Option Action) :=
  calls.map fun c => (c.events, c.action)

/-- What a product answers to a list of its messages. -/
def productAnswers (product : Option Product) : List Delivery → List (List Event × Option Action)
  | [] => []
  | d :: deliveries =>
    let r := react product d.payload d.t1Ns
    (r.events, r.action) :: productAnswers r.product deliveries

end ChainMarketPrice.LiveFeed
