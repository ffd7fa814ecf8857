import ChainMarketPrice.Distribution.TokenBucket

/-!
# Client sessions

`crates/distribution/src/session.rs` and the filter predicate of `lib.rs`: what the router
keeps for a connected client. The ping and pong timestamps are left out; no modelled
function reads them.
-/

namespace ChainMarketPrice.Distribution

/-- `WireProtocol`. -/
inductive WireProtocol
  | sbe
  | json
deriving Repr, DecidableEq

/-- `SessionState`. -/
inductive SessionState
  | disconnected
  | connected
  | subscribed
  | closed
deriving Repr, DecidableEq

/-- `ClientFilterPredicate`. The notional threshold is an `f64`, kept as its bits. -/
structure ClientFilterPredicate where
  minNotionalUsdBits : UInt64 := 0
  maxSpreadBps : UInt32 := 0
  minGasPriorityGwei : UInt32 := 0
  targetPrefix : UInt64 := 0
deriving Repr, DecidableEq

/-- `ClientSession`. -/
structure ClientSession where
  id : UInt32
  protocol : WireProtocol
  state : SessionState
  rateLimiter : LockFreeTokenBucket
  filter : ClientFilterPredicate
  messagesSent : UInt64
  bytesSent : UInt64
  droppedRateLimit : UInt64
deriving Repr, DecidableEq

namespace ClientSession

def new (id : UInt32) (protocol : WireProtocol) (ratePerSec burstCapacity : UInt32)
    (nowMs : UInt64) : ClientSession where
  id := id
  protocol := protocol
  state := .connected
  rateLimiter := .new ratePerSec burstCapacity nowMs
  filter := {}
  messagesSent := 0
  bytesSent := 0
  droppedRateLimit := 0

def withFilter (s : ClientSession) (filter : ClientFilterPredicate) : ClientSession :=
  { s with filter := filter }

def setState (s : ClientSession) (state : SessionState) : ClientSession :=
  { s with state := state }

def isActive (s : ClientSession) : Bool :=
  s.state == .connected || s.state == .subscribed

/-- `try_consume_token`: whether the bucket granted the tokens, and the session after. -/
def tryConsumeToken (s : ClientSession) (tokens : UInt32) (nowMs : UInt64) :
    Bool × ClientSession :=
  let (allowed, rateLimiter) := s.rateLimiter.tryConsume tokens nowMs
  let s := { s with rateLimiter := rateLimiter }
  if allowed then (allowed, s)
  else (allowed, { s with droppedRateLimit := s.droppedRateLimit + 1 })

def recordDelivery (s : ClientSession) (bytes : ℕ) : ClientSession :=
  { s with
    messagesSent := s.messagesSent + 1
    bytesSent := s.bytesSent + UInt64.ofNat bytes }

end ClientSession
end ChainMarketPrice.Distribution
