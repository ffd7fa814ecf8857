import Mathlib.Data.List.Basic
import Mathlib.Order.Lattice
import Mathlib.Tactic.Common

/-!
# `LockFreeTokenBucket`: the per-client rate limiter

`crates/distribution/src/lib.rs`. One 64-bit word holds the last refill time (upper 40
bits, milliseconds) and the token balance (lower 24 bits). `tryConsume` reads the word,
refills it for the elapsed time, and replaces it with one compare-exchange.

All arithmetic is on the machine types of the source, wrapping as the release profile
does (`overflow-checks = false`).
-/

namespace ChainMarketPrice.Distribution

/-- The bucket: the packed word, the refill rate and the burst capacity. -/
structure LockFreeTokenBucket where
  state : UInt64
  refillRatePerSec : UInt32
  burstCapacity : UInt32
deriving Repr, DecidableEq

namespace LockFreeTokenBucket

/-- The packed word: timestamp above bit 24, tokens below. -/
def pack (ts : UInt64) (tokens : UInt32) : UInt64 :=
  (ts <<< 24) ||| (tokens.toUInt64 &&& 0x00FFFFFF)

def new (ratePerSec capacity : UInt32) (initialTimeMs : UInt64) : LockFreeTokenBucket where
  state := pack initialTimeMs capacity
  refillRatePerSec := ratePerSec
  burstCapacity := capacity

/-- The refill part of one loop iteration: the next timestamp and the tokens available,
computed from the word `curr` at time `nowMs`. -/
def refill (rate capacity : UInt32) (curr nowMs : UInt64) : UInt64 × UInt32 :=
  let lastRefillMs := curr >>> 24
  let availableTokens := (curr &&& 0x00FFFFFF).toUInt32
  if nowMs > lastRefillMs then
    let elapsedMs := nowMs - lastRefillMs
    let refilled := (elapsedMs * rate.toUInt64 / 1000).toUInt32
    if refilled > 0 then
      let availableTokens := min (availableTokens + refilled) capacity
      if availableTokens ≥ capacity then
        (nowMs, availableTokens)
      else
        let refilledMs := refilled.toUInt64 * 1000 / rate.toUInt64
        (min (lastRefillMs + refilledMs) nowMs, availableTokens)
    else
      (lastRefillMs, availableTokens)
  else
    (lastRefillMs, availableTokens)

/-- One iteration of the compare-exchange loop on the word `curr`: `none` when the call is
denied, otherwise the word the compare-exchange tries to install. -/
def attempt (b : LockFreeTokenBucket) (curr : UInt64) (tokens : UInt32) (nowMs : UInt64) :
    Option UInt64 :=
  let (nextTs, availableTokens) := refill b.refillRatePerSec b.burstCapacity curr nowMs
  if availableTokens < tokens then none
  else some (pack nextTs (availableTokens - tokens))

/-- `try_consume` with no concurrent caller. A weak compare-exchange may fail spuriously,
but it then reloads the same word, so the loop ends as its first iteration does. -/
def tryConsume (b : LockFreeTokenBucket) (tokens : UInt32) (nowMs : UInt64) :
    Bool × LockFreeTokenBucket :=
  match b.attempt b.state tokens nowMs with
  | none => (false, b)
  | some next => (true, { b with state := next })

/-- The tokens granted over a sequence of `(tokens, now)` calls: the sum over the calls
that returned `true`. -/
def granted (b : LockFreeTokenBucket) : List (UInt32 × UInt64) → ℕ
  | [] => 0
  | (tokens, nowMs) :: calls =>
    let (ok, b') := b.tryConsume tokens nowMs
    (if ok then tokens.toNat else 0) + granted b' calls

end LockFreeTokenBucket

end ChainMarketPrice.Distribution
