import Mathlib.Data.UInt
import ChainMarketPrice.Lib.Backoff

/-!
# Wait strategies

`crates/core-engine/src/sync/wait_strategy.rs`: what a consumer does while its queue is empty.
An `idle` call returns the pause it makes; `park_timeout` sleeps for the time it is given, or
spins. The clock (`Instant::now`) is an argument, in nanoseconds; it does not reach the end of
`Instant`, where adding a duration panics.
-/

namespace ChainMarketPrice.CoreEngine

open Backoff

/-- `WaitStrategyKind`. -/
inductive WaitStrategyKind
  | busySpin
  | hybridAdaptive
  | powerEfficient
  | burstMode
deriving Repr, DecidableEq

/-- `HardwareTier`, of `topology/mod.rs`. -/
inductive HardwareTier
  | tier1MidRange
  | tier2CloudVirtualized
  | tier3EnterpriseBareMetal
deriving Repr, DecidableEq

/-- The trait `WaitStrategy`. -/
class WaitStrategy (S : Type) where
  reset : S → ℕ → S
  idle : S → ℕ → Pause × S
  kind : S → ℕ → WaitStrategyKind

/-- `saturating_add(1)`. -/
def saturatingSucc (n : UInt32) : UInt32 := if n.toNat + 1 < 2 ^ 32 then n + 1 else n

/-! ## Tier 3 -/

/-- `BusySpinStrategy`. -/
structure BusySpinStrategy where
deriving Repr, DecidableEq

instance : WaitStrategy BusySpinStrategy where
  reset := fun s _ => s
  idle := fun s _ => (.spinLoop, s)
  kind := fun _ _ => .busySpin

/-! ## Tier 2 -/

/-- `HybridAdaptiveStrategy`. -/
structure HybridAdaptiveStrategy where
  counter : UInt32
  spinLimit : UInt32
  yieldLimit : UInt32
  currentSleepUs : UInt32
  maxSleepUs : UInt32
deriving Repr, DecidableEq

namespace HybridAdaptiveStrategy

def new (spinLimit yieldLimit maxSleepUs : UInt32) : HybridAdaptiveStrategy where
  counter := 0
  spinLimit := spinLimit
  yieldLimit := yieldLimit
  currentSleepUs := 1
  maxSleepUs := max maxSleepUs 1

def default : HybridAdaptiveStrategy := .new 256 1024 50

def reset (s : HybridAdaptiveStrategy) : HybridAdaptiveStrategy :=
  { s with counter := 0, currentSleepUs := 1 }

def idle (s : HybridAdaptiveStrategy) : Pause × HybridAdaptiveStrategy :=
  let s := { s with counter := saturatingSucc s.counter }
  if s.counter ≤ s.spinLimit then (.spinLoop, s)
  else if s.counter ≤ s.spinLimit + s.yieldLimit then (.yieldNow, s)
  else
    (.sleep s.currentSleepUs.toNat,
      { s with currentSleepUs := min (s.currentSleepUs * 2) s.maxSleepUs })

end HybridAdaptiveStrategy

instance : WaitStrategy HybridAdaptiveStrategy where
  reset := fun s _ => s.reset
  idle := fun s _ => s.idle
  kind := fun _ _ => .hybridAdaptive

/-! ## Tier 1 -/

/-- `PowerEfficientStrategy`. -/
structure PowerEfficientStrategy where
  counter : UInt32
  spinLimit : UInt32
  minSleepUs : UInt64
  maxSleepUs : UInt64
  currentSleepUs : UInt64
deriving Repr, DecidableEq

namespace PowerEfficientStrategy

def new (spinLimit : UInt32) (minSleepUs maxSleepUs : UInt64) : PowerEfficientStrategy where
  counter := 0
  spinLimit := spinLimit
  minSleepUs := minSleepUs
  maxSleepUs := max maxSleepUs minSleepUs
  currentSleepUs := minSleepUs

def default : PowerEfficientStrategy := .new 32 10 1000

def reset (s : PowerEfficientStrategy) : PowerEfficientStrategy :=
  { s with counter := 0, currentSleepUs := s.minSleepUs }

def idle (s : PowerEfficientStrategy) : Pause × PowerEfficientStrategy :=
  let s := { s with counter := saturatingSucc s.counter }
  if s.counter ≤ s.spinLimit then (.spinLoop, s)
  else
    (.sleep s.currentSleepUs.toNat,
      { s with currentSleepUs := min (s.currentSleepUs * 2) s.maxSleepUs })

end PowerEfficientStrategy

instance : WaitStrategy PowerEfficientStrategy where
  reset := fun s _ => s.reset
  idle := fun s _ => s.idle
  kind := fun _ _ => .powerEfficient

/-! ## Burst promotion -/

/-- `AdaptiveBurstWaitStrategy`. -/
structure AdaptiveBurstWaitStrategy (S : Type) where
  inner : S
  burstThresholdTicks : UInt32
  windowDuration : ℕ
  burstDecayDuration : ℕ
  windowStart : ℕ
  ticksInWindow : UInt32
  burstUntil : Option ℕ
deriving Repr, DecidableEq

namespace AdaptiveBurstWaitStrategy

variable {S : Type} [WaitStrategy S]

def new (inner : S) (burstThresholdTicks : UInt32) (windowDuration burstDecayDuration now : ℕ) :
    AdaptiveBurstWaitStrategy S where
  inner := inner
  burstThresholdTicks := burstThresholdTicks
  windowDuration := windowDuration
  burstDecayDuration := burstDecayDuration
  windowStart := now
  ticksInWindow := 0
  burstUntil := none

/-- `record_tick`. `duration_since` is zero for an instant in the future. -/
def recordTick (s : AdaptiveBurstWaitStrategy S) (now : ℕ) : AdaptiveBurstWaitStrategy S :=
  let s := { s with ticksInWindow := saturatingSucc s.ticksInWindow }
  let s :=
    if now - s.windowStart ≥ s.windowDuration then
      let s :=
        if s.ticksInWindow ≥ s.burstThresholdTicks then
          { s with burstUntil := some (now + s.burstDecayDuration) }
        else s
      { s with windowStart := now, ticksInWindow := 0 }
    else s
  { s with inner := WaitStrategy.reset s.inner now }

def isInBurstMode (s : AdaptiveBurstWaitStrategy S) (now : ℕ) : Bool :=
  match s.burstUntil with
  | some expiry => decide (now < expiry)
  | none => false

def idle (s : AdaptiveBurstWaitStrategy S) (now : ℕ) : Pause × AdaptiveBurstWaitStrategy S :=
  if s.isInBurstMode now then (.spinLoop, s)
  else
    let (pause, inner) := WaitStrategy.idle s.inner now
    (pause, { s with inner := inner })

end AdaptiveBurstWaitStrategy

instance {S : Type} [WaitStrategy S] : WaitStrategy (AdaptiveBurstWaitStrategy S) where
  reset := fun s now => s.recordTick now
  idle := fun s now => s.idle now
  kind := fun s now => if s.isInBurstMode now then .busySpin else WaitStrategy.kind s.inner now

/-- `DynamicWaitStrategy`. -/
inductive DynamicWaitStrategy
  | busy (s : BusySpinStrategy)
  | hybrid (s : HybridAdaptiveStrategy)
  | power (s : PowerEfficientStrategy)
  | burst (s : AdaptiveBurstWaitStrategy HybridAdaptiveStrategy)

namespace DynamicWaitStrategy

def forTier (tier : HardwareTier) (now : ℕ) : DynamicWaitStrategy :=
  match tier with
  | .tier3EnterpriseBareMetal => .busy {}
  -- 500 ticks in a window of 100 ms, and 50 ms of burst mode
  | .tier2CloudVirtualized =>
    .burst (.new .default 500 (100 * 1000000) (50 * 1000000) now)
  | .tier1MidRange => .power .default

end DynamicWaitStrategy

instance : WaitStrategy DynamicWaitStrategy where
  reset
    | .busy s, now => .busy (WaitStrategy.reset s now)
    | .hybrid s, now => .hybrid (WaitStrategy.reset s now)
    | .power s, now => .power (WaitStrategy.reset s now)
    | .burst s, now => .burst (WaitStrategy.reset s now)
  idle
    | .busy s, now => (WaitStrategy.idle s now).map id .busy
    | .hybrid s, now => (WaitStrategy.idle s now).map id .hybrid
    | .power s, now => (WaitStrategy.idle s now).map id .power
    | .burst s, now => (WaitStrategy.idle s now).map id .burst
  kind
    | .busy s, now => WaitStrategy.kind s now
    | .hybrid s, now => WaitStrategy.kind s now
    | .power s, now => WaitStrategy.kind s now
    | .burst s, now => WaitStrategy.kind s now

end ChainMarketPrice.CoreEngine
