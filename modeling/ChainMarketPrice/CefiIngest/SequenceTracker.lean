import Mathlib.Init

/-!
# `SequenceTracker`: gaps in a stream of deltas

`crates/cefi-ingest/src/lib.rs`. A snapshot sets the last sequence number; a delta with the
range from `first_seq` to `final_seq` is accepted when it contains the next number, dropped
when it is stale, and otherwise a gap. The next number is `last_sequence + 1` in `u64`, which
wraps in the release profile.
-/

namespace ChainMarketPrice.CefiIngest

/-- `SyncStatus`. -/
inductive SyncStatus
  | synchronizing
  | inSync
  | gapDetected (expected received : UInt64)
deriving Repr, DecidableEq

structure SequenceTracker where
  lastSequence : UInt64
  status : SyncStatus
  gapsDetected : UInt64
  updatesProcessed : UInt64
deriving Repr, DecidableEq

/-- A call on a tracker, with its arguments. -/
inductive TrackerCall
  | onSnapshot (snapshotLastSeq : UInt64)
  | validateSequence (firstSeq finalSeq : UInt64)
deriving Repr, DecidableEq

namespace SequenceTracker

def new : SequenceTracker where
  lastSequence := 0
  status := .synchronizing
  gapsDetected := 0
  updatesProcessed := 0

def onSnapshot (t : SequenceTracker) (snapshotLastSeq : UInt64) : SequenceTracker :=
  { t with lastSequence := snapshotLastSeq, status := .inSync }

/-- The answer and the tracker after. -/
def validateSequence (t : SequenceTracker) (firstSeq finalSeq : UInt64) : Bool × SequenceTracker :=
  if t.status = .synchronizing then (false, t)
  else
    let expected := t.lastSequence + 1
    if firstSeq ≤ expected ∧ finalSeq ≥ expected then
      (true, { t with lastSequence := finalSeq, updatesProcessed := t.updatesProcessed + 1 })
    else if finalSeq ≤ t.lastSequence then (false, t)
    else
      (false, { t with
        status := .gapDetected expected firstSeq
        gapsDetected := t.gapsDetected + 1 })

def step (t : SequenceTracker) : TrackerCall → SequenceTracker
  | .onSnapshot snapshotLastSeq => t.onSnapshot snapshotLastSeq
  | .validateSequence firstSeq finalSeq => (t.validateSequence firstSeq finalSeq).2

/-- A sequence of calls on a new tracker. -/
def run (calls : List TrackerCall) : SequenceTracker := calls.foldl step new

end SequenceTracker
end ChainMarketPrice.CefiIngest
