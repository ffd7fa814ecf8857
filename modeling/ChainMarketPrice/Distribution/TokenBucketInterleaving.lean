import ChainMarketPrice.Lib.CasLoop
import ChainMarketPrice.Distribution.TokenBucketTheorems

/-!
# `LockFreeTokenBucket` under concurrent callers

`try_consume` is a compare-exchange loop over the packed word: one iteration is `attempt`. Every
interleaving of its atomic steps grants the calls that the bucket, used by one caller after the
other, would grant in the order of the successful exchanges (`try_consume_linearizable`).
-/

namespace ChainMarketPrice.Distribution
namespace LockFreeTokenBucket

/-- The arguments of a call; every caller passes its own clock. -/
structure Call where
  tokens : UInt32
  nowMs : UInt64
deriving Repr, DecidableEq

/-- Callers `κ` on one bucket, each with any sequence of calls. -/
def concurrent (κ : Type) [DecidableEq κ] (b : LockFreeTokenBucket) :
    Machine (CasLoop.State κ UInt64 Call) (CasLoop.Action κ Call) :=
  CasLoop.machine (fun curr call => b.attempt curr call.tokens call.nowMs) b.state

/-- The bucket with another word. -/
def withState (b : LockFreeTokenBucket) (word : UInt64) : LockFreeTokenBucket :=
  { b with state := word }

/-- One call after the other; `none` when one of them is denied. -/
def replay : LockFreeTokenBucket → List Call → Option LockFreeTokenBucket
  | b, [] => some b
  | b, call :: calls =>
    match b.tryConsume call.tokens call.nowMs with
    | (true, b') => replay b' calls
    | (false, _) => none

/-- Calls that are granted one by one are granted by the replay. -/
lemma replay_eq_some (b : LockFreeTokenBucket) {calls : List Call} {word word' : UInt64}
    (h : calls.foldlM (fun curr call => b.attempt curr call.tokens call.nowMs) word = some word') :
    (b.withState word).replay calls = some (b.withState word') := by
  induction calls generalizing word with
  | nil =>
    cases h
    rfl
  | cons call calls ih =>
    rw [List.foldlM_cons] at h
    obtain ⟨next, hnext, hrest⟩ := Option.bind_eq_some_iff.mp h
    have hgrant : (b.withState word).tryConsume call.tokens call.nowMs
        = (true, b.withState next) := by
      have hattempt : (b.withState word).attempt (b.withState word).state call.tokens call.nowMs
          = some next := hnext
      rw [tryConsume, hattempt]
      rfl
    rw [replay, hgrant]
    exact ih hrest

lemma tryConsume_fst_eq_false {b : LockFreeTokenBucket} {word : UInt64} {call : Call}
    (h : b.attempt word call.tokens call.nowMs = none) :
    ((b.withState word).tryConsume call.tokens call.nowMs).1 = false := by
  have hattempt : (b.withState word).attempt (b.withState word).state call.tokens call.nowMs
      = none := h
  rw [tryConsume, hattempt]

/-! ## The token field -/

/-- Whatever the timestamp, a packed word holds no more tokens than were packed. -/
lemma balance_pack_le (ts : UInt64) (tokens : UInt32) : balance (pack ts tokens) ≤ tokens.toNat := by
  rw [balance_pack]
  exact Nat.mod_le _ _

lemma toNat_refill_le (rate : UInt32) {capacity : UInt32} {curr : UInt64} (nowMs : UInt64)
    (h : balance curr ≤ capacity.toNat) :
    (refill rate capacity curr nowMs).2.toNat ≤ capacity.toNat := by
  have havail : (curr &&& 0x00FFFFFF).toUInt32.toNat ≤ capacity.toNat := by
    rw [UInt64.toNat_toUInt32]
    exact (Nat.mod_le _ _).trans h
  have hmin : ∀ x : UInt32, (min x capacity).toNat ≤ capacity.toNat := by
    intro x
    rw [UInt32.toNat_min]
    exact Nat.min_le_right _ _
  unfold refill
  dsimp only
  split_ifs
  · exact hmin _
  · exact hmin _
  · exact havail
  · exact havail

/-- A granted call leaves at most the burst capacity. -/
lemma balance_attempt_le {b : LockFreeTokenBucket} {curr next : UInt64} {call : Call}
    (h : balance curr ≤ b.burstCapacity.toNat)
    (hnext : b.attempt curr call.tokens call.nowMs = some next) :
    balance next ≤ b.burstCapacity.toNat := by
  have hrefill := toNat_refill_le b.refillRatePerSec call.nowMs h
  unfold attempt at hnext
  dsimp only at hnext
  by_cases hlt : (refill b.refillRatePerSec b.burstCapacity curr call.nowMs).2 < call.tokens
  · rw [if_pos hlt] at hnext
    cases hnext
  · rw [if_neg hlt] at hnext
    cases hnext
    have hsub := UInt32.toNat_sub_of_le _ _ (UInt32.not_lt.mp hlt)
    have hpack := balance_pack_le (refill b.refillRatePerSec b.burstCapacity curr call.nowMs).1
      ((refill b.refillRatePerSec b.burstCapacity curr call.nowMs).2 - call.tokens)
    omega

/-! ## Linearizability -/

/-- The calls of a run are those of a bucket that is used by one caller at a time. -/
structure Linearizable {κ : Type} (b : LockFreeTokenBucket) (s : CasLoop.State κ UInt64 Call) :
    Prop where
  granted : b.replay (s.granted.map Prod.snd) = some (b.withState s.word)
  denied : ∀ r ∈ s.refusals, ∃ word ∈ r.held,
    ((b.withState word).tryConsume r.call.tokens r.call.nowMs).1 = false
  bounded : balance s.word ≤ b.burstCapacity.toNat

/-- Any number of callers, any calls, any interleaving, with compare-exchanges that may also fail
spuriously. -/
theorem try_consume_linearizable {κ : Type} [DecidableEq κ] (ratePerSec capacity : UInt32)
    (initialTimeMs : UInt64) (s : CasLoop.State κ UInt64 Call)
    (h : (concurrent κ (new ratePerSec capacity initialTimeMs)).Reachable s) :
    Linearizable (new ratePerSec capacity initialTimeMs) s := by
  have hinv := CasLoop.inv_of_reachable h
  refine ⟨replay_eq_some _ hinv.replayed, ?_, ?_⟩
  · intro r hr
    obtain ⟨word, hheld, hnone⟩ := hinv.refused r hr
    exact ⟨word, hheld, tryConsume_fst_eq_false hnone⟩
  · refine hinv.word_of_attempt (P := fun word => balance word ≤ capacity.toNat) ?_ ?_
    · exact balance_pack_le initialTimeMs capacity
    · intro word call next hword hnext
      exact balance_attempt_le hword hnext

/-- Two callers want the one token of a bucket. Both load the word; the first exchange fails
spuriously, the other caller gets the token, and the first caller finds a new word and is denied. -/
def raceForOne : List (CasLoop.Action Bool Call) :=
  [.call true ⟨1, 0⟩, .load true, .call false ⟨1, 0⟩, .load false, .exchange true true,
    .exchange false false, .exchange true false, .exchange true false]

lemma raceForOne_allowed :
    (concurrent Bool (new 1 1 0)).Allowed (fun _ _ => True) (concurrent Bool (new 1 1 0)).init
      raceForOne := by decide

theorem try_consume_linearizable_raceForOne :
    let s := ((concurrent Bool (new 1 1 0)).exec (concurrent Bool (new 1 1 0)).init raceForOne).get
      raceForOne_allowed.isSome
    s.granted.map Prod.fst = [false] ∧ s.refusals.map CasLoop.Refusal.held = [[1, 0]] ∧
      Linearizable (new 1 1 0) s :=
  ⟨by decide, by decide, try_consume_linearizable 1 1 0 _ raceForOne_allowed.reachable⟩

end LockFreeTokenBucket
end ChainMarketPrice.Distribution
