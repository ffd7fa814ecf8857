import Mathlib.Algebra.Order.Group.Nat
import Mathlib.Data.List.Induction
import ChainMarketPrice.Lib.Coverage
import ChainMarketPrice.CefiIngest.SequenceTracker

/-!
# What a `SequenceTracker` accepts

Every accepted delta joins the sequence numbers already accepted, so the accepted ranges leave
no hole (`accepted_leave_no_hole`). A gap is another matter: the tracker refuses everything
before the first snapshot, but not after a gap (`stops_at_gap_iff`).
-/

namespace ChainMarketPrice.CefiIngest
namespace SequenceTracker

open Coverage

/-! ## One call -/

/-- The range of a delta contains the next number. -/
def Reaches (t : SequenceTracker) (firstSeq finalSeq : UInt64) : Prop :=
  firstSeq ≤ t.lastSequence + 1 ∧ t.lastSequence + 1 ≤ finalSeq

/-- The tracker has seen a gap and no snapshot since. -/
def InGap (t : SequenceTracker) : Prop :=
  ∃ expected received, t.status = .gapDetected expected received

/-- A delta is accepted exactly when it contains the next number, in any state but the first. -/
lemma accepts_iff {t : SequenceTracker} {firstSeq finalSeq : UInt64} :
    (t.validateSequence firstSeq finalSeq).1 = true ↔
      t.status ≠ .synchronizing ∧ t.Reaches firstSeq finalSeq := by
  unfold validateSequence Reaches
  by_cases hsync : t.status = .synchronizing
  · simp [hsync]
  · rw [if_neg hsync]
    dsimp only
    split
    · next h => simp [hsync, h.1, h.2]
    · next h =>
      have hout : ¬ (firstSeq ≤ t.lastSequence + 1 ∧ t.lastSequence + 1 ≤ finalSeq) := h
      split <;> simp [hout]

/-- An accepted delta moves the last number to its end. -/
lemma of_accepts {t : SequenceTracker} {firstSeq finalSeq : UInt64}
    (h : (t.validateSequence firstSeq finalSeq).1 = true) :
    (t.validateSequence firstSeq finalSeq).2 =
      { t with lastSequence := finalSeq, updatesProcessed := t.updatesProcessed + 1 } := by
  obtain ⟨hsync, hreach⟩ := accepts_iff.mp h
  have hrange : firstSeq ≤ t.lastSequence + 1 ∧ finalSeq ≥ t.lastSequence + 1 := hreach
  unfold validateSequence
  rw [if_neg hsync]
  dsimp only
  rw [if_pos hrange]

/-- A refused delta may open a gap, and changes nothing else. -/
lemma of_refuses {t : SequenceTracker} {firstSeq finalSeq : UInt64}
    (h : (t.validateSequence firstSeq finalSeq).1 = false) :
    (t.validateSequence firstSeq finalSeq).2 = t ∨
      (t.validateSequence firstSeq finalSeq).2 =
        { t with
          status := .gapDetected (t.lastSequence + 1) firstSeq
          gapsDetected := t.gapsDetected + 1 } := by
  unfold validateSequence at h ⊢
  by_cases hsync : t.status = .synchronizing
  · rw [if_pos hsync]
    exact .inl rfl
  · rw [if_neg hsync] at h ⊢
    dsimp only at h ⊢
    split
    · next hreach =>
      rw [if_pos hreach] at h
      cases h
    · split
      · exact .inl rfl
      · exact .inr rfl

/-- Only a snapshot ends the wait after a gap. -/
lemma inGap_validateSequence {t : SequenceTracker} (h : t.InGap) (firstSeq finalSeq : UInt64) :
    (t.validateSequence firstSeq finalSeq).2.InGap := by
  cases hanswer : (t.validateSequence firstSeq finalSeq).1 with
  | true =>
    rw [of_accepts hanswer]
    exact h
  | false =>
    rcases of_refuses hanswer with hsame | hgap
    · rw [hsame]
      exact h
    · rw [hgap]
      exact ⟨_, _, rfl⟩

/-- Below the largest number the next one is one more. -/
lemma toNat_next {t : SequenceTracker} (h : t.lastSequence.toNat < 2 ^ 64 - 1) :
    (t.lastSequence + 1).toNat = t.lastSequence.toNat + 1 := by
  rw [UInt64.toNat_add]
  exact Nat.mod_eq_of_lt (by show t.lastSequence.toNat + 1 < 2 ^ 64; omega)

lemma lt_of_accepts {t : SequenceTracker} {firstSeq finalSeq : UInt64}
    (hlast : t.lastSequence.toNat < 2 ^ 64 - 1)
    (h : (t.validateSequence firstSeq finalSeq).1 = true) : t.lastSequence < finalSeq := by
  obtain ⟨-, -, hfinal⟩ := accepts_iff.mp h
  have hnext := toNat_next hlast
  rw [UInt64.le_iff_toNat_le] at hfinal
  rw [UInt64.lt_iff_toNat_lt]
  omega

/-! ## Runs -/

/-- A call that is not a snapshot. -/
def IsDelta : TrackerCall → Prop
  | .onSnapshot _ => False
  | .validateSequence _ _ => True

/-- The numbers of a call. -/
def values : TrackerCall → List UInt64
  | .onSnapshot snapshotLastSeq => [snapshotLastSeq]
  | .validateSequence firstSeq finalSeq => [firstSeq, finalSeq]

/-- No number of the calls is the largest one. -/
def Bounded (calls : List TrackerCall) : Prop :=
  ∀ call ∈ calls, ∀ v ∈ values call, v.toNat < 2 ^ 64 - 1

/-- The ranges accepted along the calls from a tracker on. -/
def accepted (t : SequenceTracker) : List TrackerCall → List (UInt64 × UInt64)
  | [] => []
  | .onSnapshot snapshotLastSeq :: calls => accepted (t.onSnapshot snapshotLastSeq) calls
  | .validateSequence firstSeq finalSeq :: calls =>
    let (ok, t') := t.validateSequence firstSeq finalSeq
    (if ok then [(firstSeq, finalSeq)] else []) ++ accepted t' calls

/-- Every sequence number above `lo` and up to `hi` lies in one of the ranges. -/
def NoHole (ranges : List (UInt64 × UInt64)) (lo hi : UInt64) : Prop :=
  ∀ n, lo < n → n ≤ hi → ∃ r ∈ ranges, r.1 ≤ n ∧ n ≤ r.2

/-- On numbers without a width. -/
lemma noHole_of_covers {ranges : List (UInt64 × UInt64)} {lo hi : UInt64}
    (h : Covers (·.1.toNat) (·.2.toNat) ranges lo.toNat hi.toNat) : NoHole ranges lo hi := by
  intro n hlo hhi
  obtain ⟨r, hr, hfirst, hlast⟩ := h n.toNat (UInt64.lt_iff_toNat_lt.mp hlo)
    (UInt64.le_iff_toNat_le.mp hhi)
  exact ⟨r, hr, UInt64.le_iff_toNat_le.mpr hfirst, UInt64.le_iff_toNat_le.mpr hlast⟩

lemma run_append (calls calls' : List TrackerCall) :
    run (calls ++ calls') = calls'.foldl step (run calls) :=
  List.foldl_append

lemma Bounded.tail {call : TrackerCall} {calls : List TrackerCall} (h : Bounded (call :: calls)) :
    Bounded calls :=
  fun call' hmem => h call' (List.mem_cons_of_mem _ hmem)

/-- The last number is always one of a call, so it is never the largest. -/
lemma bounded_step {t : SequenceTracker} {call : TrackerCall}
    (ht : t.lastSequence.toNat < 2 ^ 64 - 1) (hcall : ∀ v ∈ values call, v.toNat < 2 ^ 64 - 1) :
    (t.step call).lastSequence.toNat < 2 ^ 64 - 1 := by
  cases call with
  | onSnapshot snapshotLastSeq => exact hcall snapshotLastSeq (List.mem_singleton_self _)
  | validateSequence firstSeq finalSeq =>
    show (t.validateSequence firstSeq finalSeq).2.lastSequence.toNat < _
    cases hanswer : (t.validateSequence firstSeq finalSeq).1 with
    | true =>
      rw [of_accepts hanswer]
      exact hcall finalSeq (by simp [values])
    | false =>
      rcases of_refuses hanswer with hsame | hgap
      · rw [hsame]
        exact ht
      · rw [hgap]
        exact ht

lemma bounded_run {calls : List TrackerCall} (h : Bounded calls) :
    (run calls).lastSequence.toNat < 2 ^ 64 - 1 := by
  induction calls using List.reverseRecOn with
  | nil => decide
  | append_singleton calls call ih =>
    rw [run_append]
    exact bounded_step (ih fun c hc => h c (List.mem_append_left _ hc))
      (h call (List.mem_append_right _ (List.mem_singleton_self call)))

/-! ## No holes -/

/-- What a delta accepts, it accepts without a hole. -/
lemma covers_step {t : SequenceTracker} (ht : t.lastSequence.toNat < 2 ^ 64 - 1)
    (firstSeq finalSeq : UInt64) :
    Covers (·.1.toNat) (·.2.toNat)
      (if (t.validateSequence firstSeq finalSeq).1 then [(firstSeq, finalSeq)] else [])
      t.lastSequence.toNat (t.validateSequence firstSeq finalSeq).2.lastSequence.toNat ∧
    t.lastSequence.toNat ≤ (t.validateSequence firstSeq finalSeq).2.lastSequence.toNat := by
  cases hanswer : (t.validateSequence firstSeq finalSeq).1 with
  | true =>
    obtain ⟨-, hfirst, -⟩ := accepts_iff.mp hanswer
    have hlt := UInt64.lt_iff_toNat_lt.mp (lt_of_accepts ht hanswer)
    have hnext := toNat_next ht
    rw [UInt64.le_iff_toNat_le] at hfirst
    rw [of_accepts hanswer, if_pos rfl]
    have hreach : ∀ n, t.lastSequence.toNat < n → firstSeq.toNat ≤ n := by
      intro n hn
      omega
    exact ⟨covers_singleton hreach, hlt.le⟩
  | false =>
    have hlast : (t.validateSequence firstSeq finalSeq).2.lastSequence = t.lastSequence := by
      rcases of_refuses hanswer with hsame | hgap
      · rw [hsame]
      · rw [hgap]
    rw [hlast]
    exact ⟨covers_self _, le_refl _⟩

/-- Deltas since a snapshot: the accepted ranges reach from where they began to the last number,
which never went back. -/
lemma covers_run {t : SequenceTracker} {deltas : List TrackerCall}
    (ht : t.lastSequence.toNat < 2 ^ 64 - 1) (hbound : Bounded deltas)
    (hdeltas : ∀ call ∈ deltas, IsDelta call) :
    Covers (·.1.toNat) (·.2.toNat) (accepted t deltas) t.lastSequence.toNat
      (deltas.foldl step t).lastSequence.toNat ∧
    t.lastSequence.toNat ≤ (deltas.foldl step t).lastSequence.toNat := by
  induction deltas generalizing t with
  | nil => exact ⟨covers_self _, le_refl _⟩
  | cons call deltas ih =>
    cases call with
    | onSnapshot snapshotLastSeq =>
      exact absurd (hdeltas _ List.mem_cons_self) id
    | validateSequence firstSeq finalSeq =>
      have hnext := bounded_step ht (hbound _ List.mem_cons_self)
      obtain ⟨hcover, hle⟩ := covers_step ht firstSeq finalSeq
      obtain ⟨hcovers, hles⟩ :=
        ih hnext hbound.tail fun call hmem => hdeltas call (List.mem_cons_of_mem _ hmem)
      exact ⟨hcover.append hcovers, hle.trans hles⟩

/-- What a run of calls promises about the deltas it accepted. -/
structure AcceptsWithoutHoles (calls : List TrackerCall) : Prop where
  no_hole : ∀ before s deltas, calls = before ++ .onSnapshot s :: deltas →
    (∀ call ∈ deltas, IsDelta call) →
    NoHole (accepted (run (before ++ [.onSnapshot s])) deltas) s (run calls).lastSequence
  ends_above : ∀ before firstSeq finalSeq after,
    calls = before ++ .validateSequence firstSeq finalSeq :: after →
    ((run before).validateSequence firstSeq finalSeq).1 = true →
    (run before).lastSequence < finalSeq
  never_decreases : ∀ before deltas after, calls = before ++ deltas ++ after →
    (∀ call ∈ deltas, IsDelta call) →
    (run before).lastSequence ≤ (run (before ++ deltas)).lastSequence
  refused_unchanged : ∀ before firstSeq finalSeq after,
    calls = before ++ .validateSequence firstSeq finalSeq :: after →
    ((run before).validateSequence firstSeq finalSeq).1 = false →
    ((run before).validateSequence firstSeq finalSeq).2.lastSequence = (run before).lastSequence ∧
    ((run before).validateSequence firstSeq finalSeq).2.updatesProcessed =
      (run before).updatesProcessed

lemma Bounded.of_append {calls calls' : List TrackerCall} (h : Bounded (calls ++ calls')) :
    Bounded calls ∧ Bounded calls' :=
  ⟨fun call hmem => h call (List.mem_append_left _ hmem),
    fun call hmem => h call (List.mem_append_right _ hmem)⟩

/-- Below the largest number the accepted deltas leave no hole, whatever the calls. -/
theorem accepted_leave_no_hole (calls : List TrackerCall) (h : Bounded calls) :
    AcceptsWithoutHoles calls where
  no_hole before s deltas hcalls hdeltas := by
    rw [hcalls] at h
    obtain ⟨hbefore, hrest⟩ := h.of_append
    have hsnapshot : (run (before ++ [.onSnapshot s])).lastSequence = s := by
      rw [run_append]
      rfl
    have hs : (run (before ++ [.onSnapshot s])).lastSequence.toNat < 2 ^ 64 - 1 := by
      rw [hsnapshot]
      exact hrest (.onSnapshot s) List.mem_cons_self s (List.mem_singleton_self s)
    -- from the snapshot on, the accepted deltas cover every number up to the last
    have hcovers := (covers_run hs hrest.tail hdeltas).1
    rw [hsnapshot, ← run_append, List.append_assoc, List.singleton_append, ← hcalls] at hcovers
    exact noHole_of_covers hcovers
  ends_above before firstSeq finalSeq after hcalls haccepts := by
    rw [hcalls] at h
    exact lt_of_accepts (bounded_run h.of_append.1) haccepts
  never_decreases before deltas after hcalls hdeltas := by
    rw [hcalls, List.append_assoc] at h
    obtain ⟨hbefore, hrest⟩ := h.of_append
    rw [run_append, UInt64.le_iff_toNat_le]
    exact (covers_run (bounded_run hbefore) hrest.of_append.1 hdeltas).2
  refused_unchanged before firstSeq finalSeq after _ hrefuses := by
    -- a refusal leaves the tracker as it was, or marks the gap
    rcases of_refuses hrefuses with hsame | hgap
    · rw [hsame]
      exact ⟨rfl, rfl⟩
    · rw [hgap]
      exact ⟨rfl, rfl⟩

/-- Deltas that overlap, are stale, are malformed, skip ahead and fill the hole again. -/
def untidyDeltas : List TrackerCall :=
  [.onSnapshot 100, .validateSequence 99 105, .validateSequence 90 95, .validateSequence 120 107,
    .validateSequence 103 110, .validateSequence 115 120, .validateSequence 111 118]

theorem accepted_leave_no_hole_untidyDeltas : AcceptsWithoutHoles untidyDeltas :=
  accepted_leave_no_hole untidyDeltas (by simp [Bounded, untidyDeltas, values])

/-! ## After a gap -/

/-- Deltas are accepted only in sync; once a call has left the tracker in a gap, every later
delta is refused until a snapshot. -/
structure StopsAtGap (calls : List TrackerCall) : Prop where
  accepts_in_sync : ∀ before firstSeq finalSeq after,
    calls = before ++ .validateSequence firstSeq finalSeq :: after →
    ((run before).validateSequence firstSeq finalSeq).1 = true → (run before).status = .inSync
  refuses_in_gap : ∀ before firstSeq finalSeq between firstSeq' finalSeq' after,
    calls = before ++ .validateSequence firstSeq finalSeq ::
      (between ++ .validateSequence firstSeq' finalSeq' :: after) →
    ((run before).validateSequence firstSeq finalSeq).2.InGap →
    (∀ call ∈ between, IsDelta call) →
    ((run (before ++ .validateSequence firstSeq finalSeq :: between)).validateSequence
      firstSeq' finalSeq').1 = false

/-- No delta that comes in a gap contains the next number. -/
def NoneReachesInGap (calls : List TrackerCall) : Prop :=
  ∀ before firstSeq finalSeq after, calls = before ++ .validateSequence firstSeq finalSeq :: after →
    (run before).InGap → ¬ (run before).Reaches firstSeq finalSeq

lemma inGap_foldl {t : SequenceTracker} (h : t.InGap) {deltas : List TrackerCall}
    (hdeltas : ∀ call ∈ deltas, IsDelta call) : (deltas.foldl step t).InGap := by
  induction deltas generalizing t with
  | nil => exact h
  | cons call deltas ih =>
    cases call with
    | onSnapshot snapshotLastSeq => exact absurd (hdeltas _ List.mem_cons_self) id
    | validateSequence firstSeq finalSeq =>
      exact ih (inGap_validateSequence h firstSeq finalSeq)
        fun call hmem => hdeltas call (List.mem_cons_of_mem _ hmem)

/-- In a gap a delta is judged as in sync. -/
lemma accepts_iff_of_inGap {t : SequenceTracker} (h : t.InGap) {firstSeq finalSeq : UInt64} :
    (t.validateSequence firstSeq finalSeq).1 = true ↔ t.Reaches firstSeq finalSeq := by
  obtain ⟨expected, received, hstatus⟩ := h
  rw [accepts_iff, hstatus]
  exact and_iff_right (by simp)

/-- The tracker stops at a gap exactly in the runs where no delta reaches the next number while
it waits. -/
theorem stops_at_gap_iff (calls : List TrackerCall) :
    StopsAtGap calls ↔ NoneReachesInGap calls := by
  constructor
  · intro h before firstSeq finalSeq after hcalls hgap hreaches
    have hsync := h.accepts_in_sync before firstSeq finalSeq after hcalls
      ((accepts_iff_of_inGap hgap).mpr hreaches)
    obtain ⟨expected, received, hstatus⟩ := hgap
    rw [hsync] at hstatus
    cases hstatus
  · intro h
    constructor
    · intro before firstSeq finalSeq after hcalls haccepts
      obtain ⟨hsync, hreaches⟩ := accepts_iff.mp haccepts
      cases hstatus : (run before).status with
      | synchronizing => exact absurd hstatus hsync
      | inSync => rfl
      | gapDetected expected received =>
        exact absurd hreaches (h before firstSeq finalSeq after hcalls ⟨_, _, hstatus⟩)
    · intro before firstSeq finalSeq between firstSeq' finalSeq' after hcalls hgap hbetween
      -- only a snapshot closes a gap
      have hstill : (run (before ++ .validateSequence firstSeq finalSeq :: between)).InGap := by
        rw [run_append]
        exact inGap_foldl hgap hbetween
      rw [← Bool.not_eq_true, accepts_iff_of_inGap hstill]
      exact h _ firstSeq' finalSeq' after (by rw [hcalls, List.append_assoc]; rfl) hstill

/-- The snapshot ends at 100; the delta from 105 to 110 is a gap; the late one from 101 to 104
is accepted all the same. -/
theorem late_delta_accepted : ¬ ∀ calls, StopsAtGap calls := by
  intro h
  have hrun := (h [.onSnapshot 100, .validateSequence 105 110,
    .validateSequence 101 104]).accepts_in_sync
    [.onSnapshot 100, .validateSequence 105 110] 101 104 [] rfl (by decide)
  revert hrun
  decide

end SequenceTracker
end ChainMarketPrice.CefiIngest
