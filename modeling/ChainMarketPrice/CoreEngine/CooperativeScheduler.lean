import Mathlib.Data.List.Basic

/-!
# The cooperative scheduler

`ElasticScheduler::step_cooperative` and `run_cooperative_loop` of
`crates/core-engine/src/scheduler/mod.rs`. A stage is any type with the operations of
`PipelineStage`; the world is everything that the stages share with each other and with other
threads, so that a call may change it in any way and may depend on what happened meanwhile.

A cycle counts an active stage as not exhausted whatever it answers, so that `Exhausted` means
that no stage is active: a stage that stays active and only answers `Exhausted` keeps the loop
running.
-/

namespace ChainMarketPrice.CoreEngine
namespace CooperativeScheduler

inductive StepResult
  | Continue
  | Yield
  | Exhausted
deriving Repr, DecidableEq

/-- The operations of a stage that the scheduler uses. -/
class PipelineStage (σ ω : Type*) where
  step : σ → ω → StepResult × σ × ω
  isActive : σ → ω → Bool × ω
  shutdown : σ → ω → σ × ω

open PipelineStage

variable {σ ω : Type*} [PipelineStage σ ω]

/-- The stages, in the order in which they are polled, and what they share. -/
structure Pipeline (σ ω : Type*) where
  stages : List σ
  world : ω
deriving Repr, DecidableEq

/-- The two flags of a cycle, the stages already polled and the world. -/
structure Cycle (σ ω : Type*) where
  workDone : Bool
  allExhausted : Bool
  polled : List σ
  world : ω

/-- One turn of the loop over the stages. -/
def Cycle.poll (c : Cycle σ ω) (stage : σ) : Cycle σ ω :=
  let (active, world) := isActive stage c.world
  if active then
    let (result, stage, world) := step stage world
    { workDone := match result with
        | .Continue => true
        | .Yield => c.workDone
        | .Exhausted => c.workDone
      allExhausted := false
      polled := c.polled ++ [stage]
      world := world }
  else { c with polled := c.polled ++ [stage], world := world }

def stepCooperative (p : Pipeline σ ω) : StepResult × Pipeline σ ω :=
  let c := p.stages.foldl Cycle.poll
    { workDone := false, allExhausted := true, polled := [], world := p.world }
  let result :=
    if c.allExhausted then .Exhausted else if c.workDone then .Continue else .Yield
  (result, ⟨c.polled, c.world⟩)

/-- The calls with which an idle loop gives up the processor. -/
inductive Pause
  | yieldNow
  | sleepMicros (micros : ℕ)
deriving Repr, DecidableEq

/-- The pauses of an idle cycle, by the idle counter. -/
def idlePauses (idleCounter : Int32) : List Pause :=
  (if idleCounter > 64 then [.yieldNow] else []) ++
    (if idleCounter > 256 then [.sleepMicros 200] else [])

/-- The loop at the load of its stop signal, or behind it when `running` is false. -/
structure CooperativeLoop (σ ω : Type*) where
  pipeline : Pipeline σ ω
  idleCounter : Int32
  pauses : List Pause
  running : Bool

namespace CooperativeLoop

def start (p : Pipeline σ ω) : CooperativeLoop σ ω :=
  { pipeline := p, idleCounter := 0, pauses := [], running := true }

/-- Graceful shutdown: one stage after the other. -/
def shutdownStage (p : Pipeline σ ω) (stage : σ) : Pipeline σ ω :=
  let (stage, world) := shutdown stage p.world
  ⟨p.stages ++ [stage], world⟩

/-- Behind the loop. -/
def exit (l : CooperativeLoop σ ω) : CooperativeLoop σ ω :=
  { l with
    pipeline := l.pipeline.stages.foldl shutdownStage ⟨[], l.pipeline.world⟩
    running := false }

/-- From one load of the stop signal, which gives `stop`, to the next. -/
def turn (l : CooperativeLoop σ ω) (stop : Bool) : CooperativeLoop σ ω :=
  if stop then l.exit
  else
    let (result, pipeline) := stepCooperative l.pipeline
    match result with
    | .Continue => { l with pipeline := pipeline, idleCounter := 0 }
    | .Yield =>
      let idleCounter := l.idleCounter + 1
      { l with
        pipeline := pipeline
        idleCounter := idleCounter
        pauses := l.pauses ++ idlePauses idleCounter }
    | .Exhausted => exit { l with pipeline := pipeline }

/-- The loop over the given loads of its stop signal, or until it leaves. -/
def run : CooperativeLoop σ ω → List Bool → CooperativeLoop σ ω
  | l, [] => l
  | l, stop :: loads => if l.running then run (l.turn stop) loads else l

end CooperativeLoop

/-- `run_cooperative_loop`, seen after the given loads of the stop signal. -/
def runCooperativeLoop (p : Pipeline σ ω) (loads : List Bool) : CooperativeLoop σ ω :=
  (CooperativeLoop.start p).run loads

/-- What each stage answers when its turn comes in a cycle; `none` if it is inactive then. -/
def answers : List σ → ω → List (Option StepResult)
  | [], _ => []
  | stage :: stages, world =>
    let (active, world) := isActive stage world
    if active then
      let (result, _, world) := step stage world
      some result :: answers stages world
    else none :: answers stages world

namespace Pipeline

def answers (p : Pipeline σ ω) : List (Option StepResult) :=
  CooperativeScheduler.answers p.stages p.world

/-- In the next cycle every stage is inactive or reports `Exhausted`. -/
def Done (p : Pipeline σ ω) : Prop := ∀ a ∈ p.answers, a = none ∨ a = some .Exhausted

/-- In the next cycle no stage is active. -/
def Inactive (p : Pipeline σ ω) : Prop := ∀ a ∈ p.answers, a = none

/-- Before the cycle `k`, when all cycles before it are run. -/
def before (p : Pipeline σ ω) : ℕ → Pipeline σ ω
  | 0 => p
  | k + 1 => (stepCooperative (p.before k)).2

/-- The first cycle in which every stage is inactive or reports `Exhausted` is cycle `k`. -/
def FirstDone (p : Pipeline σ ω) (k : ℕ) : Prop :=
  (p.before k).Done ∧ ∀ j < k, ¬ (p.before j).Done

end Pipeline

/-! ### One cycle -/

/-- The flags of a cycle say what the stages answered. -/
lemma foldl_poll (stages : List σ) (c : Cycle σ ω) :
    ((stages.foldl Cycle.poll c).allExhausted = true ↔
        c.allExhausted = true ∧ ∀ a ∈ answers stages c.world, a = none) ∧
      ((stages.foldl Cycle.poll c).workDone = true ↔
        c.workDone = true ∨ some .Continue ∈ answers stages c.world) := by
  induction stages generalizing c with
  | nil => simp [answers]
  | cons stage stages ih =>
    obtain ⟨hexhausted, hwork⟩ := ih (c.poll stage)
    rw [List.foldl_cons, hexhausted, hwork]
    simp only [answers, Cycle.poll]
    cases hactive : (isActive stage c.world).1 with
    | false => simp
    | true =>
      -- an active stage clears `allExhausted`, and only `Continue` is work
      cases hresult : (step stage (isActive stage c.world).2).1 with
      | Continue => simp
      | Yield => simp
      | Exhausted => simp

variable (p : Pipeline σ ω)

/-- A cycle is exhausted when no stage was active in it. -/
theorem stepCooperative_exhausted_iff :
    (stepCooperative p).1 = .Exhausted ↔ p.Inactive := by
  obtain ⟨hexhausted, -⟩ := foldl_poll p.stages
    { workDone := false, allExhausted := true, polled := [], world := p.world }
  rw [eq_self, true_and] at hexhausted
  show _ ↔ ∀ a ∈ CooperativeScheduler.answers p.stages p.world, a = none
  rw [← hexhausted]
  unfold stepCooperative
  dsimp only
  split
  · next h => simp [h]
  · next h => split <;> simp [h]

theorem stepCooperative_continue_iff :
    (stepCooperative p).1 = .Continue ↔ some .Continue ∈ p.answers := by
  obtain ⟨hexhausted, hwork⟩ := foldl_poll p.stages
    { workDone := false, allExhausted := true, polled := [], world := p.world }
  rw [eq_self, true_and] at hexhausted
  rw [Bool.false_eq_true, false_or] at hwork
  show _ ↔ some .Continue ∈ CooperativeScheduler.answers p.stages p.world
  rw [← hwork]
  unfold stepCooperative
  dsimp only
  split
  · next h =>
    -- without an active stage nobody reported work
    have hidle : ¬ some .Continue ∈ CooperativeScheduler.answers p.stages p.world := by
      intro hmem
      exact absurd (hexhausted.mp h _ hmem) (Option.some_ne_none _)
    rw [← hwork] at hidle
    simp [hidle]
  · split
    · next h => simp [h]
    · next h => simp [h]

lemma Pipeline.Inactive.done {p : Pipeline σ ω} (h : p.Inactive) : p.Done := by
  intro a ha
  exact .inl (h a ha)

/-- What a cycle is meant to report. -/
def CycleSound : Prop :=
  ((stepCooperative p).1 = .Exhausted ↔ p.Done) ∧
    ((stepCooperative p).1 = .Continue ↔ some .Continue ∈ p.answers)

lemma cycleSound_iff : CycleSound p ↔ (p.Done → p.Inactive) := by
  unfold CycleSound
  rw [stepCooperative_exhausted_iff]
  constructor
  · intro h
    exact h.1.mpr
  · intro h
    exact ⟨⟨Pipeline.Inactive.done, h⟩, stepCooperative_continue_iff p⟩

/-! ### The loop -/

namespace CooperativeLoop

variable (l : CooperativeLoop σ ω)

lemma run_concat (loads : List Bool) (stop : Bool) :
    l.run (loads ++ [stop])
      = if (l.run loads).running then (l.run loads).turn stop else l.run loads := by
  induction loads generalizing l with
  | nil => rfl
  | cons load loads ih =>
    rw [List.cons_append]
    unfold run
    split
    · exact ih (l.turn load)
    · rfl

/-- Without the stop signal the loop leaves after a cycle in which no stage is active. -/
lemma turn_inactive (h : l.pipeline.Inactive) : (l.turn false).running = false := by
  have hresult := (stepCooperative_exhausted_iff l.pipeline).mpr h
  unfold turn
  simp only [Bool.false_eq_true, if_false, hresult]
  rfl

/-- And goes on after any other cycle. -/
lemma turn_active (h : ¬ l.pipeline.Inactive) :
    (l.turn false).running = l.running ∧
      (l.turn false).pipeline = (stepCooperative l.pipeline).2 := by
  rw [← stepCooperative_exhausted_iff] at h
  unfold turn
  simp only [Bool.false_eq_true, if_false]
  cases hresult : (stepCooperative l.pipeline).1 with
  | Continue => exact ⟨rfl, rfl⟩
  | Yield => exact ⟨rfl, rfl⟩
  | Exhausted => exact absurd hresult h

end CooperativeLoop

/-- The loop is left after the cycle `k`, counted from 0, when the stop signal stays unset. -/
def LeavesAfter (k : ℕ) : Prop :=
  (runCooperativeLoop p (List.replicate k false)).running = true ∧
    (runCooperativeLoop p (List.replicate (k + 1) false)).running = false

lemma runCooperativeLoop_succ (k : ℕ) :
    runCooperativeLoop p (List.replicate (k + 1) false)
      = if (runCooperativeLoop p (List.replicate k false)).running then
          (runCooperativeLoop p (List.replicate k false)).turn false
        else runCooperativeLoop p (List.replicate k false) := by
  rw [List.replicate_succ']
  exact CooperativeLoop.run_concat _ _ _

/-- The loop runs as long as every cycle had an active stage. -/
lemma runCooperativeLoop_running {p : Pipeline σ ω} {k : ℕ}
    (h : ∀ j < k, ¬ (p.before j).Inactive) :
    (runCooperativeLoop p (List.replicate k false)).running = true ∧
      (runCooperativeLoop p (List.replicate k false)).pipeline = p.before k := by
  induction k with
  | zero => exact ⟨rfl, rfl⟩
  | succ k ih =>
    obtain ⟨hrunning, hpipeline⟩ := ih fun j hj => h j (Nat.lt_succ_of_lt hj)
    have hactive := h k (Nat.lt_succ_self k)
    rw [← hpipeline] at hactive
    obtain ⟨hstays, hnext⟩ := CooperativeLoop.turn_active _ hactive
    rw [runCooperativeLoop_succ, if_pos hrunning, hstays, hnext, hpipeline]
    exact ⟨hrunning, rfl⟩

lemma leavesAfter_iff {p : Pipeline σ ω} {k : ℕ} (h : p.FirstDone k) :
    LeavesAfter p k ↔ (p.before k).Inactive := by
  have hbefore : ∀ j < k, ¬ (p.before j).Inactive := by
    intro j hj hinactive
    exact h.2 j hj hinactive.done
  obtain ⟨hrunning, hpipeline⟩ := runCooperativeLoop_running hbefore
  unfold LeavesAfter
  rw [runCooperativeLoop_succ, if_pos hrunning]
  constructor
  · intro hleaves
    by_contra hactive
    rw [← hpipeline] at hactive
    rw [(CooperativeLoop.turn_active _ hactive).1, hrunning] at hleaves
    exact absurd hleaves.2 (by decide)
  · intro hinactive
    rw [← hpipeline] at hinactive
    exact ⟨hrunning, CooperativeLoop.turn_inactive _ hinactive⟩

/-- A cycle reports what it is meant to, and the loop is left after the first cycle in which
every stage is inactive or reports `Exhausted`, exactly when no stage is active in a cycle of
that kind. -/
theorem stops_iff_inactive :
    (CycleSound p ↔ (p.Done → p.Inactive)) ∧
      ∀ k, p.FirstDone k → (LeavesAfter p k ↔ (p.before k).Inactive) :=
  ⟨cycleSound_iff p, fun _ h => leavesAfter_iff h⟩

/-- A stage that is active and has nothing left to do. -/
inductive DrainedStage
  | drained

instance : PipelineStage DrainedStage Unit where
  step stage world := (.Exhausted, stage, world)
  isActive _ world := (true, world)
  shutdown stage world := (stage, world)

def drainedPipeline : Pipeline DrainedStage Unit := ⟨[.drained], ()⟩

/-- With one drained stage a cycle yields, and the loop never ends. -/
theorem drained_stage_spins :
    drainedPipeline.FirstDone 0 ∧ (stepCooperative drainedPipeline).1 = .Yield ∧
      ¬ CycleSound drainedPipeline ∧ ¬ LeavesAfter drainedPipeline 0 ∧
      ∀ n, (runCooperativeLoop drainedPipeline (List.replicate n false)).running = true := by
  have hanswers : drainedPipeline.answers = [some .Exhausted] := rfl
  have hdone : drainedPipeline.Done := by
    intro a ha
    rw [hanswers, List.mem_singleton] at ha
    exact .inr ha
  have hactive : ¬ drainedPipeline.Inactive := by
    intro h
    exact absurd (h _ (by rw [hanswers]; exact List.mem_singleton_self _)) (Option.some_ne_none _)
  -- a cycle leaves this pipeline as it was
  have hbefore (k : ℕ) : drainedPipeline.before k = drainedPipeline := by
    induction k with
    | zero => rfl
    | succ k ih => rw [Pipeline.before, ih]; rfl
  have hfirst : drainedPipeline.FirstDone 0 := ⟨hdone, fun j hj => absurd hj (Nat.not_lt_zero j)⟩
  refine ⟨hfirst, rfl, ?_, ?_, ?_⟩
  · rw [cycleSound_iff]
    exact fun h => hactive (h hdone)
  · rw [leavesAfter_iff hfirst]
    exact hactive
  · intro n
    refine (runCooperativeLoop_running ?_).1
    intro j _
    rw [hbefore]
    exact hactive

end CooperativeScheduler
end ChainMarketPrice.CoreEngine
