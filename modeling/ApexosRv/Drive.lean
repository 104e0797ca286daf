import ApexosRv.Mesh

/-!
# The cooperative loop on metal

`drive_goal` (`kernel/src/agent.rs`): poll, restart the step's timer when the
step has changed, and let the `mtime` watchdog fail a step that is quiet for
too long. Arming the timer and waiting for it only let time pass, so they are
the gaps between the readings of a `Clock`.
-/

namespace ApexosRv

/-- What the build fixes: `APEXRV_OBJECTIVE`, `APEXRV_STEP_TIMEOUT_SECS` in
ticks, and the `mesh-goal` feature. -/
structure Build where
  objective : String
  stepTimeout : UInt64
  meshGoal : Bool
  deriving DecidableEq, Repr

def TICKS_PER_SEC : UInt64 := 10000000

/-- Nothing overridden: two seconds for a step. -/
def Build.default : Build where
  objective := "prove the colony contract end-to-end on bare metal"
  stepTimeout := 2 * TICKS_PER_SEC
  meshGoal := false

/-- The `mtime` readings of a run: one before the loop, and in its `i`-th
iteration one when the step has changed and one for the watchdog. -/
structure Clock where
  start : UInt64
  restart : Nat → UInt64
  watchdog : Nat → UInt64

/-- The variables of the loop; `polls` is also the number of the iteration. -/
structure Drive (I : Type) where
  run : GoalRun I
  polls : Nat
  lastStep : Nat
  stepStarted : UInt64
  deriving DecidableEq, Repr

/-- What the loop leaves behind, with all it has printed. -/
structure Outcome (I : Type) where
  run : GoalRun I
  polls : Nat
  lines : List String
  done : Bool
  deriving DecidableEq, Repr

namespace Drive

section
variable {I : Type}

def start (build : Build) (clock : Clock) (inf : I) : Drive I :=
  let run := GoalRun.start ⟨1⟩ build.objective 8 inf
  ⟨run, 0, run.driver.step, clock.start⟩

/-- `matches!(driver.state(), GoalState::Acting)`. -/
def acting (d : Drive I) : Bool := d.run.driver.acting

/-- The line that ends a goal that is done. -/
def closing (build : Build) (polls : Nat) : String :=
  if build.meshGoal then "loop: goal reached Done over the mesh"
  else "loop: goal reached Done in " ++ toString polls ++ " polls"

/-- The printed lines and the answer once the loop has ended. -/
def finish [SerdeJson] (build : Build) (d : Drive I) : Outcome I :=
  let emitted := d.run.emitted.map SerdeJson.eventToString
  if d.run.driver.state = .done then
    ⟨d.run, d.polls,
      emitted ++ [closing build d.polls, "APEXOS-RV: goal done — halting"], true⟩
  else ⟨d.run, d.polls, emitted, false⟩

variable [Inference I]

def iterate (build : Build) (clock : Clock) (d : Drive I) : Drive I :=
  let run := d.run.poll
  let (lastStep, stepStarted) :=
    if run.driver.step ≠ d.lastStep then (run.driver.step, clock.restart d.polls)
    else (d.lastStep, d.stepStarted)
  let run :=
    if run.driver.acting && clock.watchdog d.polls - stepStarted > build.stepTimeout then
      run.advance .stalled
    else run
  ⟨run, d.polls + 1, lastStep, stepStarted⟩

/-- The loop before its `n`-th iteration, or where it ended before. -/
def before (build : Build) (clock : Clock) (inf : I) (n : Nat) : Drive I :=
  WhileLoop.run acting (iterate build clock) n (start build clock inf)

end

end Drive

/-- `drive_goal`, when `fuel` iterations are enough for it. -/
def driveGoal {I : Type} [Inference I] [SerdeJson] (build : Build) (clock : Clock) (inf : I)
    (fuel : Nat) : Option (Outcome I) :=
  (WhileLoop.result Drive.acting (Drive.iterate build clock) fuel
    (Drive.start build clock inf)).map (Drive.finish build)

namespace Drive

variable {I : Type} [Inference I] {build : Build} {clock : Clock}

/-- The timer of the step in flight after a poll. -/
def timer (clock : Clock) (d : Drive I) : UInt64 :=
  if d.run.poll.driver.step = d.run.driver.step then d.stepStarted else clock.restart d.polls

/-- Whether the watchdog stalls the step in flight after a poll. -/
def stalls (build : Build) (clock : Clock) (d : Drive I) : Bool :=
  d.run.poll.driver.acting && clock.watchdog d.polls - d.timer clock > build.stepTimeout

/-- An iteration of a loop whose `last_step` is the driver's. -/
theorem iterate_eq {d : Drive I} (last : d.lastStep = d.run.driver.step) :
    d.iterate build clock =
      ⟨if d.stalls build clock then d.run.poll.advance .stalled else d.run.poll, d.polls + 1,
        d.run.poll.driver.step, d.timer clock⟩ := by
  unfold iterate stalls timer
  rw [last]
  by_cases same : d.run.poll.driver.step = d.run.driver.step <;> simp [same]

theorem iterate_step {d : Drive I} (last : d.lastStep = d.run.driver.step) :
    (d.iterate build clock).run.driver.step = d.run.poll.driver.step := by
  rw [iterate_eq last]
  simp only
  split
  · exact GoalRun.advance_stalled_step _
  · rfl

/-- An iteration polls, and may stall what still acts then. -/
theorem iterate_run (build : Build) (clock : Clock) (d : Drive I) :
    (d.iterate build clock).run = d.run.poll ∨
      d.run.poll.driver.acting = true ∧
        (d.iterate build clock).run = d.run.poll.advance .stalled := by
  have choice : ∀ {stalls : Bool} {run : GoalRun I},
      (stalls = true → run.driver.acting = true) →
      (if stalls then run.advance .stalled else run) = run ∨
        run.driver.acting = true ∧
          (if stalls then run.advance .stalled else run) = run.advance .stalled := by
    intro stalls run acts
    cases stalls with
    | false => exact .inl rfl
    | true => exact .inr ⟨acts rfl, rfl⟩
  exact choice fun stalls => (Bool.and_eq_true_iff.mp stalls).1

theorem before_succ {inf : I} {n : Nat} (act : (before build clock inf n).acting = true) :
    before build clock inf (n + 1) = (before build clock inf n).iterate build clock :=
  (WhileLoop.run_succ n _).trans (if_pos act)

theorem before_of_ended {inf : I} {n : Nat} (ended : (before build clock inf n).acting = false) :
    before build clock inf (n + 1) = before build clock inf n :=
  WhileLoop.run_of_le ended (Nat.le_succ n)

/-- The loop always knows the driver's step and counts its iterations. -/
theorem before_counts (build : Build) (clock : Clock) (inf : I) (n : Nat) :
    (before build clock inf n).lastStep = (before build clock inf n).run.driver.step ∧
      (before build clock inf n).polls ≤ n ∧
      ((before build clock inf n).acting = true → (before build clock inf n).polls = n) := by
  induction n with
  | zero => exact ⟨rfl, Nat.le_refl _, fun _ => rfl⟩
  | succ n ih =>
    obtain ⟨last, count, running⟩ := ih
    cases act : (before build clock inf n).acting
    · rw [before_of_ended act]
      exact ⟨last, Nat.le_succ_of_le count, fun still => absurd (act.symm.trans still) (by simp)⟩
    · rw [before_succ act, iterate_step last, iterate_eq last]
      exact ⟨rfl, Nat.succ_le_succ count, fun _ => congrArg (· + 1) (running act)⟩

end Drive

end ApexosRv
