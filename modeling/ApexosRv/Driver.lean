import ApexosRv.Protocol
import ApexosRv.WhileLoop

/-!
# The goal driver

`agent-core/src/goal.rs`: the verdicts, the inference hook and `GoalDriver`.
An emit sink is the list of events handed to it.
-/

namespace ApexosRv

def MAX_STEPS_CEIL : Nat := 100

/-- The agent's reported outcome for the in-flight step. -/
inductive Verdict where
  | continue (steer : Option String)
  | done
  | blocked (reason : String)
  deriving DecidableEq, Repr

/-- How the turn engine observed the in-flight step. -/
inductive TurnResult where
  | completed (verdict : Verdict)
  | pending
  | stalled
  deriving DecidableEq, Repr

/-- The verdict of a result that has one. -/
def TurnResult.verdict? : TurnResult → Option Verdict
  | .completed verdict => some verdict
  | _ => none

@[simp] theorem TurnResult.verdict?_completed (v : Verdict) :
    (TurnResult.completed v).verdict? = some v := rfl

@[simp] theorem TurnResult.verdict?_pending : TurnResult.pending.verdict? = none := rfl

@[simp] theorem TurnResult.verdict?_stalled : TurnResult.stalled.verdict? = none := rfl

/-- What the driver shows the inference for one step. -/
structure TickContext where
  goal : GoalId
  objective : String
  step : Nat
  maxSteps : Nat
  steer : Option String
  deriving DecidableEq, Repr

class Inference (I : Type) where
  next : I → TickContext → TurnResult × I

/-- `step` and `max_steps` are `u32` in the source. Steps stay within the
clamped budget (`advance_within`), so they never come near the word's end. -/
structure GoalDriver where
  goal : GoalId
  objective : String
  state : GoalState
  step : Nat
  maxSteps : Nat
  steer : Option String
  deriving DecidableEq, Repr

/-- `max_steps.clamp(1, MAX_STEPS_CEIL)`. -/
def clampSteps (maxSteps : Nat) : Nat := max 1 (min maxSteps MAX_STEPS_CEIL)

theorem clampSteps_pos (maxSteps : Nat) : 1 ≤ clampSteps maxSteps := Nat.le_max_left _ _

theorem clampSteps_le (maxSteps : Nat) : clampSteps maxSteps ≤ 100 := by
  simp only [clampSteps, MAX_STEPS_CEIL]
  omega

namespace GoalDriver

/-- `matches!(self.state, GoalState::Acting)`. -/
def acting (d : GoalDriver) : Bool := d.state == .acting

def emitState (d : GoalDriver) (detail : String) : List Event :=
  [.goalStateChanged d.goal d.objective d.state d.step d.maxSteps detail false]

def start (goal : GoalId) (objective : String) (maxSteps : Nat) : GoalDriver × List Event :=
  let d : GoalDriver := ⟨goal, objective, .acting, 1, clampSteps maxSteps, none⟩
  (d, d.emitState "")

def advance (d : GoalDriver) (result : TurnResult) : GoalDriver × List Event :=
  if !d.acting then (d, [])
  else
    let quiet := { d with steer := none }
    match result with
    | .pending => (d, [])
    | .stalled =>
      let d := { quiet with state := .failed }
      (d, d.emitState "step stalled — no completion")
    | .completed .done =>
      let d := { quiet with state := .done }
      (d, d.emitState "")
    | .completed (.blocked reason) =>
      let d := { quiet with state := .blocked }
      (d, d.emitState reason)
    | .completed (.continue steer) =>
      if d.step ≥ d.maxSteps then
        let d := { quiet with state := .done }
        (d, d.emitState "step budget reached")
      else
        let d := { quiet with step := d.step + 1, steer }
        (d, d.emitState "")

def context (d : GoalDriver) : TickContext := ⟨d.goal, d.objective, d.step, d.maxSteps, d.steer⟩

/-- One cooperative tick: consult the inference once. -/
def poll {I : Type} [Inference I] (d : GoalDriver) (inf : I) : GoalDriver × I × List Event :=
  if !d.acting then (d, inf, [])
  else
    let (result, inf) := Inference.next inf d.context
    if result == .pending then (d, inf, [])
    else
      let (d, emitted) := d.advance result
      (d, inf, emitted)

/-! ## What one result does -/

theorem advance_idle {d : GoalDriver} (idle : d.acting = false) (r : TurnResult) :
    d.advance r = (d, []) := by
  simp [advance, idle]

@[simp] theorem advance_pending (d : GoalDriver) : d.advance .pending = (d, []) := by
  unfold advance
  split <;> rfl

theorem advance_stalled {d : GoalDriver} (act : d.acting = true) :
    d.advance .stalled =
      ({ d with state := .failed, steer := none },
        [.goalStateChanged d.goal d.objective .failed d.step d.maxSteps
          "step stalled — no completion" false]) := by
  simp [advance, act, emitState]

theorem advance_done {d : GoalDriver} (act : d.acting = true) :
    d.advance (.completed .done) =
      ({ d with state := .done, steer := none },
        [.goalStateChanged d.goal d.objective .done d.step d.maxSteps "" false]) := by
  simp [advance, act, emitState]

theorem advance_blocked {d : GoalDriver} (act : d.acting = true) (reason : String) :
    d.advance (.completed (.blocked reason)) =
      ({ d with state := .blocked, steer := none },
        [.goalStateChanged d.goal d.objective .blocked d.step d.maxSteps reason false]) := by
  simp [advance, act, emitState]

theorem advance_spent {d : GoalDriver} (act : d.acting = true) (spent : d.maxSteps ≤ d.step)
    (steer : Option String) :
    d.advance (.completed (.continue steer)) =
      ({ d with state := .done, steer := none },
        [.goalStateChanged d.goal d.objective .done d.step d.maxSteps "step budget reached"
          false]) := by
  simp [advance, act, emitState, spent]

theorem advance_continue {d : GoalDriver} (act : d.acting = true) (left : d.step < d.maxSteps)
    (steer : Option String) :
    d.advance (.completed (.continue steer)) =
      ({ d with step := d.step + 1, steer },
        [.goalStateChanged d.goal d.objective d.state (d.step + 1) d.maxSteps "" false]) := by
  simp [advance, act, emitState, Nat.not_le.mpr left]

/-- A driver that is acting applies whatever the inference answers; `Pending`
is the answer that changes nothing. -/
theorem poll_acting {I : Type} [Inference I] {d : GoalDriver} (act : d.acting = true) (inf : I) :
    d.poll inf =
      ((d.advance (Inference.next inf d.context).1).1, (Inference.next inf d.context).2,
        (d.advance (Inference.next inf d.context).1).2) := by
  simp only [poll, act, Bool.not_true, Bool.false_eq_true, ↓reduceIte, beq_iff_eq]
  split
  · rename_i h
    simp [h]
  · rfl

theorem poll_idle {I : Type} [Inference I] {d : GoalDriver} (idle : d.acting = false) (inf : I) :
    d.poll inf = (d, inf, []) := by
  simp [poll, idle]

/-- What no result ever changes. -/
theorem advance_fixed (d : GoalDriver) (r : TurnResult) :
    (d.advance r).1.goal = d.goal ∧ (d.advance r).1.objective = d.objective ∧
      (d.advance r).1.maxSteps = d.maxSteps := by
  unfold advance
  repeat' split
  all_goals exact ⟨rfl, rfl, rfl⟩

/-- A result moves to the next step only while the budget lasts. -/
theorem advance_step (d : GoalDriver) (r : TurnResult) :
    (d.advance r).1.step = d.step ∨
      (d.advance r).1.step = d.step + 1 ∧ d.step < d.maxSteps ∧ (d.advance r).1.acting = true := by
  cases act : d.acting
  · exact .inl (by rw [advance_idle act])
  · cases r with
    | pending => exact .inl (by rw [advance_pending])
    | stalled => exact .inl (by rw [advance_stalled act])
    | completed v =>
      cases v with
      | done => exact .inl (by rw [advance_done act])
      | blocked reason => exact .inl (by rw [advance_blocked act])
      | «continue» steer =>
        by_cases left : d.step < d.maxSteps
        · exact .inr (by rw [advance_continue act left]; exact ⟨rfl, left, act⟩)
        · exact .inl (by rw [advance_spent act (Nat.not_lt.mp left)])

/-- A real result leaves a goal acting only by moving to the next step. -/
theorem advance_acting {d : GoalDriver} (act : d.acting = true) {r : TurnResult}
    (real : r ≠ .pending) (still : (d.advance r).1.acting = true) :
    (d.advance r).1.step = d.step + 1 := by
  cases r with
  | pending => exact absurd rfl real
  | stalled => simp [advance_stalled act, acting] at still
  | completed v =>
    cases v with
    | done => simp [advance_done act, acting] at still
    | blocked reason => simp [advance_blocked act, acting] at still
    | «continue» steer =>
      by_cases left : d.step < d.maxSteps
      · rw [advance_continue act left]
      · simp [advance_spent act (Nat.not_lt.mp left), acting] at still

/-- A result either does nothing or announces the state it leads to. -/
theorem advance_emits (d : GoalDriver) (r : TurnResult) :
    d.advance r = (d, []) ∨ ∃ detail, (d.advance r).2 = (d.advance r).1.emitState detail := by
  unfold advance
  split
  · exact .inl rfl
  · split
    · exact .inl rfl
    · exact .inr ⟨_, rfl⟩
    · exact .inr ⟨_, rfl⟩
    · exact .inr ⟨_, rfl⟩
    · split <;> exact .inr ⟨_, rfl⟩

theorem advance_within {d : GoalDriver} (within : d.step ≤ d.maxSteps) (r : TurnResult) :
    (d.advance r).1.step ≤ (d.advance r).1.maxSteps := by
  rw [(advance_fixed d r).2.2]
  rcases advance_step d r with same | ⟨next, left, _⟩ <;> omega

end GoalDriver

/-! ## A driver and its inference -/

/-- A driver composed with one inference, and what an observer has seen of
the two: the events in the emit sink, and each consultation with its answer. -/
structure GoalRun (I : Type) where
  driver : GoalDriver
  inf : I
  emitted : List Event
  consulted : List (TickContext × TurnResult)
  deriving DecidableEq, Repr

namespace GoalRun

variable {I : Type}

def start (goal : GoalId) (objective : String) (maxSteps : Nat) (inf : I) : GoalRun I :=
  let (driver, emitted) := GoalDriver.start goal objective maxSteps
  ⟨driver, inf, emitted, []⟩

def advance (g : GoalRun I) (result : TurnResult) : GoalRun I :=
  let (driver, emitted) := g.driver.advance result
  { g with driver, emitted := g.emitted ++ emitted }

/-- The verdicts applied so far, each with the step it was applied to. -/
def applied (g : GoalRun I) : List (Nat × Verdict) :=
  g.consulted.filterMap fun (ctx, result) => result.verdict?.map fun v => (ctx.step, v)

/-- The verdict applied to step `k`. -/
def verdictAt (g : GoalRun I) (k : Nat) : Option Verdict := g.applied.lookup k

theorem advance_stalled_step (g : GoalRun I) :
    (g.advance .stalled).driver.step = g.driver.step := by
  cases act : g.driver.acting
  · simp [advance, GoalDriver.advance_idle act]
  · simp [advance, GoalDriver.advance_stalled act]

theorem applied_of_consulted {g g' : GoalRun I} (ctx : TickContext) {r : TurnResult}
    (h : g'.consulted = g.consulted ++ [(ctx, r)]) :
    g'.applied = g.applied ++ (r.verdict?.map fun v => (ctx.step, v)).toList := by
  rw [applied, h, List.filterMap_append]
  congr 1

theorem applied_of_pending {g g' : GoalRun I} (ctx : TickContext)
    (h : g'.consulted = g.consulted ++ [(ctx, .pending)]) : g'.applied = g.applied := by
  rw [applied_of_consulted ctx h]
  exact List.append_nil _

theorem applied_of_completed {g g' : GoalRun I} (ctx : TickContext) {v : Verdict}
    (h : g'.consulted = g.consulted ++ [(ctx, .completed v)]) :
    g'.applied = g.applied ++ [(ctx.step, v)] :=
  applied_of_consulted ctx h

theorem lookup_of_earlier {applied : List (Nat × Verdict)} {k : Nat}
    (earlier : ∀ q ∈ applied, q.1 < k) : applied.lookup k = none := by
  rw [List.lookup_eq_none_iff]
  intro q hq
  have := earlier q hq
  exact bne_iff_ne.mpr (by omega)

variable [Inference I]

/-- The consultation a poll makes: none once the goal has left `Acting`. -/
def consultation (g : GoalRun I) : List (TickContext × TurnResult) :=
  if g.driver.acting then [(g.driver.context, (Inference.next g.inf g.driver.context).1)] else []

def poll (g : GoalRun I) : GoalRun I :=
  let (driver, inf, emitted) := g.driver.poll g.inf
  ⟨driver, inf, g.emitted ++ emitted, g.consulted ++ g.consultation⟩

/-- `GoalDriver::run`, when `fuel` polls are enough for it. -/
def run (fuel : Nat) (g : GoalRun I) : Option (GoalRun I) :=
  WhileLoop.result (fun g => g.driver.acting) poll fuel g

theorem poll_idle {g : GoalRun I} (idle : g.driver.acting = false) : g.poll = g := by
  simp [poll, GoalDriver.poll_idle idle, consultation, idle]

theorem poll_acting {g : GoalRun I} (act : g.driver.acting = true) :
    g.poll =
      { driver := (g.driver.advance (Inference.next g.inf g.driver.context).1).1
        inf := (Inference.next g.inf g.driver.context).2
        emitted := g.emitted ++ (g.driver.advance (Inference.next g.inf g.driver.context).1).2
        consulted := g.consulted ++
          [(g.driver.context, (Inference.next g.inf g.driver.context).1)] } := by
  simp [poll, GoalDriver.poll_acting act, consultation, act]

theorem poll_applied {g : GoalRun I} (act : g.driver.acting = true) :
    g.poll.applied = g.applied ++
      ((Inference.next g.inf g.driver.context).1.verdict?.map fun v =>
        (g.driver.step, v)).toList := by
  rw [poll_acting act]
  exact applied_of_consulted (g := g) g.driver.context rfl

/-- While a goal acts, its step has had no verdict yet. -/
theorem poll_applied_lt {g : GoalRun I}
    (h : g.driver.acting = true → ∀ q ∈ g.applied, q.1 < g.driver.step)
    (still : g.poll.driver.acting = true) : ∀ q ∈ g.poll.applied, q.1 < g.poll.driver.step := by
  cases act : g.driver.acting
  · rw [poll_idle act] at still ⊢
    exact h still
  · intro q hq
    rw [poll_applied act] at hq
    rw [poll_acting act] at still ⊢
    generalize Inference.next g.inf g.driver.context = out at hq still ⊢
    have grows := GoalDriver.advance_step g.driver out.1
    rcases List.mem_append.mp hq with old | new
    · have := h act q old
      simp only
      omega
    · cases answer : out.1 with
      | completed v =>
        have next := GoalDriver.advance_acting act (r := .completed v) (by simp)
          (by simpa [answer] using still)
        have eq : q = (g.driver.step, v) := by
          simpa [answer] using new
        simp [eq, next]
      | pending => simp [answer] at new
      | stalled => simp [answer] at new

end GoalRun

end ApexosRv
