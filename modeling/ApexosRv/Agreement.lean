import ApexosRv.Drive
import ApexosRv.Scripted
import ApexosRv.Wire

/-!
# The metal loop against the host-tested loop

With an inference that always answers, every iteration of `drive_goal` moves
the step or ends the goal. A clock that is quick inside an iteration then never
fires the watchdog, and the loop is `GoalDriver::run` in lockstep.
-/

namespace ApexosRv

section
variable {I : Type} [Inference I]

/-- An inference after the consultations `asked`. -/
def Inference.after (inf : I) (asked : List TickContext) : I :=
  asked.foldl (fun inf ctx => (Inference.next inf ctx).2) inf

def NeverPending (inf : I) : Prop :=
  ∀ asked ctx, (Inference.next (Inference.after inf asked) ctx).1 ≠ .pending

theorem NeverPending.answers {inf : I} (h : NeverPending inf) (ctx : TickContext) :
    (Inference.next inf ctx).1 ≠ .pending := h [] ctx

theorem NeverPending.next {inf : I} (h : NeverPending inf) (ctx : TickContext) :
    NeverPending (Inference.next inf ctx).2 := fun asked => h (ctx :: asked)

/-- The state an event announces. -/
def Event.goalState? : Event → Option GoalState
  | .goalStateChanged _ _ state _ _ _ _ => some state
  | _ => none

/-- A goal of budget 8 whose inference always answers. -/
structure Answering (g : GoalRun I) : Prop where
  budget : g.driver.maxSteps = 8
  within : g.driver.step ≤ 8
  answers : NeverPending g.inf
  consulted : ∀ q ∈ g.consulted, q.2 ≠ .pending
  count : g.consulted.length ≤ 8
  step : g.driver.acting = true → g.driver.step = g.consulted.length + 1
  shown : g.emitted.getLast?.bind Event.goalState? = some g.driver.state

namespace Answering

theorem start (objective : String) {inf : I} (awake : NeverPending inf) :
    Answering (GoalRun.start ⟨1⟩ objective 8 inf) where
  budget := rfl
  within := show 1 ≤ 8 by decide
  answers := awake
  consulted q hq := by simp [GoalRun.start] at hq
  count := Nat.zero_le _
  step _ := rfl
  shown := rfl

theorem poll {g : GoalRun I} (h : Answering g) : Answering g.poll := by
  cases act : g.driver.acting
  · rwa [GoalRun.poll_idle act]
  · rw [GoalRun.poll_acting act]
    have real := h.answers.answers g.driver.context
    have next := h.answers.next g.driver.context
    generalize Inference.next g.inf g.driver.context = out at real next ⊢
    have fixed := GoalDriver.advance_fixed g.driver out.1
    have within : g.driver.step ≤ g.driver.maxSteps := h.budget ▸ h.within
    have here := h.step act
    exact {
      budget := fixed.2.2.trans h.budget
      within := by
        have := GoalDriver.advance_within within out.1
        rw [fixed.2.2, h.budget] at this
        exact this
      answers := next
      consulted := by
        intro q hq
        rcases List.mem_append.mp hq with old | new
        · exact h.consulted q old
        · rw [List.mem_singleton.mp new]
          exact real
      count := by
        have := h.within
        simp only [List.length_append, List.length_singleton]
        omega
      step := by
        intro still
        have := GoalDriver.advance_acting act real still
        simp only [List.length_append, List.length_singleton]
        omega
      shown := by
        rcases GoalDriver.advance_emits g.driver out.1 with nothing | ⟨detail, event⟩
        · simp only [nothing, List.append_nil]
          exact h.shown
        · simp only [event, GoalDriver.emitState, List.getLast?_concat, Option.bind_some]
          rfl }

/-- An answer leaves the goal acting only at its next step. -/
theorem poll_step {g : GoalRun I} (h : Answering g) (act : g.driver.acting = true)
    (still : g.poll.driver.acting = true) : g.poll.driver.step = g.driver.step + 1 := by
  rw [GoalRun.poll_acting act] at still ⊢
  exact GoalDriver.advance_acting act (h.answers.answers _) still

/-- Eight polls are enough. -/
theorem run_ends {g : GoalRun I} (h : Answering g) :
    (WhileLoop.run (fun g => g.driver.acting) GoalRun.poll 8 g).driver.acting = false := by
  let left : GoalRun I → Nat := fun g => if g.driver.acting then 8 - g.consulted.length else 0
  have ends : (WhileLoop.run (fun g => g.driver.acting) GoalRun.poll (left g) g).driver.acting
      = false :=
    WhileLoop.ends_of_measure (I := Answering) left (fun g h act => ⟨h.poll, by
      have longer : g.poll.consulted.length = g.consulted.length + 1 := by
        rw [GoalRun.poll_acting act]
        simp
      have room : g.consulted.length < 8 := by
        have := h.step act
        have := h.within
        omega
      simp only [left, act, ↓reduceIte]
      split <;> omega⟩) h
  have most : left g ≤ 8 := by
    simp only [left]
    split <;> omega
  rw [WhileLoop.run_of_le ends most]
  exact ends

end Answering

variable {build : Build} {clock : Clock}

/-- The metal loop has done what the plain loop has. -/
structure InStep (d : Drive I) (g : GoalRun I) : Prop where
  run : d.run = g
  polls : d.polls = g.consulted.length
  last : d.lastStep = d.run.driver.step
  answering : Answering g

theorem InStep.iterate (quick : ∀ i < 8, clock.watchdog i - clock.restart i ≤ build.stepTimeout)
    {d : Drive I} {g : GoalRun I} (h : InStep d g) (act : d.acting = true) :
    InStep (d.iterate build clock) g.poll := by
  obtain ⟨rfl, polls, last, answering⟩ := h
  have early : d.polls < 8 := by
    have := answering.step act
    have := answering.within
    omega
  have calm : d.stalls build clock = false := by
    cases still : d.run.poll.driver.acting
    · simp [Drive.stalls, still]
    · have moved := answering.poll_step act still
      have timer : d.timer clock = clock.restart d.polls := by
        rw [Drive.timer, if_neg (by omega)]
      have := quick d.polls early
      simp only [Drive.stalls, still, timer, Bool.true_and, decide_eq_false_iff_not]
      exact UInt64.not_lt.mpr this
  have longer : d.run.poll.consulted.length = d.run.consulted.length + 1 := by
    rw [GoalRun.poll_acting act]
    simp
  rw [Drive.iterate_eq last, calm]
  exact ⟨rfl, by simp [polls, longer], rfl, answering.poll⟩

end

/-! ## The success script -/

section

/-- A script without `pending` always answers. -/
theorem ScriptedInference.neverPending {steps : List ScriptStep} (h : .pending ∉ steps)
    (at₀ : Nat) : NeverPending (⟨steps, at₀⟩ : ScriptedInference) := by
  have same : ∀ asked at₀, ∃ at', Inference.after (⟨steps, at₀⟩ : ScriptedInference) asked =
      ⟨steps, at'⟩ := by
    intro asked
    induction asked with
    | nil => exact fun at₀ => ⟨at₀, rfl⟩
    | cons ctx rest ih =>
      intro at₀
      have kept : ∃ at', (Inference.next (⟨steps, at₀⟩ : ScriptedInference) ctx).2 =
          ⟨steps, at'⟩ := by
        simp only [Inference.next, ScriptedInference.next]
        split
        · exact ⟨_, rfl⟩
        · split <;> exact ⟨_, rfl⟩
      obtain ⟨at', kept⟩ := kept
      rw [Inference.after, List.foldl_cons, kept]
      exact ih at'
  intro asked ctx
  obtain ⟨at', here⟩ := same asked at₀
  rw [here]
  simp only [Inference.next, ScriptedInference.next]
  split
  · rename_i entry
    exact absurd (List.mem_of_getElem? entry) h
  · rename_i other
    split <;> simp_all

local instance successJson : SerdeJson := Wire.json []

end

end ApexosRv
