import ApexosRv.Mesh

/-!
# The remote model cannot talk past the budget

A goal on the mesh under polls and watchdog stalls, against any link: `Ledger`
accounts for every prompt sent and every `turn_complete` taken.
-/

namespace ApexosRv

/-- What drives a goal on the mesh: the cooperative loop polls, and its
watchdog may stall the step. -/
inductive Move where
  | poll
  | stall
  deriving DecidableEq, Repr

/-- The steer a verdict brings. -/
def Verdict.steer? : Verdict → Option String
  | .continue steer => steer
  | _ => none

/-- The steer of the verdict before prompt `i`. -/
def steerBefore (applied : List (Nat × Verdict)) : Nat → Option String
  | 0 => none
  | i + 1 => applied[i]?.bind (·.2.steer?)

theorem steerBefore_of_le {applied : List (Nat × Verdict)} {i : Nat} (le : i ≤ applied.length)
    (last : Nat × Verdict) : steerBefore (applied ++ [last]) i = steerBefore applied i := by
  cases i with
  | zero => rfl
  | succ i => rw [steerBefore, steerBefore, List.getElem?_append_left le]

theorem steerBefore_last (applied : List (Nat × Verdict)) (last : Nat × Verdict) :
    steerBefore (applied ++ [last]) (applied.length + 1) = last.2.steer? := by
  simp [steerBefore]

/-- A verdict that leaves the goal acting is a `Continue`, and its steer is kept. -/
theorem GoalDriver.advance_steer {d : GoalDriver} (act : d.acting = true) {v : Verdict}
    (still : (d.advance (.completed v)).1.acting = true) :
    (d.advance (.completed v)).1.steer = v.steer? := by
  cases v with
  | done => simp [advance_done act, acting] at still
  | blocked reason => simp [advance_blocked act, acting] at still
  | «continue» steer =>
    by_cases left : d.step < d.maxSteps
    · rw [advance_continue act left]
      rfl
    · simp [advance_spent act (Nat.not_lt.mp left), acting] at still

section
variable {M : Type} [TextLink M] [SerdeJson]

def GoalRun.move (g : GoalRun (MeshInference M)) : Move → GoalRun (MeshInference M)
  | .poll => g.poll
  | .stall => g.advance .stalled

theorem GoalRun.move_idle {g : GoalRun (MeshInference M)} (idle : g.driver.acting = false)
    (m : Move) : g.move m = g := by
  cases m with
  | poll => exact GoalRun.poll_idle idle
  | stall => simp [GoalRun.move, GoalRun.advance, GoalDriver.advance_idle idle]

theorem GoalRun.moves_idle {g : GoalRun (MeshInference M)} (idle : g.driver.acting = false)
    (ms : List Move) : ms.foldl GoalRun.move g = g := by
  induction ms with
  | nil => rfl
  | cons m rest ih => rw [List.foldl_cons, GoalRun.move_idle idle, ih]

/-- How many turns a stream of texts completes. -/
def completions (texts : List String) : Nat := (signals texts).count .complete

theorem completions_append (a b : List String) :
    completions (a ++ b) = completions a + completions b := by
  simp [completions]

theorem completions_of_deltas {texts deltas : List String}
    (heard : signals texts = deltas.map .delta) : completions texts = 0 := by
  simp [completions, heard, List.count_eq_zero]

theorem completions_of_turn {texts deltas : List String}
    (heard : signals texts = deltas.map .delta ++ [.complete]) : completions texts = 1 := by
  have none : (deltas.map Signal.delta).count .complete = 0 := by simp [List.count_eq_zero]
  simp [completions, heard, none]

/-- A goal started on `mesh₀`, which has sent `prompts` and taken `taken` since. -/
structure Ledger (goal : GoalId) (objective : String) (m : Nat) (mesh₀ : M)
    (prompts taken : List String) (g : GoalRun (MeshInference M)) : Prop where
  charter : g.driver.goal = goal ∧ g.driver.objective = objective ∧ g.driver.maxSteps = m
  sent : Link.sent g.inf.mesh = Link.sent mesh₀ ++ prompts
  stream : Link.unread mesh₀ = taken ++ Link.unread g.inf.mesh
  directed : ∀ i (h : i < prompts.length),
    prompts[i] = MeshInference.promptText ⟨goal, objective, i + 1, m, steerBefore g.applied i⟩
  counted : g.applied.length = completions taken
  steered : g.driver.acting = true → g.driver.steer = steerBefore g.applied g.applied.length
  balance : prompts.length = completions taken + if g.inf.inFlight then 1 else 0
  acting : g.driver.acting = true → completions taken + 1 = g.driver.step
  bounded : prompts.length ≤ g.driver.step
  within : g.driver.step ≤ m

namespace Ledger

variable {goal : GoalId} {objective : String} {m : Nat} {mesh₀ : M} {prompts taken : List String}
  {g : GoalRun (MeshInference M)}

theorem start (goal : GoalId) (objective : String) (maxSteps : Nat) (mesh : M) :
    Ledger goal objective (clampSteps maxSteps) mesh [] []
      (GoalRun.start goal objective maxSteps (MeshInference.new mesh)) where
  charter := ⟨rfl, rfl, rfl⟩
  sent := by simp [GoalRun.start, MeshInference.new]
  stream := rfl
  directed i h := by simp at h
  counted := rfl
  steered _ := rfl
  balance := rfl
  acting _ := rfl
  bounded := Nat.zero_le _
  within := clampSteps_pos maxSteps

theorem stall (h : Ledger goal objective m mesh₀ prompts taken g) :
    Ledger goal objective m mesh₀ prompts taken (g.advance .stalled) := by
  cases act : g.driver.acting
  · have same : g.advance .stalled = g := GoalRun.move_idle act .stall
    rwa [same]
  · have fixed := GoalDriver.advance_stalled act
    exact {
      charter := by simpa [GoalRun.advance, fixed] using h.charter
      sent := h.sent
      stream := h.stream
      directed := h.directed
      counted := h.counted
      steered := by simp [GoalRun.advance, fixed, GoalDriver.acting]
      balance := h.balance
      acting := by simp [GoalRun.advance, fixed, GoalDriver.acting]
      bounded := by simpa [GoalRun.advance, fixed] using h.bounded
      within := by simpa [GoalRun.advance, fixed] using h.within }

/-- The prompt that is due is the next one in order. -/
theorem next_prompt (h : Ledger goal objective m mesh₀ prompts taken g)
    (act : g.driver.acting = true) (grounded : g.inf.inFlight = false) :
    g.driver.context =
      ⟨goal, objective, prompts.length + 1, m, steerBefore g.applied prompts.length⟩ := by
  have balance := h.balance
  simp only [grounded, Bool.false_eq_true, ↓reduceIte, Nat.add_zero] at balance
  obtain ⟨rfl, rfl, rfl⟩ := h.charter
  rw [balance, h.acting act, ← h.counted, ← h.steered act]
  rfl

/-- A prompt goes out for the step in flight, the next one in order. -/
theorem asks (h : Ledger goal objective m mesh₀ prompts taken g) (act : g.driver.acting = true)
    (grounded : g.inf.inFlight = false) :
    Ledger goal objective m mesh₀ (prompts ++ [MeshInference.promptText g.driver.context]) taken
      { g with
        inf := ⟨Link.send g.inf.mesh (MeshInference.promptText g.driver.context), "", true⟩
        consulted := g.consulted ++ [(g.driver.context, .pending)] } := by
  have balance := h.balance
  have next := h.acting act
  have due := h.next_prompt act grounded
  simp only [grounded, Bool.false_eq_true, ↓reduceIte, Nat.add_zero] at balance
  constructor
  case charter => exact h.charter
  case sent => simp [h.sent]
  case stream => simp [h.stream]
  case directed =>
    intro i before
    rw [GoalRun.applied_of_pending (g := g) g.driver.context rfl]
    by_cases old : i < prompts.length
    · rw [List.getElem_append_left old]
      exact h.directed i old
    · obtain rfl : i = prompts.length := by
        rw [List.length_append, List.length_singleton] at before
        omega
      simp [due]
  case counted => rw [GoalRun.applied_of_pending (g := g) g.driver.context rfl, h.counted]
  case steered =>
    rw [GoalRun.applied_of_pending (g := g) g.driver.context rfl]
    exact h.steered
  case balance => simp [balance]
  case acting => exact h.acting
  case bounded =>
    simp only [List.length_append, List.length_singleton]
    omega
  case within => exact h.within

/-- Deltas bring no verdict. -/
theorem waits (h : Ledger goal objective m mesh₀ prompts taken g) (flying : g.inf.inFlight = true)
    {mesh : M} {more deltas : List String} {reply : String}
    (stream : Link.unread g.inf.mesh = more ++ Link.unread mesh)
    (sent : Link.sent mesh = Link.sent g.inf.mesh) (heard : signals more = deltas.map .delta) :
    Ledger goal objective m mesh₀ prompts (taken ++ more)
      { g with
        inf := ⟨mesh, reply, true⟩
        consulted := g.consulted ++ [(g.driver.context, .pending)] } := by
  have applied : ({ g with
      inf := ⟨mesh, reply, true⟩
      consulted := g.consulted ++ [(g.driver.context, .pending)] } :
        GoalRun (MeshInference M)).applied = g.applied :=
    GoalRun.applied_of_pending g.driver.context rfl
  have silent : completions (taken ++ more) = completions taken := by
    rw [completions_append, completions_of_deltas heard, Nat.add_zero]
  constructor
  case charter => exact h.charter
  case sent => exact sent.trans h.sent
  case stream => rw [h.stream, stream, List.append_assoc]
  case directed =>
    rw [applied]
    exact h.directed
  case counted => rw [applied, h.counted, silent]
  case steered =>
    rw [applied]
    exact h.steered
  case balance =>
    rw [silent]
    simpa [flying] using h.balance
  case acting =>
    rw [silent]
    exact h.acting
  case bounded => exact h.bounded
  case within => exact h.within

/-- The end of a turn brings the verdict, and the steer of the next prompt. -/
theorem answers (h : Ledger goal objective m mesh₀ prompts taken g)
    (act : g.driver.acting = true) (flying : g.inf.inFlight = true)
    {mesh : M} {more deltas : List String} {reply : String} {verdict : Verdict}
    (stream : Link.unread g.inf.mesh = more ++ Link.unread mesh)
    (sent : Link.sent mesh = Link.sent g.inf.mesh)
    (heard : signals more = deltas.map .delta ++ [.complete]) :
    Ledger goal objective m mesh₀ prompts (taken ++ more)
      { driver := (g.driver.advance (.completed verdict)).1
        inf := ⟨mesh, reply, false⟩
        emitted := g.emitted ++ (g.driver.advance (.completed verdict)).2
        consulted := g.consulted ++ [(g.driver.context, .completed verdict)] } := by
  have applied : ({
      driver := (g.driver.advance (.completed verdict)).1
      inf := ⟨mesh, reply, false⟩
      emitted := g.emitted ++ (g.driver.advance (.completed verdict)).2
      consulted := g.consulted ++ [(g.driver.context, .completed verdict)] } :
        GoalRun (MeshInference M)).applied = g.applied ++ [(g.driver.step, verdict)] :=
    GoalRun.applied_of_completed g.driver.context rfl
  have told : completions (taken ++ more) = completions taken + 1 := by
    rw [completions_append, completions_of_turn heard]
  have fixed := GoalDriver.advance_fixed g.driver (.completed verdict)
  have grown := GoalDriver.advance_step g.driver (.completed verdict)
  have balance := h.balance
  have next := h.acting act
  have charter := h.charter
  have bounded := h.bounded
  have within := h.within
  simp only [flying, ↓reduceIte] at balance
  constructor
  case charter => simpa [fixed] using charter
  case sent => exact sent.trans h.sent
  case stream => rw [h.stream, stream, List.append_assoc]
  case directed =>
    intro i before
    have told_before : i ≤ g.applied.length := by
      rw [h.counted]
      omega
    rw [applied, steerBefore_of_le told_before]
    exact h.directed i before
  case counted => rw [applied, List.length_append, h.counted, told, List.length_singleton]
  case steered =>
    intro still
    rw [applied, List.length_append, List.length_singleton, steerBefore_last]
    exact GoalDriver.advance_steer act still
  case balance =>
    rw [told]
    simpa using balance
  case acting =>
    intro still
    have := GoalDriver.advance_acting act (by simp) still
    rw [told]
    simp only
    omega
  case bounded =>
    simp only
    omega
  case within =>
    simp only
    omega

theorem poll (h : Ledger goal objective m mesh₀ prompts taken g) :
    ∃ prompts' taken', Ledger goal objective m mesh₀ prompts' taken' g.poll := by
  have step := polled g
  generalize g.poll = g' at step
  cases step with
  | idle idle => exact ⟨prompts, taken, h⟩
  | prompts act grounded => exact ⟨_, taken, h.asks act grounded⟩
  | waits act flying mesh more deltas stream sent heard =>
    exact ⟨prompts, taken ++ more, h.waits flying stream sent heard⟩
  | answers act flying mesh more deltas verdict stream sent heard reads =>
    exact ⟨prompts, taken ++ more, h.answers act flying stream sent heard⟩

theorem moves (ms : List Move) (h : Ledger goal objective m mesh₀ prompts taken g) :
    ∃ prompts' taken', Ledger goal objective m mesh₀ prompts' taken' (ms.foldl GoalRun.move g) := by
  induction ms generalizing g prompts taken with
  | nil => exact ⟨prompts, taken, h⟩
  | cons move rest ih =>
    cases move with
    | poll =>
      obtain ⟨prompts', taken', h'⟩ := h.poll
      exact ih h'
    | stall => exact ih h.stall

end Ledger

/-- **The remote model cannot talk past the budget.** Whatever texts the link
hands out, and whenever it does, the prompts sent are the directives of steps
`1, 2, 3, …` in order, each with the steer of the verdict before it; there are as
many as `turn_complete`s taken, which bring a verdict each, plus one while a turn
is in flight, so at most `m ≤ 100`. While the goal acts with no turn in flight, the
next poll sends; and no prompt follows once the goal has left `Acting`. -/
theorem prompts_within_budget (goal : GoalId) (objective : String) (maxSteps : Nat) (mesh : M)
    (moves : List Move) :
    let g := moves.foldl GoalRun.move
      (GoalRun.start goal objective maxSteps (MeshInference.new mesh))
    ∃ prompts taken,
      Link.sent g.inf.mesh = Link.sent mesh ++ prompts ∧
      Link.unread mesh = taken ++ Link.unread g.inf.mesh ∧
      (∀ i (h : i < prompts.length), prompts[i] = MeshInference.promptText
        ⟨goal, objective, i + 1, clampSteps maxSteps, steerBefore g.applied i⟩) ∧
      g.applied.length = completions taken ∧
      prompts.length ≤ clampSteps maxSteps ∧ clampSteps maxSteps ≤ 100 ∧
      prompts.length = completions taken + (if g.inf.inFlight then 1 else 0) ∧
      (g.driver.state = .acting → g.inf.inFlight = false →
        Link.sent g.poll.inf.mesh = Link.sent g.inf.mesh ++ [MeshInference.promptText
          ⟨goal, objective, prompts.length + 1, clampSteps maxSteps,
            steerBefore g.applied prompts.length⟩]) ∧
      (g.driver.state ≠ .acting → ∀ more : List Move,
        Link.sent (more.foldl GoalRun.move g).inf.mesh = Link.sent g.inf.mesh) := by
  intro g
  obtain ⟨prompts, taken, h⟩ := (Ledger.start goal objective maxSteps mesh).moves moves
  refine ⟨prompts, taken, h.sent, h.stream, h.directed, h.counted,
    Nat.le_trans h.bounded h.within, clampSteps_le maxSteps, h.balance, ?_, ?_⟩
  · intro state grounded
    have act : g.driver.acting = true := by simpa [GoalDriver.acting] using state
    cases ApexosRv.moves act with
    | sends _ _ sent => rw [sent, h.next_prompt act grounded]
    | drains flying =>
      rw [grounded] at flying
      cases flying
    | ends flying =>
      rw [grounded] at flying
      cases flying
  intro left more
  have idle : g.driver.acting = false := by simpa [GoalDriver.acting] using left
  rw [GoalRun.moves_idle idle]

end

end ApexosRv
