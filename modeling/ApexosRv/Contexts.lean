import ApexosRv.Reference

/-!
# What the inference is shown

A `Recorder` around an inference notes every context it is consulted with and
changes nothing else, so `shown` lists what one poll consults with. Whenever
the driver consults, the context is the truth about the results it has seen
(`consultations_true`).
-/

namespace ApexosRv

/-- An inference, and the contexts it has been shown. -/
structure Recorder (I : Type) where
  inf : I
  seen : List TickContext

instance {I : Type} [Inference I] : Inference (Recorder I) where
  next self ctx :=
    let (result, inf) := Inference.next self.inf ctx
    (result, ⟨inf, self.seen ++ [ctx]⟩)

namespace GoalDriver

variable {I : Type} [Inference I]

/-- The contexts that one poll consults an inference with. -/
def shown (d : GoalDriver) (inf : I) : List TickContext :=
  (d.poll (⟨inf, []⟩ : Recorder I)).2.1.seen

theorem shown_acting {d : GoalDriver} (act : d.acting = true) (inf : I) :
    d.shown inf = [d.context] := by
  rw [shown, poll_acting act]
  rfl

theorem shown_idle {d : GoalDriver} (idle : d.acting = false) (inf : I) : d.shown inf = [] := by
  rw [shown, poll_idle idle]

theorem acting_iff {d : GoalDriver} : d.acting = true ↔ d.state = .acting := beq_iff_eq

theorem idle_iff {d : GoalDriver} : d.acting = false ↔ d.state ≠ .acting := by
  rw [ne_eq, ← acting_iff, Bool.not_eq_true]

theorem mem_shown {d : GoalDriver} {inf : I} {ctx : TickContext} :
    ctx ∈ d.shown inf ↔ d.acting = true ∧ ctx = d.context := by
  cases act : d.acting
  · simp [shown_idle act]
  · simp [shown_acting act]

end GoalDriver

/-- The steer a result brings. -/
def TurnResult.steer? : TurnResult → Option String
  | .completed (.continue steer) => steer
  | _ => none

/-- The steer of the last result, `none` before the first one. -/
def lastSteer (results : List TurnResult) : Option String :=
  results.getLast?.bind TurnResult.steer?

@[simp] theorem lastSteer_concat (results : List TurnResult) (r : TurnResult) :
    lastSteer (results ++ [r]) = r.steer? := by
  simp [lastSteer]

/-- A driver that is acting has seen nothing but results that continue, and
knows how many and the steer of the last. -/
def Informed (c : Charter) (t : Trace) : Prop :=
  t.driver.acting = true → (∀ r ∈ t.results, r.continues = true) ∧
    t.driver =
      ⟨c.goal, c.objective, .acting, t.results.length + 1, c.budget, lastSteer t.results⟩

namespace Informed

theorem start (goal : GoalId) (objective : String) (maxSteps : Nat) :
    Informed (.of goal objective maxSteps) (.start goal objective maxSteps) :=
  fun _ => ⟨by simp [Trace.start], rfl⟩

theorem see {c : Charter} {t : Trace} (h : Informed c t) {r : TurnResult}
    (real : r ≠ .pending) : Informed c (t.see r) := by
  intro still
  cases act : t.driver.acting with
  | false =>
    simp only [Trace.see, GoalDriver.advance_idle act, act] at still
    cases still
  | true =>
    obtain ⟨all, driver⟩ := h act
    cases r with
    | pending => exact absurd rfl real
    | stalled => simp [Trace.see, GoalDriver.advance_stalled act, GoalDriver.acting] at still
    | completed v =>
      cases v with
      | done => simp [Trace.see, GoalDriver.advance_done act, GoalDriver.acting] at still
      | blocked reason =>
        simp [Trace.see, GoalDriver.advance_blocked act, GoalDriver.acting] at still
      | «continue» steer =>
        by_cases left : t.driver.step < t.driver.maxSteps
        · constructor
          · intro r seen
            rcases List.mem_append.mp seen with seen | seen
            · exact all r seen
            · rw [List.mem_singleton.mp seen]
              rfl
          · rw [Trace.see, GoalDriver.advance_continue act left, driver]
            simp [TurnResult.steer?]
        · simp [Trace.see, GoalDriver.advance_spent act (Nat.not_lt.mp left),
            GoalDriver.acting] at still

theorem call {c : Charter} {t : Trace} (h : Informed c t) (call : Call) :
    Informed c (t.call call) := by
  rcases t.call_cases call with same | ⟨r, real, seen⟩
  · rwa [same]
  · rw [seen]
    exact h.see real

theorem calls {c : Charter} {t : Trace} (h : Informed c t) (calls : List Call) :
    Informed c (calls.foldl Trace.call t) := by
  induction calls generalizing t with
  | nil => exact h
  | cons call rest ih => exact ih (h.call call)

/-- What is shown while the goal acts. -/
theorem context {c : Charter} {t : Trace} (h : Informed c t) (act : t.driver.acting = true) :
    t.driver.context =
      ⟨c.goal, c.objective, 1 + t.results.length, c.budget, lastSteer t.results⟩ := by
  rw [(h act).2, GoalDriver.context, Nat.add_comm]

end Informed

namespace Trace

theorem call_idle {t : Trace} (idle : t.driver.acting = false) (call : Call) :
    (t.call call).driver = t.driver := by
  rcases t.call_cases call with same | ⟨r, -, seen⟩
  · rw [same]
  · rw [seen, see, GoalDriver.advance_idle idle]

theorem calls_idle {t : Trace} (idle : t.driver.acting = false) (calls : List Call) :
    (calls.foldl Trace.call t).driver = t.driver := by
  induction calls generalizing t with
  | nil => rfl
  | cons call rest ih =>
    have same := call_idle idle call
    rw [List.foldl_cons, ih (by rwa [same]), same]

/-- Results are only ever added. -/
theorem calls_results (t : Trace) (calls : List Call) :
    t.results <+: (calls.foldl Trace.call t).results := by
  induction calls generalizing t with
  | nil => exact List.prefix_rfl
  | cons call rest ih => exact (List.prefix_append _ _).trans (ih (t.call call))

end Trace

/-- Two consultations of one run: the same context, or results in between. -/
theorem Informed.compared {c : Charter} {t : Trace} (h : Informed c t) (between : List Call)
    {I I' : Type} [Inference I] [Inference I'] {inf : I} {inf' : I'} {ctx ctx' : TickContext}
    (shown : ctx ∈ t.driver.shown inf)
    (shown' : ctx' ∈ (between.foldl Trace.call t).driver.shown inf') :
    (ctx'.step = ctx.step ∧ ctx' = ctx) ∨
      ctx.step < ctx'.step ∧ ∃ fresh, (between.foldl Trace.call t).results = t.results ++ fresh ∧
        fresh ≠ [] ∧ ctx'.steer = lastSteer fresh := by
  obtain ⟨act, rfl⟩ := GoalDriver.mem_shown.mp shown
  obtain ⟨act', rfl⟩ := GoalDriver.mem_shown.mp shown'
  rw [h.context act, (h.calls between).context act']
  obtain ⟨fresh, grown⟩ := Trace.calls_results t between
  rw [← grown]
  by_cases none : fresh = []
  · left
    simp [none]
  · right
    have longer := List.length_pos_iff.mpr none
    refine ⟨by simpa using longer, fresh, rfl, none, ?_⟩
    simp [lastSteer, List.getLast?_append, List.getLast?_eq_some_getLast none]

/-- **Every consultation sees the truth.** A poll consults while the goal acts
and only then, and the goal never acts again. What it shows is what the goal
started with, one step more than the results that continued, which are all
results so far, and the steer of the last of them. Of two consultations, both
show the same context if they show the same step; otherwise results have come
in between, and the later one shows the steer of the last of these. -/
theorem consultations_true (goal : GoalId) (objective : String) (maxSteps : Nat)
    (before : List Call) :
    let t := before.foldl Trace.call (Trace.start goal objective maxSteps)
    (∀ {I : Type} [Inference I] (inf : I),
      (t.driver.state = .acting → (∀ r ∈ t.results, r.continues = true) ∧
        t.driver.shown inf =
          [⟨goal, objective, 1 + t.results.length, clampSteps maxSteps, lastSteer t.results⟩]) ∧
      (t.driver.state ≠ .acting → t.driver.shown inf = [])) ∧
    ∀ between : List Call,
      let t' := between.foldl Trace.call t
      (t.driver.state ≠ .acting → t'.driver.state ≠ .acting) ∧
      ∀ {I I' : Type} [Inference I] [Inference I'] (inf : I) (inf' : I'),
        ∀ ctx ∈ t.driver.shown inf, ∀ ctx' ∈ t'.driver.shown inf',
          (ctx'.step = ctx.step ∧ ctx' = ctx) ∨
            ctx.step < ctx'.step ∧ ∃ fresh, t'.results = t.results ++ fresh ∧ fresh ≠ [] ∧
              ctx'.steer = lastSteer fresh := by
  intro t
  have informed : Informed (.of goal objective maxSteps) t :=
    (Informed.start goal objective maxSteps).calls before
  constructor
  · intro I _ inf
    constructor
    · intro acting
      have act := GoalDriver.acting_iff.mpr acting
      refine ⟨(informed act).1, ?_⟩
      rw [GoalDriver.shown_acting act, informed.context act]
      rfl
    · intro idle
      exact GoalDriver.shown_idle (GoalDriver.idle_iff.mpr idle) inf
  · intro between t'
    constructor
    · intro idle
      have same : t'.driver = t.driver := Trace.calls_idle (GoalDriver.idle_iff.mpr idle) between
      rwa [same]
    · intro I I' _ _ inf inf' ctx shown ctx' shown'
      exact informed.compared between shown shown'

end ApexosRv
