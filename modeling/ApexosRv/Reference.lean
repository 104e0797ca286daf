import ApexosRv.Driver

/-!
# The goal driver against its reference

A driver may be moved by `poll` and by `advance`, in any mix. `Phase` says
what it has emitted in terms of the results it was shown alone: the steps of
the results that continue, and one terminal event for the result that does not
or for the budget running out (`calls_follow_reference`).
-/

namespace ApexosRv

namespace TurnResult

/-- `Completed(Continue(_))`, the only result that leaves a goal acting. -/
def continues : TurnResult → Bool
  | .completed (.continue _) => true
  | _ => false

end TurnResult

/-- What is fixed about a goal when it starts. -/
structure Charter where
  goal : GoalId
  objective : String
  budget : Nat
  deriving DecidableEq, Repr

namespace Charter

def of (goal : GoalId) (objective : String) (maxSteps : Nat) : Charter :=
  ⟨goal, objective, clampSteps maxSteps⟩

def event (c : Charter) (state : GoalState) (step : Nat) (detail : String) : Event :=
  .goalStateChanged c.goal c.objective state step c.budget detail false

/-- `Acting` at steps `1..n`. -/
def actings (c : Charter) (n : Nat) : List Event :=
  (List.range n).map fun i => c.event .acting (i + 1) ""

/-- The event a result that does not continue ends the goal with. -/
def ending (c : Charter) (step : Nat) : TurnResult → Event
  | .completed (.blocked reason) => c.event .blocked step reason
  | .stalled => c.event .failed step "step stalled — no completion"
  | _ => c.event .done step ""

theorem actings_succ (c : Charter) (n : Nat) :
    c.actings (n + 1) = c.actings n ++ [c.event .acting (n + 1) ""] := by
  simp [actings, List.range_succ]

end Charter

/-- One call on a driver. Each `poll` may bring an inference of its own. -/
inductive Call where
  | poll {I : Type} [Inference I] (inf : I)
  | advance (result : TurnResult)

/-- A driver under a sequence of calls: what it emitted, and the non-`Pending`
results the calls brought, in order. -/
structure Trace where
  driver : GoalDriver
  emitted : List Event
  results : List TurnResult

namespace Trace

def start (goal : GoalId) (objective : String) (maxSteps : Nat) : Trace :=
  let (driver, emitted) := GoalDriver.start goal objective maxSteps
  ⟨driver, emitted, []⟩

/-- The result a call brings; a poll brings one only when it consults. -/
def brings (t : Trace) : Call → TurnResult
  | @Call.poll _ _ inf =>
    if t.driver.acting then (Inference.next inf t.driver.context).1 else .pending
  | .advance result => result

def call (t : Trace) (c : Call) : Trace :=
  let (driver, emitted) : GoalDriver × List Event :=
    match c with
    | @Call.poll _ _ inf => let (driver, _, emitted) := t.driver.poll inf; (driver, emitted)
    | .advance result => t.driver.advance result
  ⟨driver, t.emitted ++ emitted, t.results ++ [t.brings c].filter (· != .pending)⟩

/-- `t` after a result it was shown. -/
def see (t : Trace) (r : TurnResult) : Trace :=
  ⟨(t.driver.advance r).1, t.emitted ++ (t.driver.advance r).2, t.results ++ [r]⟩

/-- Both entry points come down to showing the driver one result, or nothing. -/
theorem call_cases (t : Trace) (c : Call) :
    t.call c = t ∨ ∃ r, r ≠ .pending ∧ t.call c = t.see r := by
  have settle : ∀ r, t.brings c = r →
      (t.call c).driver = (t.driver.advance r).1 →
      (t.call c).emitted = t.emitted ++ (t.driver.advance r).2 →
      t.call c = t ∨ ∃ r, r ≠ .pending ∧ t.call c = t.see r := by
    intro r brought moved emitted
    have results : (t.call c).results = t.results ++ [r].filter (· != .pending) := by
      rw [← brought]
      rfl
    by_cases pend : r = .pending
    · subst pend
      left
      cases h : t.call c
      simp_all
    · right
      refine ⟨r, pend, ?_⟩
      cases h : t.call c
      simp_all [see]
  cases c with
  | advance result => exact settle result rfl rfl rfl
  | poll inf =>
    cases act : t.driver.acting
    · exact settle .pending (by simp [brings, act])
        (by simp [call, GoalDriver.poll_idle act]) (by simp [call, GoalDriver.poll_idle act])
    · exact settle (Inference.next inf t.driver.context).1 (by simp [brings, act])
        (by simp [call, GoalDriver.poll_acting act]) (by simp [call, GoalDriver.poll_acting act])

end Trace

/-- Where a goal is, read off the results alone: still running, ended by the
first result that does not continue, or ended by its budget. -/
inductive Phase (c : Charter) (t : Trace) : Prop where
  | running (steer : Option String) (all : ∀ r ∈ t.results, r.continues = true)
      (short : t.results.length < c.budget)
      (driver : t.driver =
        ⟨c.goal, c.objective, .acting, t.results.length + 1, c.budget, steer⟩)
      (emitted : t.emitted = c.actings (t.results.length + 1))
  | ended (before : List TurnResult) (r : TurnResult) (rest : List TurnResult)
      (results : t.results = before ++ r :: rest)
      (all : ∀ r ∈ before, r.continues = true) (stops : r.continues = false)
      (short : before.length < c.budget) (idle : t.driver.acting = false)
      (emitted : t.emitted = c.actings (before.length + 1) ++ [c.ending (before.length + 1) r])
  | spent (before rest : List TurnResult) (results : t.results = before ++ rest)
      (all : ∀ r ∈ before, r.continues = true) (exact : before.length = c.budget)
      (idle : t.driver.acting = false)
      (emitted : t.emitted =
        c.actings c.budget ++ [c.event .done c.budget "step budget reached"])

namespace Phase

theorem start (goal : GoalId) (objective : String) (maxSteps : Nat) :
    Phase (.of goal objective maxSteps) (.start goal objective maxSteps) :=
  .running none (by simp [Trace.start]) (clampSteps_pos maxSteps) rfl rfl

theorem see {c : Charter} {t : Trace} (h : Phase c t) {r : TurnResult} (real : r ≠ .pending) :
    Phase c (t.see r) := by
  cases h with
  | ended before r' rest results all stops short idle emitted =>
    refine .ended before r' (rest ++ [r]) (by simp [Trace.see, results]) all stops short ?_ ?_
    · simp [Trace.see, GoalDriver.advance_idle idle, idle]
    · simp [Trace.see, GoalDriver.advance_idle idle, emitted]
  | spent before rest results all exact idle emitted =>
    refine .spent before (rest ++ [r]) (by simp [Trace.see, results]) all exact ?_ ?_
    · simp [Trace.see, GoalDriver.advance_idle idle, idle]
    · simp [Trace.see, GoalDriver.advance_idle idle, emitted]
  | running steer all short driver emitted =>
    obtain ⟨d, events, results⟩ := t
    simp only at all short driver emitted
    subst driver emitted
    cases r with
    | pending => exact absurd rfl real
    | stalled =>
      refine .ended results .stalled [] rfl all rfl short ?_ ?_ <;>
        simp [Trace.see, GoalDriver.advance_stalled, GoalDriver.acting, Charter.ending,
          Charter.event]
    | completed v =>
      cases v with
      | done =>
        refine .ended results (.completed .done) [] rfl all rfl short ?_ ?_ <;>
          simp [Trace.see, GoalDriver.advance_done, GoalDriver.acting, Charter.ending,
            Charter.event]
      | blocked reason =>
        refine .ended results (.completed (.blocked reason)) [] rfl all rfl short ?_ ?_ <;>
          simp [Trace.see, GoalDriver.advance_blocked, GoalDriver.acting, Charter.ending,
            Charter.event]
      | «continue» next =>
        have all' : ∀ r ∈ results ++ [.completed (.continue next)], r.continues = true := by
          intro r hr
          rcases List.mem_append.mp hr with hr | hr
          · exact all r hr
          · rw [List.mem_singleton.mp hr]
            rfl
        by_cases left : results.length + 1 < c.budget
        · refine .running next all' (by simpa [Trace.see] using left) ?_ ?_
          · simp [Trace.see, GoalDriver.advance_continue, GoalDriver.acting, left]
          · simp [Trace.see, GoalDriver.advance_continue, GoalDriver.acting, left,
              Charter.actings_succ c (_ + 1), Charter.event]
        · have exact : results.length + 1 = c.budget := by omega
          refine .spent (results ++ [.completed (.continue next)]) [] (by simp [Trace.see]) all'
            (by simpa using exact) ?_ ?_ <;>
            simp [Trace.see, GoalDriver.advance_spent, GoalDriver.acting, exact, Charter.event]

theorem call {c : Charter} {t : Trace} (h : Phase c t) (call : Call) : Phase c (t.call call) := by
  rcases t.call_cases call with same | ⟨r, real, seen⟩
  · rwa [same]
  · rw [seen]
    exact h.see real

theorem calls {c : Charter} {t : Trace} (h : Phase c t) (calls : List Call) :
    Phase c (calls.foldl Trace.call t) := by
  induction calls generalizing t with
  | nil => exact h
  | cons call rest ih => exact ih (h.call call)

end Phase

/-- A list splits in one way at its first entry that fails a test. -/
theorem split_first_unique {α : Type} {p : α → Bool} {xs xs' ys ys' : List α} {a a' : α}
    (all : ∀ x ∈ xs, p x = true) (all' : ∀ x ∈ xs', p x = true) (stop : p a = false)
    (stop' : p a' = false) (same : xs ++ a :: ys = xs' ++ a' :: ys') : xs = xs' ∧ a = a' := by
  have first := congrArg (List.takeWhile p) same
  rw [List.takeWhile_append_of_pos all, List.takeWhile_append_of_pos all'] at first
  simp only [List.takeWhile_cons, stop, stop', Bool.false_eq_true, ↓reduceIte,
    List.append_nil] at first
  subst first
  exact ⟨rfl, (List.cons.inj (List.append_cancel_left same)).1⟩

/-- A run of entries that pass a test ends before one that fails it. -/
theorem length_le_of_stop {α : Type} {p : α → Bool} {xs ys rest zs : List α} {a : α}
    (all : ∀ y ∈ ys, p y = true) (stop : p a = false) (same : xs ++ a :: rest = ys ++ zs) :
    ys.length ≤ xs.length := by
  by_contra short
  have at_stop : (ys ++ zs)[xs.length]? = some a := by simp [← same]
  rw [List.getElem?_append_left (Nat.lt_of_not_le short)] at at_stop
  have := all a (List.mem_of_getElem? at_stop)
  simp [stop] at this

/-- **Reference semantics of the goal driver.** Let `m` be the clamped budget.
For every sequence of polls and advances: a first result that does not
continue, shown at a step `j ≤ m`, makes the events `Acting 1..j` and the one
ending it names; `m` results that continue make them `Acting 1..m` and `Done`
with the budget detail; until then the goal acts at the step after the results
seen. -/
theorem calls_follow_reference (goal : GoalId) (objective : String) (maxSteps : Nat)
    (calls : List Call) :
    let c := Charter.of goal objective maxSteps
    let t := calls.foldl Trace.call (Trace.start goal objective maxSteps)
    (∀ before r rest, t.results = before ++ r :: rest →
      (∀ r ∈ before, r.continues = true) → r.continues = false →
      before.length + 1 ≤ c.budget →
      t.emitted = c.actings (before.length + 1) ++ [c.ending (before.length + 1) r]) ∧
    (∀ before rest, t.results = before ++ rest → (∀ r ∈ before, r.continues = true) →
      before.length = c.budget →
      t.emitted = c.actings c.budget ++ [c.event .done c.budget "step budget reached"]) ∧
    ((∀ r ∈ t.results, r.continues = true) → t.results.length < c.budget →
      t.driver.state = .acting ∧ t.driver.step = t.results.length + 1 ∧
      t.emitted = c.actings (t.results.length + 1)) := by
  intro c t
  have phase : Phase c t := (Phase.start goal objective maxSteps).calls calls
  refine ⟨?_, ?_, ?_⟩
  · intro before r rest results all stops le
    cases phase with
    | running steer all' _ _ _ =>
      have := all' r (by simp [results])
      simp [stops] at this
    | ended before' r' rest' results' all' stops' _ _ emitted =>
      obtain ⟨rfl, rfl⟩ := split_first_unique all all' stops stops' (results ▸ results')
      exact emitted
    | spent before' rest' results' all' exact _ _ =>
      have := length_le_of_stop all' stops (results.symm.trans results')
      omega
  · intro before rest results all exact
    cases phase with
    | running steer _ short _ _ =>
      have := congrArg List.length results
      simp only [List.length_append] at this
      omega
    | ended before' r' rest' results' _ stops' short' _ _ =>
      have := length_le_of_stop all stops' (results'.symm.trans results)
      omega
    | spent _ _ _ _ _ _ emitted => exact emitted
  · intro all short
    cases phase with
    | running steer _ _ driver emitted => exact ⟨by rw [driver], by rw [driver], emitted⟩
    | ended before r rest results _ stops _ _ _ =>
      have := all r (by simp [results])
      simp [stops] at this
    | spent before rest results _ exact _ _ =>
      have := congrArg List.length results
      simp only [List.length_append] at this
      omega

end ApexosRv
