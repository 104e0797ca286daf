import ApexosRv.Reference
import ApexosRv.Scripted

/-!
# Which transcripts end

`GoalDriver::run` on a transcript walks its `Continue` entries, one for each
step, until the budget runs out or another entry comes. That entry ends the
goal unless it is `Pending`, which is not consumed and so is met again by every
poll (`scripted_run`).
-/

namespace ApexosRv

/-- `Continue` or `ContinueWith`. -/
def ScriptStep.continues : ScriptStep → Bool
  | .continue => true
  | .continueWith _ => true
  | _ => false

namespace ScriptedInference

/-- How a goal ends at an entry: no entry is a stall. -/
def ending : Option ScriptStep → Option (GoalState × String)
  | some .done => some (.done, "")
  | some (.blocked reason) => some (.blocked, reason)
  | some .stall => some (.failed, "step stalled — no completion")
  | none => some (.failed, "step stalled — no completion")
  | _ => none

end ScriptedInference

namespace GoalRun

/-- A scripted goal that has consumed `k` entries, all of which continue. -/
structure Walked (c : Charter) (script : List ScriptStep) (k : Nat)
    (g : GoalRun ScriptedInference) : Prop where
  driver : ∃ steer, g.driver = ⟨c.goal, c.objective, .acting, k + 1, c.budget, steer⟩
  cursor : g.inf = ⟨script, k⟩
  emitted : g.emitted = c.actings (k + 1)

/-- A scripted goal that ended at a step, having consumed an entry for each step. -/
structure Ended (c : Charter) (script : List ScriptStep) (step : Nat) (state : GoalState)
    (detail : String) (out : GoalRun ScriptedInference) : Prop where
  driver : out.driver = ⟨c.goal, c.objective, state, step, c.budget, none⟩
  cursor : out.inf = ⟨script, step⟩
  emitted : out.emitted = c.actings step ++ [c.event state step detail]

namespace Walked

variable {c : Charter} {script : List ScriptStep} {k : Nat} {g : GoalRun ScriptedInference}

theorem acting (h : Walked c script k g) : g.driver.acting = true := by
  obtain ⟨steer, driver⟩ := h.driver
  rw [driver]
  rfl

/-- One poll applies what the entry under the cursor answers. -/
theorem poll (h : Walked c script k g) :
    g.poll.driver = (g.driver.advance (ScriptedInference.next ⟨script, k⟩ g.driver.context).1).1 ∧
      g.poll.inf = (ScriptedInference.next ⟨script, k⟩ g.driver.context).2 ∧
      g.poll.emitted = c.actings (k + 1) ++
        (g.driver.advance (ScriptedInference.next ⟨script, k⟩ g.driver.context).1).2 := by
  rw [poll_acting h.acting, h.cursor, h.emitted]
  exact ⟨rfl, rfl, rfl⟩

/-- An entry that continues is consumed. -/
theorem next_continue (ctx : TickContext) {entry : ScriptStep} (here : script[k]? = some entry)
    (on : entry.continues = true) :
    ∃ steer, ScriptedInference.next ⟨script, k⟩ ctx =
      (.completed (.continue steer), ⟨script, k + 1⟩) := by
  cases entry with
  | «continue» => exact ⟨none, by simp [ScriptedInference.next, here]⟩
  | continueWith s => exact ⟨some s, by simp [ScriptedInference.next, here]⟩
  | _ => simp [ScriptStep.continues] at on

theorem step (h : Walked c script k g) {entry : ScriptStep} (here : script[k]? = some entry)
    (on : entry.continues = true) (left : k + 1 < c.budget) :
    Walked c script (k + 1) g.poll := by
  obtain ⟨steer, driver⟩ := h.driver
  obtain ⟨next, answer⟩ := next_continue g.driver.context here on
  obtain ⟨polled, cursor, emitted⟩ := h.poll
  rw [answer, GoalDriver.advance_continue h.acting (by simpa [driver] using left)] at polled emitted
  constructor
  · exact ⟨next, by rw [polled, driver]⟩
  · rw [cursor, answer]
  · rw [emitted, c.actings_succ (k + 1), driver]
    rfl

theorem spent (h : Walked c script k g) {entry : ScriptStep} (here : script[k]? = some entry)
    (on : entry.continues = true) (last : k + 1 = c.budget) :
    Ended c script c.budget .done "step budget reached" g.poll := by
  obtain ⟨steer, driver⟩ := h.driver
  obtain ⟨next, answer⟩ := next_continue g.driver.context here on
  obtain ⟨polled, cursor, emitted⟩ := h.poll
  rw [answer, GoalDriver.advance_spent h.acting (by simp [driver, last])] at polled emitted
  constructor
  · rw [polled, driver, last]
  · rw [cursor, answer, last]
  · rw [emitted, driver, last]
    rfl

theorem ends (h : Walked c script k g) {state : GoalState} {detail : String}
    (ending : ScriptedInference.ending script[k]? = some (state, detail)) :
    Ended c script (k + 1) state detail g.poll := by
  obtain ⟨steer, driver⟩ := h.driver
  obtain ⟨polled, cursor, emitted⟩ := h.poll
  have act := h.acting
  rw [driver] at act
  suffices all : g.poll.driver = ⟨c.goal, c.objective, state, k + 1, c.budget, none⟩ ∧
      g.poll.inf = ⟨script, k + 1⟩ ∧
      g.poll.emitted = c.actings (k + 1) ++ [c.event state (k + 1) detail] from
    ⟨all.1, all.2.1, all.2.2⟩
  rw [polled, cursor, emitted]
  unfold ScriptedInference.ending at ending
  split at ending
  · rename_i here
    cases ending
    simp [ScriptedInference.next, here, GoalDriver.advance_done act, driver, Charter.event]
  · rename_i here
    cases ending
    simp [ScriptedInference.next, here, GoalDriver.advance_blocked act, driver, Charter.event]
  · rename_i here
    cases ending
    simp [ScriptedInference.next, here, GoalDriver.advance_stalled act, driver, Charter.event]
  · rename_i here
    cases ending
    simp [ScriptedInference.next, here, GoalDriver.advance_stalled act, driver, Charter.event]
  · cases ending

/-- A pending entry is met again. -/
theorem waits (h : Walked c script k g) (here : script[k]? = some .pending) :
    g.poll.driver = g.driver ∧ g.poll.inf = g.inf ∧ g.poll.emitted = g.emitted := by
  obtain ⟨polled, cursor, emitted⟩ := h.poll
  have answer : ScriptedInference.next ⟨script, k⟩ g.driver.context = (.pending, ⟨script, k⟩) := by
    simp [ScriptedInference.next, here]
  rw [answer, GoalDriver.advance_pending] at polled emitted
  exact ⟨polled, by rw [cursor, answer, h.cursor], by rw [emitted, List.append_nil, h.emitted]⟩

end Walked

variable {goal : GoalId} {objective : String} {maxSteps : Nat} {script : List ScriptStep}

theorem walked_start :
    Walked (.of goal objective maxSteps) script 0
      (start goal objective maxSteps (ScriptedInference.new script)) :=
  ⟨⟨none, rfl⟩, rfl, rfl⟩

/-- The first entry that is neither `Continue` nor `ContinueWith`, the
script's length if there is none. -/
def firstOther (script : List ScriptStep) : Nat := script.findIdx (!·.continues)

theorem continues_of_lt {k : Nat} (before : k < firstOther script) :
    ∃ entry, script[k]? = some entry ∧ entry.continues = true := by
  have inside : k < script.length := Nat.lt_of_lt_of_le before List.findIdx_le_length
  refine ⟨script[k], List.getElem?_eq_getElem inside, ?_⟩
  simpa using List.not_of_lt_findIdx before

/-- That entry, or the end of the script, is pending or ends the goal. -/
theorem firstOther_cases (script : List ScriptStep) :
    script[firstOther script]? = some .pending ∨
      ∃ state detail, state ≠ .acting ∧
        ScriptedInference.ending script[firstOther script]? = some (state, detail) := by
  by_cases inside : firstOther script < script.length
  · have stop := List.findIdx_getElem (w := inside)
    have other : script[firstOther script].continues = false := Bool.not_inj stop
    rw [List.getElem?_eq_getElem inside]
    cases entry : script[firstOther script] with
    | «continue» => rw [entry] at other; cases other
    | continueWith s => rw [entry] at other; cases other
    | pending => exact .inl rfl
    | done => exact .inr ⟨.done, _, by simp, rfl⟩
    | blocked reason => exact .inr ⟨.blocked, _, by simp, rfl⟩
    | stall => exact .inr ⟨.failed, _, by simp, rfl⟩
  · rw [List.getElem?_eq_none (Nat.not_lt.mp inside)]
    exact .inr ⟨.failed, _, by simp, rfl⟩

/-- The entries before the first other one are walked while the budget lasts. -/
theorem walked {k : Nat} (on : k ≤ firstOther script) (left : k < clampSteps maxSteps) :
    Walked (.of goal objective maxSteps) script k
      (poll^[k] (start goal objective maxSteps (ScriptedInference.new script))) := by
  induction k with
  | zero => exact walked_start
  | succ k ih =>
    obtain ⟨entry, here, continues⟩ := continues_of_lt (Nat.lt_of_succ_le on)
    rw [Function.iterate_succ_apply']
    exact (ih (by omega) (by omega)).step here continues left

/-- A pending entry within the budget is met by every further poll. -/
theorem walked_pending (left : firstOther script < clampSteps maxSteps)
    (pending : script[firstOther script]? = some .pending) (more : Nat) :
    Walked (.of goal objective maxSteps) script (firstOther script)
      (poll^[firstOther script + more]
        (start goal objective maxSteps (ScriptedInference.new script))) := by
  induction more with
  | zero => exact walked (Nat.le_refl _) left
  | succ more ih =>
    obtain ⟨driver, cursor, emitted⟩ := ih.waits pending
    rw [Nat.add_succ, Function.iterate_succ_apply']
    constructor
    · rw [driver]
      exact ih.driver
    · rw [cursor, ih.cursor]
    · rw [emitted, ih.emitted]

theorem run_pending (left : firstOther script < clampSteps maxSteps)
    (pending : script[firstOther script]? = some .pending) (fuel : Nat) :
    (start goal objective maxSteps (ScriptedInference.new script)).run fuel = none := by
  refine WhileLoop.result_eq_none (fun k => ?_) fuel
  rcases Nat.le_total k (firstOther script) with before | after
  · exact (walked before (by omega)).acting
  · obtain ⟨more, rfl⟩ := Nat.le.dest after
    exact (walked_pending left pending more).acting

/-- A walk whose next poll ends the goal is what `run` returns. -/
theorem run_of_ended {k step : Nat} {state : GoalState} {detail : String}
    (on : k ≤ firstOther script) (left : k < clampSteps maxSteps) (idle : state ≠ .acting)
    (ended : Ended (.of goal objective maxSteps) script step state detail
      (poll^[k] (start goal objective maxSteps (ScriptedInference.new script))).poll) :
    (∃ fuel out, (start goal objective maxSteps (ScriptedInference.new script)).run fuel =
        some out) ∧
      ∀ fuel out, (start goal objective maxSteps (ScriptedInference.new script)).run fuel =
        some out → Ended (.of goal objective maxSteps) script step state detail out := by
  rw [← Function.iterate_succ_apply' poll] at ended
  have running : ∀ j < k + 1,
      (poll^[j] (start goal objective maxSteps (ScriptedInference.new script))).driver.acting =
        true :=
    fun j hj => (walked (by omega) (by omega)).acting
  have stopped : (poll^[k + 1] (start goal objective maxSteps
      (ScriptedInference.new script))).driver.acting = false := by
    rw [ended.driver]
    exact beq_eq_false_iff_ne.mpr idle
  have returns := fun out => @WhileLoop.result_iff_iterate _
    (fun g : GoalRun ScriptedInference => g.driver.acting) _ _ out _ running stopped
  constructor
  · obtain ⟨fuel, returned⟩ := (returns _).mpr rfl
    exact ⟨fuel, _, returned⟩
  · intro fuel out returned
    obtain rfl := (returns out).mp ⟨fuel, returned⟩
    exact ended

/-- **Which transcripts end, and how.** `run` returns unless the first entry
that is no `Continue` lies within the budget and is `Pending`. -/
theorem scripted_run (goal : GoalId) (objective : String) (maxSteps : Nat)
    (script : List ScriptStep) :
    let c := Charter.of goal objective maxSteps
    let m := clampSteps maxSteps
    let i := firstOther script
    let g := start goal objective maxSteps (ScriptedInference.new script)
    ((∃ fuel out, g.run fuel = some out) ↔ ¬ (i < m ∧ script[i]? = some .pending)) ∧
    (∀ fuel out, g.run fuel = some out →
      (m ≤ i → Ended c script m .done "step budget reached" out) ∧
      (i < m → ∃ state detail, ScriptedInference.ending script[i]? = some (state, detail) ∧
        Ended c script (i + 1) state detail out)) ∧
    (i < m → script[i]? = some .pending → ∀ more,
      let waiting := poll^[i + more] g
      (waiting.driver.state = .acting ∧ waiting.driver.step = i + 1 ∧
        waiting.inf = ⟨script, i⟩ ∧ waiting.emitted = c.actings (i + 1)) ∧
      (waiting.poll.driver = waiting.driver ∧ waiting.poll.inf = waiting.inf ∧
        waiting.poll.emitted = waiting.emitted) ∧
      (waiting.advance .stalled).driver.state = .failed ∧
        (waiting.advance .stalled).driver.step = i + 1) := by
  intro c m i g
  by_cases within : i < m
  · have here : Walked c script i (poll^[i] g) := walked (Nat.le_refl _) within
    rcases firstOther_cases script with pending | ⟨state, detail, idle, ending⟩
    · have endless : ∀ fuel, g.run fuel = none := run_pending within pending
      refine ⟨?_, ?_, ?_⟩
      · refine iff_of_false ?_ fun h => h ⟨within, pending⟩
        rintro ⟨fuel, out, returned⟩
        rw [endless] at returned
        cases returned
      · intro fuel out returned
        rw [endless] at returned
        cases returned
      · intro _ _ more waiting
        have walked : Walked c script i waiting := walked_pending within pending more
        obtain ⟨steer, driver⟩ := walked.driver
        refine ⟨⟨by rw [driver], by rw [driver], walked.cursor, walked.emitted⟩,
          walked.waits pending, ?_, ?_⟩
        · rw [advance, GoalDriver.advance_stalled walked.acting]
        · rw [advance_stalled_step, driver]
    · obtain ⟨returns, ended⟩ := run_of_ended (Nat.le_refl _) within idle (here.ends ending)
      have other : script[i]? ≠ some .pending := by
        intro pending
        rw [pending] at ending
        cases ending
      refine ⟨iff_of_true returns fun h => other h.2, fun fuel out returned => ⟨fun beyond => ?_,
        fun _ => ⟨state, detail, ending, ended fuel out returned⟩⟩,
        fun _ pending => absurd pending other⟩
      exact absurd within (Nat.not_lt.mpr beyond)
  · have last : m - 1 + 1 = m := Nat.sub_add_cancel (clampSteps_pos maxSteps)
    have before : m - 1 < firstOther script := by omega
    obtain ⟨entry, entry_at, on⟩ := continues_of_lt before
    have here : Walked c script (m - 1) (poll^[m - 1] g) := walked (by omega) (by omega)
    obtain ⟨returns, ended⟩ := run_of_ended (by omega) (by omega) (by simp)
      (here.spent entry_at on last)
    refine ⟨iff_of_true returns fun h => within h.1, fun fuel out returned =>
      ⟨fun _ => ended fuel out returned, fun inside => absurd inside within⟩,
      fun inside => absurd inside within⟩

end GoalRun

end ApexosRv
