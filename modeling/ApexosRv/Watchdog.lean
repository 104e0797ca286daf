import ApexosRv.Drive
import ApexosRv.Scripted
import ApexosRv.Wire

/-!
# The stall watchdog

Under a clock that moves between the iterations, a step that is quiet reaches
its timeout: `Paced` counts the iterations against the ticks of the step in
flight, and `Began` names the reading its timer starts from.
-/

namespace ApexosRv

namespace Drive

section
variable {I : Type} [Inference I] (build : Build) (clock : Clock) (inf : I)

/-- The step in flight before iteration `n`. -/
def stepAt (n : Nat) : Nat := (before build clock inf n).run.driver.step

/-- Iteration `i` reads the watchdog's clock: its poll leaves the goal acting. -/
def Watches (i : Nat) : Prop := (before build clock inf i).run.poll.driver.acting = true

/-- The watchdog's reading before iteration `n`. -/
def lastReading (clock : Clock) : Nat → UInt64
  | 0 => clock.start
  | n + 1 => clock.watchdog n

/-- The readings that take place never go back, and the watchdog's go forward
from one iteration to the next. -/
structure Steady : Prop where
  restart : ∀ i, Watches build clock inf i → lastReading clock i ≤ clock.restart i
  watchdog : ∀ i, Watches build clock inf i → clock.restart i ≤ clock.watchdog i
  strict : ∀ i, Watches build clock inf (i + 1) → clock.watchdog i < clock.watchdog (i + 1)

/-- `r` was read when `k` became the step in flight: before the loop, or in
the iteration that moved to it. -/
def Began (k : Nat) (r : UInt64) : Prop :=
  k = 1 ∧ r = clock.start ∨
    ∃ j, stepAt build clock inf j ≠ k ∧ stepAt build clock inf (j + 1) = k ∧ r = clock.restart j

variable {build clock inf}

theorem stepAt_succ {n : Nat} (act : (before build clock inf n).acting = true) :
    stepAt build clock inf (n + 1) = (before build clock inf n).run.poll.driver.step := by
  rw [stepAt, before_succ act]
  exact iterate_step (before_counts build clock inf n).1

theorem poll_step_cases (g : GoalRun I) :
    g.poll.driver.step = g.driver.step ∨
      g.poll.driver.step = g.driver.step + 1 ∧ g.driver.step < g.driver.maxSteps := by
  cases act : g.driver.acting
  · rw [GoalRun.poll_idle act]
    exact .inl rfl
  · rw [GoalRun.poll_acting act]
    rcases GoalDriver.advance_step g.driver (Inference.next g.inf g.driver.context).1 with
      same | ⟨next, left, _⟩
    · exact .inl same
    · exact .inr ⟨next, left⟩

theorem stepAt_le_succ (n : Nat) : stepAt build clock inf n ≤ stepAt build clock inf (n + 1) := by
  cases act : (before build clock inf n).acting
  · rw [stepAt, stepAt, before_of_ended act]
  · rw [stepAt_succ act, stepAt]
    have := poll_step_cases (before build clock inf n).run
    omega

theorem stepAt_mono {m n : Nat} (h : m ≤ n) :
    stepAt build clock inf m ≤ stepAt build clock inf n := by
  induction h with
  | refl => exact Nat.le_refl _
  | step _ ih => exact Nat.le_trans ih (stepAt_le_succ _)

/-- A step becomes the one in flight once. -/
theorem Began.unique {k : Nat} {r r' : UInt64} (h : Began build clock inf k r)
    (h' : Began build clock inf k r') : r = r' := by
  have first : ∀ j, stepAt build clock inf j ≠ 1 → stepAt build clock inf (j + 1) ≠ 1 := by
    intro j other here
    have start : 1 ≤ stepAt build clock inf j := stepAt_mono (Nat.zero_le j)
    have : stepAt build clock inf j ≤ stepAt build clock inf (j + 1) := stepAt_le_succ j
    omega
  have later : ∀ i j, i < j → stepAt build clock inf (i + 1) = k → stepAt build clock inf j ≠ k →
      stepAt build clock inf (j + 1) ≠ k := by
    intro i j lt here gone back
    have : stepAt build clock inf (i + 1) ≤ stepAt build clock inf j := stepAt_mono lt
    have : stepAt build clock inf j ≤ stepAt build clock inf (j + 1) := stepAt_le_succ j
    omega
  rcases h with ⟨one, rfl⟩ | ⟨i, other, here, rfl⟩ <;>
    rcases h' with ⟨one', rfl⟩ | ⟨j, other', here', rfl⟩
  · rfl
  · subst one
    exact absurd here' (first j other')
  · subst one'
    exact absurd here (first i other)
  · rcases Nat.lt_trichotomy i j with lt | rfl | lt
    · exact absurd here' (later i j lt here other')
    · rfl
    · exact absurd here (later j i lt here' other)

theorem acting_of_le {m n : Nat} (act : (before build clock inf n).acting = true) (h : m ≤ n) :
    (before build clock inf m).acting = true :=
  WhileLoop.running_of_le act h

theorem acting_of_watches {i : Nat} (h : Watches build clock inf i) :
    (before build clock inf i).acting = true := by
  cases act : (before build clock inf i).acting
  · rw [Watches, GoalRun.poll_idle act] at h
    exact absurd (act.symm.trans h) (by simp)
  · rfl

/-- An iteration that leaves the goal acting has read the clock in time. -/
theorem watches_of_acting {i : Nat} (act : (before build clock inf (i + 1)).acting = true) :
    Watches build clock inf i ∧ (before build clock inf i).stalls build clock = false := by
  have act' := acting_of_le act (Nat.le_succ i)
  rw [before_succ act', iterate_eq (before_counts build clock inf i).1] at act
  simp only [acting] at act
  split at act
  · rename_i stalled
    exfalso
    cases polled : (before build clock inf i).run.poll.driver.acting
    · simp [stalls, polled] at stalled
    · simp [GoalRun.advance, GoalDriver.advance_stalled polled, GoalDriver.acting] at act
  · rename_i calm
    exact ⟨act, by simpa using calm⟩

/-- The timer of an iteration starts where its step began. -/
theorem began_timer {i : Nat} (act : (before build clock inf i).acting = true)
    (began : Began build clock inf (stepAt build clock inf i)
      (before build clock inf i).stepStarted) :
    Began build clock inf (stepAt build clock inf (i + 1))
      ((before build clock inf i).timer clock) := by
  have number := (before_counts build clock inf i).2.2 act
  rw [timer]
  split
  · rename_i same
    rw [stepAt_succ act, same]
    exact began
  · rename_i moved
    refine .inr ⟨i, ?_, rfl, by rw [number]⟩
    rw [stepAt_succ act]
    exact fun same => moved same.symm

theorem began_before {n : Nat} (act : (before build clock inf n).acting = true) :
    Began build clock inf (stepAt build clock inf n) (before build clock inf n).stepStarted := by
  induction n with
  | zero => exact .inl ⟨rfl, rfl⟩
  | succ n ih =>
    have act' := acting_of_le act (Nat.le_succ n)
    have timer := began_timer act' (ih act')
    rw [before_succ act', iterate_eq (before_counts build clock inf n).1]
    exact timer

/-! ## Why the loop ends -/

theorem charter_before (n : Nat) : (before build clock inf n).run.driver.maxSteps = 8 := by
  induction n with
  | zero => rfl
  | succ n ih =>
    cases act : (before build clock inf n).acting
    · rw [before_of_ended act, ih]
    · have polled : (before build clock inf n).run.poll.driver.maxSteps = 8 := by
        rw [GoalRun.poll_acting act]
        exact (GoalDriver.advance_fixed _ _).2.2.trans ih
      rw [before_succ act, iterate_eq (before_counts build clock inf n).1]
      simp only
      split
      · exact (GoalDriver.advance_fixed _ .stalled).2.2.trans polled
      · exact polled

/-- `n` iterations have gone into `c` whole steps and the one in flight, whose
timer is within the timeout. -/
structure Paced (build : Build) (clock : Clock) (inf : I) (n c : Nat) : Prop where
  step : stepAt build clock inf n = c + 1
  within : c < 8
  since : (before build clock inf n).stepStarted.toNat ≤ (lastReading clock n).toNat
  fresh : (lastReading clock n).toNat ≤
    (before build clock inf n).stepStarted.toNat + build.stepTimeout.toNat
  count : n + (before build clock inf n).stepStarted.toNat ≤
    c * (build.stepTimeout.toNat + 1) + (lastReading clock n).toNat + min n 1

theorem Steady.ticks (steady : Steady build clock inf) {n : Nat}
    (watches : Watches build clock inf n) (pos : 0 < n) :
    (lastReading clock n).toNat < (clock.watchdog n).toNat := by
  obtain ⟨m, rfl⟩ := Nat.exists_eq_succ_of_ne_zero (Nat.ne_of_gt pos)
  exact UInt64.lt_iff_toNat_lt.mp (steady.strict m watches)

/-- The timer is behind the watchdog's reading, and where nothing stalls by no
more than the timeout. -/
theorem Paced.timely {n c : Nat} (h : Paced build clock inf n c) (steady : Steady build clock inf)
    (act : (before build clock inf n).acting = true) (watches : Watches build clock inf n)
    (calm : (before build clock inf n).stalls build clock = false) :
    ((before build clock inf n).timer clock).toNat ≤ (clock.watchdog n).toNat ∧
      (clock.watchdog n).toNat ≤
        ((before build clock inf n).timer clock).toNat + build.stepTimeout.toNat := by
  have number := (before_counts build clock inf n).2.2 act
  have restart := UInt64.le_iff_toNat_le.mp (steady.restart n watches)
  have watchdog := UInt64.le_iff_toNat_le.mp (steady.watchdog n watches)
  have behind : ((before build clock inf n).timer clock).toNat ≤ (clock.watchdog n).toNat := by
    rw [timer]
    split
    · have := h.since
      omega
    · rw [number]
      exact watchdog
  refine ⟨behind, ?_⟩
  have quiet : clock.watchdog n - (before build clock inf n).timer clock ≤ build.stepTimeout := by
    have polled : (before build clock inf n).run.poll.driver.acting = true := watches
    simpa [stalls, polled, number] using calm
  have := UInt64.le_iff_toNat_le.mp quiet
  rw [UInt64.toNat_sub_of_le _ _ (UInt64.le_iff_toNat_le.mpr behind)] at this
  omega

theorem paced (steady : Steady build clock inf) {n : Nat}
    (act : (before build clock inf n).acting = true) : ∃ c, Paced build clock inf n c := by
  induction n with
  | zero =>
    exact ⟨0, rfl, by decide, Nat.le_refl _, Nat.le_add_right _ _, by simp [before, WhileLoop.run,
      start, lastReading]⟩
  | succ n ih =>
    have act' := acting_of_le act (Nat.le_succ n)
    obtain ⟨watches, calm⟩ := watches_of_acting act
    obtain ⟨c, h⟩ := ih act'
    have number := (before_counts build clock inf n).2.2 act'
    have next : (before build clock inf n).iterate build clock = _ :=
      iterate_eq (before_counts build clock inf n).1
    obtain ⟨timer_le, timely⟩ := h.timely steady act' watches calm
    rw [calm] at next
    have started : (before build clock inf (n + 1)).stepStarted =
        (before build clock inf n).timer clock := by rw [before_succ act', next]
    have restart := UInt64.le_iff_toNat_le.mp (steady.restart n watches)
    have watchdog := UInt64.le_iff_toNat_le.mp (steady.watchdog n watches)
    have step := stepAt_succ act'
    have count := h.count
    have since := h.since
    have fresh := h.fresh
    have here := h.step
    rw [stepAt] at here
    rcases poll_step_cases (before build clock inf n).run with same | ⟨moved, left⟩
    · have timer_eq : (before build clock inf n).timer clock =
          (before build clock inf n).stepStarted := by rw [timer, if_pos same]
      rw [timer_eq] at started timer_le timely
      have ticked : n + 1 + (lastReading clock n).toNat ≤
          n + (clock.watchdog n).toNat + (min (n + 1) 1 - min n 1) := by
        rcases Nat.eq_zero_or_pos n with rfl | pos
        · omega
        · have := steady.ticks watches pos
          omega
      refine ⟨c, by omega, h.within, ?_, ?_, ?_⟩ <;> rw [started] <;> simp only [lastReading]
      · exact timer_le
      · exact timely
      · omega
    · have timer_eq : (before build clock inf n).timer clock = clock.restart n := by
        rw [timer, if_neg (by omega), number]
      rw [timer_eq] at started timer_le timely
      rw [charter_before n] at left
      have grown : (c + 1) * (build.stepTimeout.toNat + 1) =
          c * (build.stepTimeout.toNat + 1) + (build.stepTimeout.toNat + 1) := Nat.succ_mul _ _
      refine ⟨c + 1, by omega, by omega, ?_, ?_, ?_⟩ <;> rw [started] <;> simp only [lastReading]
      · exact timer_le
      · exact timely
      · omega

theorem ends_in_time (steady : Steady build clock inf) :
    (before build clock inf (8 * (build.stepTimeout.toNat + 2))).acting = false := by
  cases act : (before build clock inf (8 * (build.stepTimeout.toNat + 2))).acting
  · rfl
  · exfalso
    obtain ⟨c, h⟩ := paced steady act
    have steps : c * (build.stepTimeout.toNat + 1) ≤ 7 * (build.stepTimeout.toNat + 1) :=
      Nat.mul_le_mul_right _ (Nat.le_of_lt_succ h.within)
    have count := h.count
    have fresh := h.fresh
    omega

/-- Where the clock is read, the subtraction of the watchdog is the time since
its timer was started. -/
theorem stalls_iff (steady : Steady build clock inf) {i : Nat}
    (act : (before build clock inf i).acting = true) :
    (before build clock inf i).stalls build clock = true ↔
      Watches build clock inf i ∧
        ((before build clock inf i).timer clock).toNat + build.stepTimeout.toNat <
          (clock.watchdog i).toNat := by
  have number := (before_counts build clock inf i).2.2 act
  simp only [stalls, number, Bool.and_eq_true, decide_eq_true_eq]
  apply and_congr_right
  intro watches
  have timer_le : (before build clock inf i).timer clock ≤ clock.watchdog i := by
    have restart := steady.restart i watches
    have watchdog := steady.watchdog i watches
    rw [timer]
    split
    · obtain ⟨c, h⟩ := paced steady act
      exact UInt64.le_trans (UInt64.le_iff_toNat_le.mpr h.since)
        (UInt64.le_trans restart watchdog)
    · rw [number]
      exact watchdog
  have behind := UInt64.le_iff_toNat_le.mp timer_le
  rw [gt_iff_lt, UInt64.lt_iff_toNat_lt, UInt64.toNat_sub_of_le _ _ timer_le]
  omega

/-- A verdict either ends the goal or starts the next step. -/
theorem poll_answers {g : GoalRun I} (act : g.driver.acting = true) {v : Verdict}
    (answers : (Inference.next g.inf g.driver.context).1 = .completed v)
    (still : g.poll.driver.acting = true) : g.poll.driver.step = g.driver.step + 1 := by
  rw [GoalRun.poll_acting act, answers] at still ⊢
  exact GoalDriver.advance_acting act (by simp) still

end

end Drive

open Drive in
/-- **The watchdog is exact and the loop ends.** Under a steady clock the loop
leaves `Acting` within `8 * (timeout + 2)` polls. In every iteration the step
in flight after the poll began at one reading `r`; the iteration fails that
step, with exactly one event, if the watchdog's reading is past `r` by more
than the timeout, and is the poll alone otherwise. A verdict of the poll has
left its own step behind by then. -/
theorem watchdog_exact_and_ends {I : Type} [Inference I] [SerdeJson] (build : Build)
    (clock : Clock) (inf : I) (steady : Steady build clock inf) :
    (∃ o, (∀ fuel ≥ 8 * (build.stepTimeout.toNat + 2),
        driveGoal build clock inf fuel = some o) ∧
      o.polls ≤ 8 * (build.stepTimeout.toNat + 2) ∧ o.run.driver.state ≠ .acting) ∧
    ∀ i, (before build clock inf i).acting = true →
      let g := (before build clock inf i).run
      let after := (before build clock inf (i + 1)).run
      ∃ r, (∀ r', Began build clock inf g.poll.driver.step r' ↔ r' = r) ∧
        (g.poll.driver.acting = true →
          r.toNat + build.stepTimeout.toNat < (clock.watchdog i).toNat →
          after = g.poll.advance .stalled ∧ after.driver.state = .failed ∧
          after.emitted = g.poll.emitted ++ [.goalStateChanged g.poll.driver.goal
            g.poll.driver.objective .failed g.poll.driver.step g.poll.driver.maxSteps
            "step stalled — no completion" false]) ∧
        (¬ (g.poll.driver.acting = true ∧
            r.toNat + build.stepTimeout.toNat < (clock.watchdog i).toNat) →
          after = g.poll) ∧
        (∀ v, (Inference.next g.inf g.driver.context).1 = .completed v →
          g.poll.driver.acting = true → g.poll.driver.step = g.driver.step + 1) := by
  constructor
  · have ended := ends_in_time steady
    refine ⟨finish build (before build clock inf (8 * (build.stepTimeout.toNat + 2))), ?_, ?_, ?_⟩
    · intro fuel enough
      rw [driveGoal, WhileLoop.result_of_le (WhileLoop.result_eq_some.mpr ⟨rfl, ended⟩) enough]
      rfl
    · have count := (before_counts build clock inf (8 * (build.stepTimeout.toNat + 2))).2.1
      unfold finish
      split <;> exact count
    · have left : (before build clock inf (8 * (build.stepTimeout.toNat + 2))).run.driver.state
          ≠ .acting := by simpa [acting, GoalDriver.acting] using ended
      unfold finish
      split <;> exact left
  · intro i act g after
    have began := began_timer act (began_before act)
    have exact_here := stalls_iff steady act
    have next : after = if (before build clock inf i).stalls build clock then
        g.poll.advance .stalled else g.poll := by
      change (before build clock inf (i + 1)).run = _
      rw [before_succ act, iterate_eq (before_counts build clock inf i).1]
    rw [stepAt_succ act] at began
    refine ⟨(before build clock inf i).timer clock,
      fun r' => ⟨fun h => h.unique began, fun h => h ▸ began⟩, ?_, ?_, ?_⟩
    · intro watches late
      rw [next, exact_here.mpr ⟨watches, late⟩]
      simp [GoalRun.advance, GoalDriver.advance_stalled watches]
    · intro calm
      have quiet : (before build clock inf i).stalls build clock = false := by
        rw [← Bool.not_eq_true, exact_here]
        exact calm
      rw [next, quiet]
      rfl
    · exact fun v answers still => poll_answers act answers still

/-! ## The hanging script -/

section

open Drive

local instance hangJson : SerdeJson := Wire.json []

/-- Step 2 begins at tick 1, and the second watchdog reading is one tick past
its timeout. -/
def hangClock : Clock where
  start := 0
  restart
    | 0 => 1
    | _ => 2
  watchdog
    | 0 => 2
    | _ => 2 + Build.default.stepTimeout

theorem hangClock_steady :
    Steady Build.default hangClock (ScriptedInference.new SCRIPT_HANG) := by
  have ended : ∀ i, ¬ Watches Build.default hangClock (ScriptedInference.new SCRIPT_HANG) (i + 2) :=
    fun i h => absurd (acting_of_le (acting_of_watches h) (Nat.le_add_left 2 i)) (by decide)
  refine ⟨?_, ?_, ?_⟩
  · rintro (_ | _ | i) h
    · decide
    · decide
    · exact absurd h (ended i)
  · rintro (_ | _ | i) h
    · decide
    · decide
    · exact absurd h (ended i)
  · rintro (_ | i) h
    · decide
    · exact absurd h (ended i)

/-- The hanging script leaves the loop, its second step failed. -/
theorem hang_script_stalled :
    (∃ o, driveGoal Build.default hangClock (ScriptedInference.new SCRIPT_HANG)
        (8 * (Build.default.stepTimeout.toNat + 2)) = some o ∧ o.run.driver.state ≠ .acting) ∧
      (before Build.default hangClock (ScriptedInference.new SCRIPT_HANG) 2).run.emitted.getLast? =
        some (.goalStateChanged ⟨1⟩ Build.default.objective .failed 2 8
          "step stalled — no completion" false) := by
  obtain ⟨⟨o, ends, _, left⟩, exact_at⟩ := watchdog_exact_and_ends Build.default hangClock
    (ScriptedInference.new SCRIPT_HANG) hangClock_steady
  refine ⟨⟨o, ends _ (Nat.le_refl _), left⟩, ?_⟩
  obtain ⟨r, began, late, _⟩ := exact_at 1 (by decide)
  have start : r = 1 := ((began 1).mp (.inr ⟨0, by decide, by decide, rfl⟩)).symm
  subst start
  rw [(late (by decide) (by decide)).2.2, List.getLast?_concat]
  decide

end

end ApexosRv
