import Mathlib.Data.List.Basic
import Mathlib.Logic.Function.Iterate

/-!
# Loops run for a number of rounds

A `while` loop as a test and a body on an arbitrary state:

* `run` performs the loop for at most a given number of rounds, `result` is
  what the loop returns when that number is enough;
* `invariant` and `ends_of_measure` are the two rules every loop needs, one
  for what a round keeps and one for why the rounds run out;
* `run_congr` and `fits_of_returns`: rounds that fail where a condition does not hold,
  beside rounds that never do;
* `lockstep`: two loops whose rounds keep a relation, and whose tests agree
  under it, take the same number of rounds and end related.
-/

namespace WhileLoop

section
variable {σ τ : Type} (more : σ → Bool) (body : σ → σ)

/-- `while more s { s = body s }`, stopped after `n` rounds at the latest. -/
def run : Nat → σ → σ
  | 0, s => s
  | n + 1, s => if more s then run n (body s) else s

/-- What the loop returns, when `n` rounds are enough for it. -/
def result (n : Nat) (s : σ) : Option σ :=
  if more (run more body n s) then none else some (run more body n s)

variable {more body}

theorem run_of_ended {s : σ} (h : more s = false) (n : Nat) : run more body n s = s := by
  cases n with
  | zero => rfl
  | succ n => simp [run, h]

theorem run_add (m n : Nat) (s : σ) :
    run more body (m + n) s = run more body n (run more body m s) := by
  induction m generalizing s with
  | zero => simp [run]
  | succ m ih =>
    rw [Nat.succ_add]
    simp only [run]
    split
    · exact ih (body s)
    · rename_i ended
      exact (run_of_ended (by simpa using ended) n).symm

theorem run_succ (n : Nat) (s : σ) :
    run more body (n + 1) s =
      if more (run more body n s) then body (run more body n s) else run more body n s := by
  rw [run_add]
  rfl

theorem run_of_le {s : σ} {m n : Nat} (ended : more (run more body m s) = false) (h : m ≤ n) :
    run more body n s = run more body m s := by
  obtain ⟨k, rfl⟩ := Nat.le.dest h
  rw [run_add, run_of_ended ended]

theorem running_of_le {s : σ} {m n : Nat} (running : more (run more body n s) = true)
    (h : m ≤ n) : more (run more body m s) = true := by
  cases ended : more (run more body m s)
  · rw [run_of_le ended h, ended] at running
    cases running
  · rfl

theorem result_eq_some {n : Nat} {s t : σ} :
    result more body n s = some t ↔ run more body n s = t ∧ more t = false := by
  simp only [result]
  split
  · rename_i running
    simp only [reduceCtorEq, false_iff, not_and]
    rintro rfl
    simp [running]
  · rename_i ended
    simp only [Option.some.injEq]
    constructor
    · rintro rfl
      exact ⟨rfl, by simpa using ended⟩
    · exact And.left

theorem result_of_ended {s : σ} (ended : more s = false) (n : Nat) :
    result more body n s = some s :=
  result_eq_some.mpr ⟨run_of_ended ended n, ended⟩

theorem result_succ {s : σ} (running : more s = true) (n : Nat) :
    result more body (n + 1) s = result more body n (body s) := by
  simp only [result, run, running, ↓reduceIte]

/-- More rounds than enough change nothing. -/
theorem result_of_le {s t : σ} {m n : Nat} (h : result more body m s = some t) (le : m ≤ n) :
    result more body n s = some t := by
  obtain ⟨rfl, ended⟩ := result_eq_some.mp h
  exact result_eq_some.mpr ⟨run_of_le ended le, ended⟩

/-! ### Counting the rounds -/

theorem run_eq_iterate {s : σ} {n : Nat} (running : ∀ k < n, more (body^[k] s) = true) :
    run more body n s = body^[n] s := by
  induction n with
  | zero => rfl
  | succ n ih =>
    rw [run_succ, ih fun k hk => running k (Nat.lt_succ_of_lt hk),
      if_pos (running n (Nat.lt_succ_self n)), Function.iterate_succ_apply']

/-- A loop whose test first fails after `n` rounds returns what these make. -/
theorem result_iff_iterate {s t : σ} {n : Nat} (running : ∀ k < n, more (body^[k] s) = true)
    (ended : more (body^[n] s) = false) :
    (∃ fuel, result more body fuel s = some t) ↔ t = body^[n] s := by
  have exact : result more body n s = some (body^[n] s) :=
    result_eq_some.mpr ⟨run_eq_iterate running, ended⟩
  constructor
  · rintro ⟨fuel, returned⟩
    have at_most := result_of_le returned (Nat.le_max_left fuel n)
    have at_least := result_of_le exact (Nat.le_max_right fuel n)
    exact Option.some.inj (at_most.symm.trans at_least)
  · rintro rfl
    exact ⟨n, exact⟩

/-- A loop whose test never fails returns nothing. -/
theorem result_eq_none {s : σ} (running : ∀ k, more (body^[k] s) = true) (fuel : Nat) :
    result more body fuel s = none := by
  rw [result, run_eq_iterate fun k _ => running k, if_pos (running fuel)]

/-! ### Rules -/

/-- What every round keeps holds whenever the loop stops. -/
theorem invariant {I : σ → Prop} (keep : ∀ s, I s → more s = true → I (body s)) {s : σ}
    (start : I s) (n : Nat) : I (run more body n s) := by
  induction n generalizing s with
  | zero => exact start
  | succ n ih =>
    simp only [run]
    split
    · rename_i running
      exact ih (keep s start running)
    · exact start

/-- A quantity that every round lowers bounds the number of rounds. -/
theorem ends_of_measure {I : σ → Prop} (μ : σ → Nat)
    (keep : ∀ s, I s → more s = true → I (body s) ∧ μ (body s) < μ s) {s : σ} (start : I s) :
    more (run more body (μ s) s) = false := by
  have within : ∀ n s, I s → μ s ≤ n → more (run more body n s) = false := by
    intro n
    induction n with
    | zero =>
      intro s hs hn
      cases running : more s
      · exact running
      · have := (keep s hs running).2
        omega
    | succ n ih =>
      intro s hs hn
      simp only [run]
      split
      · rename_i running
        obtain ⟨kept, lower⟩ := keep s hs running
        exact ih (body s) kept (by omega)
      · rename_i ended
        simpa using ended
  exact within (μ s) s start (Nat.le_refl _)

/-- Two loops that keep a relation under which their tests agree. -/
theorem lockstep {more' : τ → Bool} {body' : τ → τ} {R : σ → τ → Prop}
    (tests : ∀ s t, R s t → more s = more' t)
    (keep : ∀ s t, R s t → more s = true → R (body s) (body' t)) {s : σ} {t : τ} (start : R s t)
    (n : Nat) : R (run more body n s) (run more' body' n t) := by
  induction n generalizing s t with
  | zero => exact start
  | succ n ih =>
    have same := tests s t start
    simp only [run, ← same]
    split
    · rename_i running
      exact ih (keep s t start running)
    · exact start

end

/-! ### Rounds that may fail -/

section
variable {σ : Type} {more : Option σ → Bool} {f g : σ → Option σ} {start : Option σ}

/-- Two bodies that agree on what the loop with one of them reaches. -/
theorem run_congr (failed : more none = false)
    (agree : ∀ n s, run more (·.bind f) n start = some s → more (some s) = true → f s = g s)
    (n : Nat) : run more (·.bind g) n start = run more (·.bind f) n start := by
  induction n with
  | zero => rfl
  | succ n ih =>
    rw [run_succ, run_succ, ih]
    rcases reached : run more (·.bind f) n start with _ | s
    · simp [failed]
    · split
      · rename_i running
        exact (agree n s reached running).symm
      · rfl

variable {take body : σ → Option σ} {ok : σ → Prop}

/-- A loop that returns finds the condition under which its rounds do not fail, wherever
it comes. -/
theorem fits_of_returns (failed : more none = false) (guarded : ∀ s, ok s → body s = take s)
    (fails : ∀ s, ¬ ok s → body s = none) {fuel : Nat} {t : σ}
    (returned : result more (·.bind body) fuel start = some (some t)) (n : Nat) (s : σ)
    (reached : run more (·.bind take) n start = some s) (running : more (some s) = true) :
    ok s := by
  obtain ⟨last, ended⟩ := result_eq_some.mp returned
  have live : ∀ n, run more (·.bind body) n start ≠ none := by
    intro n none
    rcases Nat.le_total n fuel with before | after
    · rw [run_of_le (by rw [none]; exact failed) before, none] at last
      cases last
    · rw [run_of_le (by rw [last]; exact ended) after, last] at none
      cases none
  have found : ∀ n s, run more (·.bind body) n start = some s → more (some s) = true → ok s := by
    intro n s reached running
    by_contra short
    refine live (n + 1) ?_
    rw [run_succ, reached, if_pos running, Option.bind_some, fails s short]
  rw [run_congr failed fun n s reached running => guarded s (found n s reached running)] at reached
  exact found n s reached running

end

end WhileLoop
