import Mathlib.Data.List.Basic

/-!
# Runs of a step function

A run is a list of inputs folded by a step function. `Within` says that every
step of a run meets a condition on the state it is taken from and its input;
`invariant` and `invariant_iff` carry what one step keeps to whole runs. A view
of the state that each input either writes or leaves alone is decided by the
last input that writes it (`view_eq_iff`).
-/

namespace Runs

section
variable {σ α : Type} (step : σ → α → σ) (ok : σ → α → Prop)

/-- Every step of the run from `s` meets `ok` where it is taken. -/
def Within : σ → List α → Prop
  | _, [] => True
  | s, a :: rest => ok s a ∧ Within (step s a) rest

instance [∀ s a, Decidable (ok s a)] (s : σ) (run : List α) : Decidable (Within step ok s run) :=
  match run with
  | [] => .isTrue trivial
  | a :: rest => haveI := instDecidableWithin (step s a) rest; inferInstanceAs (Decidable (_ ∧ _))

variable {step ok}

theorem always {I : σ → Prop} (keep : ∀ s a, I s → I (step s a)) {s : σ} (start : I s)
    (run : List α) : I (run.foldl step s) := by
  induction run generalizing s with
  | nil => exact start
  | cons a rest ih => exact ih (keep s a start)

theorem invariant {I : σ → Prop} (keep : ∀ s a, I s → ok s a → I (step s a)) {s : σ}
    (start : I s) {run : List α} (within : Within step ok s run) : I (run.foldl step s) := by
  induction run generalizing s with
  | nil => exact start
  | cons a rest ih => exact ih (keep s a start within.1) within.2

/-- Where `ok` is exactly what a step needs to keep `I`, it is exactly what a
run needs to keep it in all its states. -/
theorem invariant_iff {I : σ → Prop} (exact : ∀ s a, I s → (I (step s a) ↔ ok s a)) {s : σ}
    (start : I s) (run : List α) :
    (∀ k, I ((run.take k).foldl step s)) ↔ Within step ok s run := by
  induction run generalizing s with
  | nil => simpa [Within] using start
  | cons a rest ih =>
    constructor
    · intro all
      have next : I (step s a) := all 1
      exact ⟨(exact s a start).mp next, (ih next).mp fun k => all (k + 1)⟩
    · rintro ⟨here, later⟩ k
      have next := (exact s a start).mpr here
      cases k with
      | zero => exact start
      | succ k => exact (ih next).mpr later k

/-- Two conditions that agree wherever `I` holds are met by the same runs, as long
as steps that meet them keep `I`. -/
theorem within_congr {ok' : σ → α → Prop} {I : σ → Prop} (agree : ∀ s a, I s → (ok s a ↔ ok' s a))
    (keep : ∀ s a, I s → ok' s a → I (step s a)) {s : σ} (start : I s) (run : List α) :
    Within step ok s run ↔ Within step ok' s run := by
  induction run generalizing s with
  | nil => rfl
  | cons a rest ih =>
    rw [Within, Within, agree s a start]
    exact and_congr_right fun here => ih (keep s a start here)

theorem within_iff_forall {fine : α → Prop} {s : σ} {run : List α} :
    Within step (fun _ a => fine a) s run ↔ ∀ a ∈ run, fine a := by
  induction run generalizing s with
  | nil => simp [Within]
  | cons a rest ih => rw [Within, ih, List.forall_mem_cons]

theorem Within.mono {ok' : σ → α → Prop} (weaker : ∀ s a, ok s a → ok' s a) {s : σ}
    {run : List α} (within : Within step ok s run) : Within step ok' s run := by
  induction run generalizing s with
  | nil => trivial
  | cons a rest ih => exact ⟨weaker s a within.1, ih within.2⟩

end

section
variable {σ α β : Type} {step : σ → α → σ} {view : σ → β} {writes : α → Option β}

/-- The last write of a run decides the view. -/
theorem view_foldl (here : ∀ s a, view (step s a) = (writes a).getD (view s)) (s : σ)
    (run : List α) :
    view (run.foldl step s) = (run.reverse.findSome? writes).getD (view s) := by
  induction run generalizing s with
  | nil => rfl
  | cons a rest ih =>
    rw [List.foldl_cons, ih, here, List.reverse_cons, List.findSome?_append]
    cases rest.reverse.findSome? writes <;> cases written : writes a <;> simp [written]

theorem last_write_iff {run : List α} {v : β} :
    run.reverse.findSome? writes = some v ↔
      ∃ before a after, run = before ++ a :: after ∧ writes a = some v ∧
        ∀ b ∈ after, writes b = none := by
  rw [List.findSome?_eq_some_iff]
  constructor
  · rintro ⟨after, a, before, split, wrote, silent⟩
    refine ⟨before.reverse, a, after.reverse, ?_, wrote, by simpa using silent⟩
    simpa using congrArg List.reverse split
  · rintro ⟨before, a, after, rfl, wrote, silent⟩
    exact ⟨after.reverse, a, before.reverse, by simp, wrote, by simpa using silent⟩

/-- **A view shows what it did not show at first exactly when the last input to
write it wrote that.** -/
theorem view_eq_iff (view : σ → β) (here : ∀ s a, view (step s a) = (writes a).getD (view s))
    {s : σ} {v : β} (first : view s ≠ v) (run : List α) :
    view (run.foldl step s) = v ↔
      ∃ before a after, run = before ++ a :: after ∧ writes a = some v ∧
        ∀ b ∈ after, writes b = none := by
  rw [view_foldl here, ← last_write_iff]
  cases run.reverse.findSome? writes <;> simp [first]

/-- Inputs that change nothing can be left out of a run. -/
theorem foldl_filter {p : α → Bool} (idle : ∀ s a, p a = false → step s a = s) (s : σ)
    (run : List α) : (run.filter p).foldl step s = run.foldl step s := by
  induction run generalizing s with
  | nil => rfl
  | cons a rest ih =>
    by_cases kept : p a = true
    · rw [List.filter_cons_of_pos kept, List.foldl_cons, List.foldl_cons, ih]
    · rw [List.filter_cons_of_neg kept, List.foldl_cons, idle s a (by simpa using kept), ih]

end

end Runs
