import Mathlib.Data.Nat.Notation

/-!
# Parties that take turns

A system of parties moves by the turns of a schedule, which names the party
that moves next; a party that has nothing to do leaves the state alone. `always`
carries what every turn keeps along a schedule. `eventually` is the rule for
schedules in which every party moves again and again: a rank that no turn
raises, and that the turn of one helpful party lowers, cannot stand still.
-/

namespace Fair

section
variable {σ α : Type} (step : σ → α → σ)

/-- The state before the `n`-th turn. -/
def before (schedule : ℕ → α) (s : σ) : ℕ → σ
  | 0 => s
  | n + 1 => step (before schedule s n) (schedule n)

/-- Every party moves again and again. -/
def Schedule (schedule : ℕ → α) : Prop := ∀ a t, ∃ u, t ≤ u ∧ schedule u = a

variable {step}

theorem always {I : σ → Prop} (keep : ∀ s a, I s → I (step s a)) {s : σ} (start : I s)
    (schedule : ℕ → α) (n : ℕ) : I (before step schedule s n) := by
  induction n with
  | zero => exact start
  | succ n ih => exact keep _ _ ih

section
variable {I goal : σ → Prop} (rank : σ → ℕ) (helper : σ → α)

/-- Short of the goal, a turn lowers the rank or leaves it and the helper as
they are, and the helper's own turn lowers it. -/
structure Progress (step : σ → α → σ) (I goal : σ → Prop) : Prop where
  keeps : ∀ s a, I s → I (step s a)
  waits : ∀ s a, I s → ¬ goal s → goal (step s a) ∨ rank (step s a) < rank s ∨
    rank (step s a) = rank s ∧ helper (step s a) = helper s
  helps : ∀ s, I s → ¬ goal s → goal (step s (helper s)) ∨ rank (step s (helper s)) < rank s

variable {rank helper}

/-- Until the helper moves the rank has been lowered, or the helper is the same. -/
theorem Progress.until (progress : Progress rank helper step I goal) {schedule : ℕ → α} {s : σ}
    (start : I s) (t k : ℕ) :
    (∃ n, goal (before step schedule s n)) ∨
      rank (before step schedule s (t + k)) < rank (before step schedule s t) ∨
      rank (before step schedule s (t + k)) = rank (before step schedule s t) ∧
        helper (before step schedule s (t + k)) = helper (before step schedule s t) := by
  induction k with
  | zero => exact .inr (.inr ⟨rfl, rfl⟩)
  | succ k ih =>
    have kept := always progress.keeps start schedule (t + k)
    rcases ih with reached | lower | ⟨same, helper_same⟩
    · exact .inl reached
    · by_cases here : goal (before step schedule s (t + k))
      · exact .inl ⟨_, here⟩
      · rcases progress.waits _ (schedule (t + k)) kept here with next | less | ⟨eq, _⟩
        · exact .inl ⟨t + k + 1, next⟩
        · exact .inr (.inl (Nat.lt_trans less lower))
        · exact .inr (.inl (Nat.lt_of_le_of_lt (Nat.le_of_eq eq) lower))
    · by_cases here : goal (before step schedule s (t + k))
      · exact .inl ⟨_, here⟩
      · rcases progress.waits _ (schedule (t + k)) kept here with next | less | ⟨eq, still⟩
        · exact .inl ⟨t + k + 1, next⟩
        · exact .inr (.inl (Nat.lt_of_lt_of_le less (Nat.le_of_eq same)))
        · exact .inr (.inr ⟨eq.trans same, still.trans helper_same⟩)

/-- Under a fair schedule the rank is lowered again, short of the goal. -/
theorem Progress.lowers (progress : Progress rank helper step I goal) {schedule : ℕ → α}
    (fair : Schedule schedule) {s : σ} (start : I s) (t : ℕ) :
    (∃ n, goal (before step schedule s n)) ∨
      ∃ u, rank (before step schedule s u) < rank (before step schedule s t) := by
  obtain ⟨u, later, moves⟩ := fair (helper (before step schedule s t)) t
  obtain ⟨k, rfl⟩ := Nat.exists_eq_add_of_le later
  rcases progress.until start t k with reached | lower | ⟨same, helper_same⟩
  · exact .inl reached
  · exact .inr ⟨t + k, lower⟩
  · by_cases here : goal (before step schedule s (t + k))
    · exact .inl ⟨_, here⟩
    · have moved := progress.helps _ (always progress.keeps start schedule (t + k)) here
      rw [helper_same, ← moves] at moved
      rcases moved with next | less
      · exact .inl ⟨t + k + 1, next⟩
      · exact .inr ⟨t + k + 1, Nat.lt_of_lt_of_le less (Nat.le_of_eq same)⟩

/-- **A fair schedule reaches the goal.** -/
theorem Progress.eventually (progress : Progress rank helper step I goal) {schedule : ℕ → α}
    (fair : Schedule schedule) {s : σ} (start : I s) :
    ∃ n, goal (before step schedule s n) := by
  have from_rank : ∀ r t, rank (before step schedule s t) = r →
      ∃ n, goal (before step schedule s n) := by
    intro r
    induction r using Nat.strongRecOn with
    | ind r ih =>
      intro t ranked
      rcases progress.lowers fair start t with reached | ⟨u, lower⟩
      · exact reached
      · exact ih _ (ranked ▸ lower) u rfl
  exact from_rank _ 0 rfl

end

end

end Fair
