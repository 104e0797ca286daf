import Mathlib.Algebra.Ring.Nat
import Mathlib.Data.Set.Lattice
import Mathlib.Order.CompletePartialOrder
import Mathlib.Order.Interval.Set.Basic

/-!
# Ranges handed out by a counter

Items that take up one range each, laid one after the other from `first` on.
Each lies between `first` and the counter, so a range that starts at the counter
is apart from them all (`Consecutive.apart`).
-/

namespace Bump

section
variable {α : Type} (start len : α → ℕ)

def units (a : α) : Set ℕ := Set.Ico (start a) (start a + len a)

def Consecutive : ℕ → List α → Prop
  | _, [] => True
  | first, a :: rest => start a = first ∧ Consecutive (first + len a) rest

/-- Where the counter stands once the items are laid out. -/
def counter (first : ℕ) (items : List α) : ℕ := first + (items.map len).sum

variable {start len} {first : ℕ} {items : List α} {a b : α}

theorem consecutive_concat :
    Consecutive start len first (items ++ [a]) ↔
      Consecutive start len first items ∧ start a = counter len first items := by
  induction items generalizing first with
  | nil => simp [Consecutive, counter]
  | cons b rest ih =>
    have shift : counter len (first + len b) rest = counter len first (b :: rest) := by
      simp [counter, Nat.add_assoc]
    rw [List.cons_append, Consecutive, ih, Consecutive, shift, and_assoc]

theorem Consecutive.inside (h : Consecutive start len first items) (mem : a ∈ items) :
    first ≤ start a ∧ start a + len a ≤ counter len first items := by
  induction items generalizing first with
  | nil => cases mem
  | cons b rest ih =>
    obtain ⟨here, later⟩ := h
    simp only [counter, List.map_cons, List.sum_cons] at ih ⊢
    rcases List.mem_cons.mp mem with rfl | mem
    · omega
    · have bounds := ih later mem
      omega

theorem units_disjoint (before : start a + len a ≤ start b) :
    Disjoint (units start len a) (units start len b) := by
  rw [Set.disjoint_left]
  intro unit in_a in_b
  exact absurd (in_a.2.trans_le before) in_b.1.not_gt

/-- A range that starts at the counter is apart from all that were laid out. -/
theorem Consecutive.apart (h : Consecutive start len first (items ++ [a])) (mem : b ∈ items) :
    Disjoint (units start len b) (units start len a) := by
  obtain ⟨laid, next⟩ := consecutive_concat.mp h
  apply units_disjoint
  rw [next]
  exact (laid.inside mem).2

end

end Bump
