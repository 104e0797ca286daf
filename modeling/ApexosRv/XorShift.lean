import Mathlib.Data.Nat.ModEq
import Mathlib.Data.Nat.Prime.Basic

/-!
# Shift-xor maps on words

`x ^ (x >> a)` and `x ^ (x << a)` with `0 < a` lose nothing: a bit of `x` is the
same bit of the image, corrected by a bit that is nearer the end the shift comes
from. Neither does the multiplication by an odd word. So a generator that chains
such maps permutes its states, and zero is drawn from zero only.
-/

namespace XorShift

section
variable {w : ℕ} {a b c : ℕ}

def right (a : ℕ) (x : BitVec w) : BitVec w := x ^^^ (x >>> a)

def left (a : ℕ) (x : BitVec w) : BitVec w := x ^^^ (x <<< a)

theorem getLsbD_right (x : BitVec w) (i : ℕ) :
    (right a x).getLsbD i = (x.getLsbD i ^^ x.getLsbD (a + i)) := by
  simp only [right, BitVec.getLsbD_xor, BitVec.getLsbD_ushiftRight]

theorem getLsbD_left (x : BitVec w) {i : ℕ} (lt : i < w) :
    (left a x).getLsbD i = (x.getLsbD i ^^ (!decide (i < a) && x.getLsbD (i - a))) := by
  simp only [left, BitVec.getLsbD_xor, BitVec.getLsbD_shiftLeft, lt, decide_true, Bool.true_and]

/-- From the top bit down. -/
theorem right_injective (pos : 0 < a) : Function.Injective (right a : BitVec w → BitVec w) := by
  intro x y same
  have bits : ∀ n i, w ≤ n + i → x.getLsbD i = y.getLsbD i := by
    intro n
    induction n with
    | zero =>
      intro i ge
      rw [BitVec.getLsbD_of_ge x i (by omega), BitVec.getLsbD_of_ge y i (by omega)]
    | succ n ih =>
      intro i ge
      have image := congrArg (BitVec.getLsbD · i) same
      simp only [getLsbD_right] at image
      rw [ih (a + i) (by omega)] at image
      exact Bool.xor_left_inj.mp image
  apply BitVec.eq_of_getLsbD_eq
  intro i _
  exact bits w i (by omega)

/-- From the bottom bit up. -/
theorem left_injective (pos : 0 < a) : Function.Injective (left a : BitVec w → BitVec w) := by
  intro x y same
  apply BitVec.eq_of_getLsbD_eq
  intro i
  induction i using Nat.strong_induction_on with
  | _ i ih =>
    intro lt
    have image := congrArg (BitVec.getLsbD · i) same
    simp only [getLsbD_left _ lt] at image
    by_cases low : i < a
    · simpa [low] using image
    · rw [ih (i - a) (by omega) (by omega)] at image
      exact Bool.xor_left_inj.mp image

/-- The state update of a generator with the shifts `a`, `b` and `c`. -/
def step (a b c : ℕ) (x : BitVec w) : BitVec w := right c (left b (right a x))

theorem step_injective (pos_a : 0 < a) (pos_b : 0 < b) (pos_c : 0 < c) :
    Function.Injective (step a b c : BitVec w → BitVec w) :=
  (right_injective pos_c).comp ((left_injective pos_b).comp (right_injective pos_a))

theorem step_zero : step a b c (0 : BitVec w) = 0 := by
  simp [step, right, left]

theorem step_eq_zero_iff (pos_a : 0 < a) (pos_b : 0 < b) (pos_c : 0 < c) {x : BitVec w} :
    step a b c x = 0 ↔ x = 0 := by
  conv_lhs => rw [← step_zero (w := w) (a := a) (b := b) (c := c)]
  exact (step_injective pos_a pos_b pos_c).eq_iff

theorem mul_injective {m : BitVec w} (odd : Odd m.toNat) : Function.Injective (· * m) := by
  intro x y same
  have coprime : Nat.gcd (2 ^ w) m.toNat = 1 := (Nat.coprime_two_left.mpr odd).pow_left w
  have congruent : x.toNat * m.toNat ≡ y.toNat * m.toNat [MOD 2 ^ w] := by
    simpa only [BitVec.toNat_mul, Nat.ModEq] using congrArg BitVec.toNat same
  apply BitVec.eq_of_toNat_eq
  rw [← Nat.mod_eq_of_lt x.isLt, ← Nat.mod_eq_of_lt y.isLt]
  exact Nat.ModEq.cancel_right_of_coprime coprime congruent

theorem mul_eq_zero_iff {m : BitVec w} (odd : Odd m.toNat) {x : BitVec w} : x * m = 0 ↔ x = 0 := by
  have images := (mul_injective odd).eq_iff (a := x) (b := 0)
  simpa using images

end

end XorShift
