import Mathlib

/-! # Scalars of a tensor

The elementwise functions of a tensor library over an arbitrary scalar type: sign, absolute
value, clamping and the linearly interpolated quantile of a list.  They are written with
comparisons only, so that a scalar whose comparisons all fail (a value that is not a number)
passes through a clamp unchanged.  Over the reals they are the order-theoretic functions, and
clamping commutes with the exponential (`clamp_exp`). -/

namespace Tensors

/-- Transcendental functions of the scalar type, and its test for finiteness. -/
class Scalar (α : Type*) where
  exp : α → α
  log : α → α
  sqrt : α → α
  isFinite : α → Bool

noncomputable instance : Scalar ℝ where
  exp := Real.exp
  log := Real.log
  sqrt := Real.sqrt
  isFinite _ := true

section definitions
variable {α : Type*} [LT α] [DecidableLT α]

/-- `x` raised to at least `lo`. -/
def clampMin (lo x : α) : α := if x < lo then lo else x

/-- `x` lowered to at most `hi`. -/
def clampMax (hi x : α) : α := if hi < x then hi else x

/-- `x` raised to at least `lo`, then lowered to at most `hi`. -/
def clamp (lo hi x : α) : α := clampMax hi (clampMin lo x)

/-- `1`, `-1` or `0`. -/
def sign [Zero α] [One α] [Neg α] (x : α) : α := if 0 < x then 1 else if x < 0 then -1 else 0

def abs [Zero α] [Neg α] (x : α) : α := if x < 0 then -x else x

/-- The quantile at `p / 100` of a list, interpolated linearly between neighbours in sorted
order; `0` for the empty list. -/
def percentile [LE α] [DecidableLE α] [Zero α] [Add α] [Sub α] [Mul α] [Div α] [NatCast α]
    (p : ℕ) (xs : List α) : α :=
  let sorted := xs.mergeSort (fun a b => decide (a ≤ b))
  let rank := p * (xs.length - 1)
  let lo := sorted.getD (rank / 100) 0
  let hi := sorted.getD ((rank + 99) / 100) 0
  lo + ((rank % 100 : ℕ) : α) / ((100 : ℕ) : α) * (hi - lo)

end definitions

/-! ### Over the reals -/

variable {lo hi x y : ℝ}

theorem clampMin_eq_max (lo x : ℝ) : clampMin lo x = max lo x := by
  unfold clampMin
  split_ifs with h
  · exact (max_eq_left h.le).symm
  · exact (max_eq_right (not_lt.mp h)).symm

theorem clampMax_eq_min (hi x : ℝ) : clampMax hi x = min hi x := by
  unfold clampMax
  split_ifs with h
  · exact (min_eq_left h.le).symm
  · exact (min_eq_right (not_lt.mp h)).symm

theorem abs_eq_abs (x : ℝ) : abs x = |x| := by
  unfold abs
  split_ifs with h
  · exact (abs_of_neg h).symm
  · exact (abs_of_nonneg (not_lt.mp h)).symm

theorem clamp_eq (lo hi x : ℝ) : clamp lo hi x = min hi (max lo x) := by
  rw [clamp, clampMin_eq_max, clampMax_eq_min]

theorem le_clamp (h : lo ≤ hi) (x : ℝ) : lo ≤ clamp lo hi x := by
  rw [clamp_eq]
  exact le_min h (le_max_left _ _)

theorem clamp_le (lo hi x : ℝ) : clamp lo hi x ≤ hi := by
  rw [clamp_eq]
  exact min_le_left _ _

theorem clamp_mono (lo hi : ℝ) (h : x ≤ y) : clamp lo hi x ≤ clamp lo hi y := by
  rw [clamp_eq, clamp_eq]
  exact min_le_min_left _ (max_le_max_left _ h)

/-- Clamping between logarithms and exponentiating is clamping the exponential. -/
theorem clamp_exp {a b : ℝ} (ha : 0 < a) (hb : 0 < b) (x : ℝ) :
    Real.exp (clamp (Real.log a) (Real.log b) x) = clamp a b (Real.exp x) := by
  rw [clamp_eq, clamp_eq, Real.exp_monotone.map_min, Real.exp_monotone.map_max,
    Real.exp_log ha, Real.exp_log hb]

theorem mul_neg_iff_neg {c : ℝ} (hc : 0 < c) (x : ℝ) : x * c < 0 ↔ x < 0 :=
  ⟨fun h => neg_of_mul_neg_left h hc.le, fun h => mul_neg_of_neg_of_pos h hc⟩

/-- A positive factor leaves the sign alone. -/
theorem sign_mul_pos (x : ℝ) {c : ℝ} (hc : 0 < c) : sign (x * c) = sign x := by
  simp only [sign, mul_pos_iff_of_pos_right hc, mul_neg_iff_neg hc]

end Tensors
