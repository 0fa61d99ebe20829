import ExtpiRlsd.Lib.Scalar

/-! # Reals and a value that is not finite

The scalar of a tensor that may hold garbage: a real number, or one value that is not finite.
Arithmetic with that value gives it back, zero times it included, and no comparison with it
holds, so a selection by a mask discards it where a product with the mask does not
(`mul_zero_eq`).  `isFinite` is a homomorphism of all operations that a reweighting uses. -/

namespace Tensors

inductive NanReal where
  | fin (x : ℝ)
  | nan

namespace NanReal

/-- `torch.isfinite`. -/
def isFinite : NanReal → Bool
  | fin _ => true
  | nan => false

/-- An operation that is not finite when one of its arguments is not. -/
def lift₂ (f : ℝ → ℝ → NanReal) : NanReal → NanReal → NanReal
  | fin x, fin y => f x y
  | _, _ => nan

/-- A comparison, which fails when one of its arguments is not finite. -/
def compares (r : ℝ → ℝ → Prop) : NanReal → NanReal → Prop
  | fin x, fin y => r x y
  | _, _ => False

noncomputable section instances

instance : Zero NanReal := ⟨fin 0⟩
instance : One NanReal := ⟨fin 1⟩
instance : NatCast NanReal := ⟨fun n => fin n⟩
instance : Neg NanReal := ⟨fun x => match x with
  | fin x => fin (-x)
  | nan => nan⟩
instance : Add NanReal := ⟨lift₂ fun x y => fin (x + y)⟩
instance : Sub NanReal := ⟨lift₂ fun x y => fin (x - y)⟩
instance : Mul NanReal := ⟨lift₂ fun x y => fin (x * y)⟩
instance : Div NanReal := ⟨lift₂ fun x y => if y = 0 then nan else fin (x / y)⟩
instance : LT NanReal := ⟨compares (· < ·)⟩
instance : LE NanReal := ⟨compares (· ≤ ·)⟩
instance : DecidableLT NanReal := fun _ _ => Classical.dec _
instance : DecidableLE NanReal := fun _ _ => Classical.dec _
instance : DecidableEq NanReal := fun _ _ => Classical.dec _

instance : Scalar NanReal where
  exp x := match x with
    | fin x => fin (Real.exp x)
    | nan => nan
  log x := match x with
    | fin x => if 0 < x then fin (Real.log x) else nan
    | nan => nan
  sqrt x := match x with
    | fin x => if 0 ≤ x then fin (Real.sqrt x) else nan
    | nan => nan
  isFinite := isFinite

end instances

variable {x y lo hi : NanReal}

theorem zero_def : (0 : NanReal) = fin 0 := rfl

@[simp] theorem fin_lt (x y : ℝ) : fin x < fin y ↔ x < y := Iff.rfl

@[simp] theorem fin_le (x y : ℝ) : fin x ≤ fin y ↔ x ≤ y := Iff.rfl

theorem isFinite_iff : x.isFinite = true ↔ ∃ r, x = fin r := by
  cases x with
  | fin r => exact ⟨fun _ => ⟨r, rfl⟩, fun _ => rfl⟩
  | nan =>
      constructor
      · intro h
        cases h
      · rintro ⟨r, h⟩
        cases h

@[simp] theorem isFinite_zero : (0 : NanReal).isFinite = true := rfl

@[simp] theorem isFinite_one : (1 : NanReal).isFinite = true := rfl

@[simp] theorem scalar_isFinite (x : NanReal) : Scalar.isFinite x = x.isFinite := rfl

@[simp] theorem isFinite_add (x y : NanReal) :
    (x + y).isFinite = (x.isFinite && y.isFinite) := by
  cases x <;> cases y <;> rfl

@[simp] theorem isFinite_sub (x y : NanReal) :
    (x - y).isFinite = (x.isFinite && y.isFinite) := by
  cases x <;> cases y <;> rfl

@[simp] theorem isFinite_mul (x y : NanReal) :
    (x * y).isFinite = (x.isFinite && y.isFinite) := by
  cases x <;> cases y <;> rfl

@[simp] theorem isFinite_exp (x : NanReal) : (Scalar.exp x).isFinite = x.isFinite := by
  cases x <;> rfl

/-- Less than anything, and finite. -/
theorem isFinite_of_lt (h : x < y) : x.isFinite = true ∧ y.isFinite = true := by
  cases x with
  | fin a => cases y with
    | fin b => exact ⟨rfl, rfl⟩
    | nan => exact h.elim
  | nan => exact h.elim

theorem isFinite_of_le (h : x ≤ y) : x.isFinite = true ∧ y.isFinite = true := by
  cases x with
  | fin a => cases y with
    | fin b => exact ⟨rfl, rfl⟩
    | nan => exact h.elim
  | nan => exact h.elim

theorem not_le_of_lt (h : x < y) : ¬ y ≤ x := by
  cases x with
  | fin a => cases y with
    | fin b => exact not_le_of_gt (α := ℝ) h
    | nan => exact h.elim
  | nan => exact h.elim

/-- A sign is a number, that of a value that is not finite included. -/
@[simp] theorem isFinite_sign (x : NanReal) : (sign x).isFinite = true := by
  unfold sign
  split_ifs <;> rfl

/-- A clamp passes on a value that is not finite, and makes none. -/
@[simp] theorem isFinite_clamp (lo hi x : NanReal) : (clamp lo hi x).isFinite = x.isFinite := by
  unfold clamp clampMax clampMin
  by_cases hlo : x < lo
  · rw [if_pos hlo, (isFinite_of_lt hlo).1]
    split_ifs with hhi
    · exact (isFinite_of_lt hhi).1
    · exact (isFinite_of_lt hlo).2
  · rw [if_neg hlo]
    split_ifs with hhi
    · rw [(isFinite_of_lt hhi).1, (isFinite_of_lt hhi).2]
    · rfl

@[simp] theorem mul_one (x : NanReal) : x * 1 = x := by
  cases x with
  | fin r => exact congrArg fin (MulOneClass.mul_one r)
  | nan => rfl

/-- A product with zero is zero for a number only. -/
theorem mul_zero_eq (x : NanReal) : x * 0 = if x.isFinite = true then 0 else nan := by
  cases x with
  | fin r => exact congrArg fin (MulZeroClass.mul_zero r)
  | nan => rfl

theorem mul_zero_of_isFinite (h : x.isFinite = true) : x * 0 = 0 := by
  rw [mul_zero_eq, if_pos h]

end NanReal

end Tensors
