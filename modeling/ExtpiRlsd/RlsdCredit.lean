import ExtpiRlsd.Rlsd

/-! # The credit of one token

Over the reals `computeRlsdAdvantages` is a formula at every entry.  `tokenFactor` is the
documented one: the clamp acts on the weight `exp (sign A * delta)`, not on its logarithm.
`get?_reweightedAdvantages` reads every entry of the result as the advantage times this factor,
where a row is switched off by `negativeOnly` unless its valid advantages sum below zero.
The bounds, the signs, the clip ratios and the locality results are all read off this
equation. -/

namespace ExtpiRlsd

open Tensors Masks

variable {config : RLSDConfig ℝ}

/-- The documented factor of a credited token with advantage `a` and evidence `delta`. -/
noncomputable def creditFactor (config : RLSDConfig ℝ) (a delta : ℝ) : ℝ :=
  (1 - config.lam) +
    config.lam * clamp (1 - config.clipRange) (1 + config.clipRange) (Real.exp (sign a * delta))

/-- The sum of the valid advantages of row `i`. -/
noncomputable def maskedRowSum (advantages : Tensor ℝ) (responseMask : Tensor Bool) (i : ℕ) : ℝ :=
  ((List.zipWith select responseMask.rows advantages.rows)[i]?.map List.sum).getD 0

/-- The token mask (if there is one) keeps the entry. -/
noncomputable def tokenSelected (rlsdTokenMask : Option (Tensor ℝ)) (i t : ℕ) : Bool :=
  match rlsdTokenMask with
  | none => true
  | some m => (m.get? i t).any fun v => decide (v ≠ 0)

/-- Row `i` takes part: always without `negativeOnly`, else when its valid sum is negative. -/
noncomputable def rowActive (config : RLSDConfig ℝ) (advantages : Tensor ℝ)
    (responseMask : Tensor Bool) (i : ℕ) : Bool :=
  !config.negativeOnly || decide (maskedRowSum advantages responseMask i < 0)

/-- The factor of a valid token: the documented one if it is credited in an active row. -/
noncomputable def tokenFactor (config : RLSDConfig ℝ) (active selected : Bool) (a delta : ℝ) : ℝ :=
  if active && selected then creditFactor config a delta else 1

/-! ### Checks -/

theorem RLSDConfig.validate_eq_ok_iff :
    config.validate = .ok () ↔
      (0 ≤ config.lam ∧ config.lam ≤ 1) ∧ 0 ≤ config.clipRange ∧ config.clipRange < 1 := by
  unfold RLSDConfig.validate
  by_cases hl : 0 ≤ config.lam ∧ config.lam ≤ 1
  · by_cases hc : 0 ≤ config.clipRange ∧ config.clipRange < 1
    · simp [hl, hc, pure, Except.pure]
    · simp [hl, hc, throw, throwThe, MonadExceptOf.throw]
  · simp [hl, throw, throwThe, MonadExceptOf.throw, bind, Except.bind]

/-- The defaults of the dataclass pass its own check. -/
theorem RLSDConfig.validate_default : (RLSDConfig.default : RLSDConfig ℝ).validate = .ok () := by
  rw [validate_eq_ok_iff]
  norm_num [RLSDConfig.default]

theorem checkFinite_real (valid : Tensor Bool) (xs : List (String × Tensor ℝ)) :
    checkFinite valid xs = .ok () := by
  induction xs with
  | nil => rfl
  | cons p xs ih =>
      obtain ⟨name, x⟩ := p
      have h : (Tensor.map₂ (fun b v => b && !Scalar.isFinite v) valid x).count = 0 := by
        rw [Tensor.count_eq_zero_iff]
        intro i t
        rw [Tensor.get?_map₂]
        cases valid.get? i t <;> cases x.get? i t <;> simp [Scalar.isFinite]
      simp only [checkFinite, h, ne_eq, not_true_eq_false, if_false]
      exact ih

/-- The shapes that `computeRlsdAdvantages` accepts. -/
structure SameShapes (teacher student advantages : Tensor ℝ) (responseMask : Tensor Bool)
    (rlsdTokenMask : Option (Tensor ℝ)) : Prop where
  teacher : teacher.shape = responseMask.shape
  student : student.shape = responseMask.shape
  advantages : advantages.shape = responseMask.shape
  tokenMask : ∀ m, rlsdTokenMask = some m → m.shape = responseMask.shape

section compute
variable {teacher student advantages : Tensor ℝ} {responseMask : Tensor Bool}
  {rlsdTokenMask : Option (Tensor ℝ)}

/-- On accepted inputs the function returns its terms and their metrics. -/
theorem computeRlsdAdvantages_eq_ok (hv : config.validate = .ok ())
    (hs : SameShapes teacher student advantages responseMask rlsdTokenMask) :
    computeRlsdAdvantages teacher student advantages responseMask rlsdTokenMask config =
      let t := rlsdTerms teacher student advantages responseMask rlsdTokenMask config
      .ok (t.reweightedAdvantages, rlsdMetrics advantages config t) := by
  have htm : (rlsdTokenMask.any fun m => decide (m.shape ≠ responseMask.shape)) = false := by
    cases h : rlsdTokenMask with
    | none => rfl
    | some m => simp [hs.tokenMask m h]
  have hsh : teacher.shape = student.shape ∧ student.shape = advantages.shape ∧
      advantages.shape = responseMask.shape :=
    ⟨hs.teacher.trans hs.student.symm, hs.student.trans hs.advantages.symm, hs.advantages⟩
  unfold computeRlsdAdvantages
  simp only [hv, hsh, htm, checkFinite_real]
  cases responseMask.any <;> rfl

/-! ### Entries -/

@[simp] theorem shape_asMask (m : Tensor Bool) : (asMask m : Tensor ℝ).shape = m.shape := by
  simp [asMask]

@[simp] theorem shape_asBool (m : Tensor ℝ) : (asBool m).shape = m.shape := by simp [asBool]

@[simp] theorem shape_whereElse (other : ℝ) (m : Tensor Bool) (value : Tensor ℝ) :
    (whereElse other m value).shape = m.shape ⊓ value.shape := by simp [whereElse]

theorem get?_asMask (m : Tensor Bool) (i t : ℕ) :
    (asMask m : Tensor ℝ).get? i t = (m.get? i t).map fun b => if b then 1 else 0 := by
  simp [asMask]

@[simp] theorem rlsdTerms_mask :
    (rlsdTerms teacher student advantages responseMask rlsdTokenMask config).mask =
      asMask responseMask := rfl

@[simp] theorem rlsdTerms_creditMask :
    (rlsdTerms teacher student advantages responseMask rlsdTokenMask config).creditMask =
      creditMask (asMask responseMask) rlsdTokenMask := rfl

/-- The masked sum of the source is the sum over the selected entries. -/
theorem rowSums_mul_asMask (x : Tensor ℝ) (m : Tensor Bool) :
    (Tensor.map₂ (· * ·) x (asMask m)).rowSums =
      (List.zipWith select m.rows x.rows).map List.sum := by
  have hrow : ∀ (r : List ℝ) (b : List Bool),
      (List.zipWith (· * ·) r (b.map fun b => if b then (1 : ℝ) else 0)).sum = (select b r).sum := by
    intro r b
    induction r generalizing b with
    | nil => simp
    | cons a r ih => cases b with
      | nil => simp
      | cons c b => cases c <;> simp [ih]
  refine List.ext_getElem? fun i => ?_
  simp only [Tensor.rowSums, Tensor.map₂, asMask, Tensor.map, List.getElem?_map,
    List.getElem?_zipWith]
  cases x.rows[i]? with
  | none => simp
  | some r => cases m.rows[i]? with
    | none => simp
    | some b => simp [hrow]

/-- `negative_seq` marks the rows with a negative valid sum. -/
theorem getElem?_negativeSeq (h : advantages.shape = responseMask.shape) {i t : ℕ} {a : ℝ}
    (ha : advantages.get? i t = some a) :
    (negativeSeq advantages (asMask responseMask))[i]? =
      some (if maskedRowSum advantages responseMask i < 0 then 1 else 0) := by
  obtain ⟨b, hb⟩ := Tensor.exists_get?_of_shape h ha
  obtain ⟨r, hr, -⟩ := Tensor.get?_eq_some_iff.mp ha
  obtain ⟨s, hs, -⟩ := Tensor.get?_eq_some_iff.mp hb
  simp [negativeSeq, rowSums_mul_asMask, maskedRowSum, List.getElem?_zipWith, hr, hs]

/-- `signed_delta` entrywise. -/
theorem get?_signedDelta {i t : ℕ} {p q a : ℝ} (hp : teacher.get? i t = some p)
    (hq : student.get? i t = some q) (ha : advantages.get? i t = some a) :
    (rlsdTerms teacher student advantages responseMask rlsdTokenMask config).signedDelta.get? i t =
      some (sign a * (p - q)) := by
  simp [rlsdTerms, hp, hq, ha]

/-- `credit_mask.bool()` holds at the valid entries that the token mask keeps. -/
theorem get?_asBool_creditMask {i t : ℕ} {b : Bool}
    (hs : ∀ m, rlsdTokenMask = some m → m.shape = responseMask.shape)
    (hb : responseMask.get? i t = some b) :
    (asBool (creditMask (asMask responseMask) rlsdTokenMask)).get? i t =
      some (b && tokenSelected rlsdTokenMask i t) := by
  cases hm : rlsdTokenMask with
  | none => cases b <;> simp [asBool, creditMask, get?_asMask, hb, tokenSelected]
  | some m =>
      obtain ⟨v, hv⟩ := Tensor.exists_get?_of_shape (hs m hm).symm hb
      cases b <;> simp [asBool, creditMask, get?_asMask, hb, tokenSelected, hv]

theorem shape_creditMask (hs : ∀ m, rlsdTokenMask = some m → m.shape = responseMask.shape) :
    (creditMask (asMask responseMask) rlsdTokenMask : Tensor ℝ).shape = responseMask.shape := by
  cases hm : rlsdTokenMask with
  | none => simp [creditMask]
  | some m => simp [creditMask, hs m hm]

/-- The weight clamped in log space is the clamped weight. -/
theorem exp_clamp_log (h : 0 ≤ config.clipRange ∧ config.clipRange < 1) (x : ℝ) :
    Real.exp (clamp (Real.log (1 - config.clipRange)) (Real.log (1 + config.clipRange)) x) =
      clamp (1 - config.clipRange) (1 + config.clipRange) (Real.exp x) :=
  clamp_exp (by linarith [h.2]) (by linarith [h.1]) x

/-- **Every entry of the result**: zero off the response mask, and on it the advantage times the
token's factor. -/
theorem get?_reweightedAdvantages (hv : config.validate = .ok ())
    (hs : SameShapes teacher student advantages responseMask rlsdTokenMask) {i t : ℕ}
    {p q a : ℝ} {b : Bool} (hp : teacher.get? i t = some p) (hq : student.get? i t = some q)
    (ha : advantages.get? i t = some a) (hb : responseMask.get? i t = some b) :
    (rlsdTerms teacher student advantages responseMask rlsdTokenMask
      config).reweightedAdvantages.get? i t =
      some (if b then a * tokenFactor config (rowActive config advantages responseMask i)
        (tokenSelected rlsdTokenMask i t) a (p - q) else 0) := by
  have hclip := (RLSDConfig.validate_eq_ok_iff.mp hv).2
  have hcredit := get?_asBool_creditMask hs.tokenMask hb
  have hneg := getElem?_negativeSeq hs.advantages ha
  have hw := exp_clamp_log hclip (sign a * (p - q))
  simp only [rlsdTerms]
  -- one case for each mask value, row switch and row sum; the masks are then 0/1 numbers
  cases b <;> cases hn : config.negativeOnly <;>
    by_cases hsum : maskedRowSum advantages responseMask i < 0 <;>
    cases hsel : tokenSelected rlsdTokenMask i t <;>
    simp [negativeOnlyReweight, whereElse, get?_asMask, hcredit, hneg, hp, hq, ha, hb, hn, hw,
      hsum, hsel, Scalar.exp, Scalar.log, tokenFactor, rowActive, creditFactor]

end compute

end ExtpiRlsd
