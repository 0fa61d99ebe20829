import ExtpiRlsd.RlsdLocality

/-! # Evidence moves credit one way

Raising the teacher's log-probability of one valid token, or lowering the student's, never lowers
the advantage of that token and leaves all others as they are (`evidence_monotone`).

For a positive advantage the weight grows with the evidence; for a negative one it shrinks, and
the product with the advantage grows again (`mul_creditFactor_mono`).  Which rows `negativeOnly`
leaves active does not depend on the evidence, so the other entries are covered by locality. -/

namespace ExtpiRlsd

open Tensors

variable {config : RLSDConfig ℝ}

/-! ### The factor -/

theorem weight_mono (hv : config.validate = .ok ()) {x y : ℝ} (h : x ≤ y) :
    (1 - config.lam) +
        config.lam * clamp (1 - config.clipRange) (1 + config.clipRange) (Real.exp x) ≤
      (1 - config.lam) +
        config.lam * clamp (1 - config.clipRange) (1 + config.clipRange) (Real.exp y) := by
  have hlam := (RLSDConfig.validate_eq_ok_iff.mp hv).1.1
  have hexp : Real.exp x ≤ Real.exp y := Real.exp_le_exp.mpr h
  have hclamp := clamp_mono (1 - config.clipRange) (1 + config.clipRange) hexp
  have hscaled := mul_le_mul_of_nonneg_left hclamp hlam
  linarith

/-- Weighted by its factor, an advantage of either sign grows with the evidence. -/
theorem mul_creditFactor_mono (hv : config.validate = .ok ()) (a : ℝ) {d d' : ℝ} (h : d ≤ d') :
    a * creditFactor config a d ≤ a * creditFactor config a d' := by
  unfold creditFactor
  rcases lt_trichotomy a 0 with ha | rfl | ha
  · have hsign : sign a = -1 := by
      unfold sign
      rw [if_neg (not_lt.mpr ha.le), if_pos ha]
    rw [hsign]
    apply mul_le_mul_of_nonpos_left _ ha.le
    apply weight_mono hv
    linarith
  · rw [zero_mul, zero_mul]
  · have hsign : sign a = 1 := by
      unfold sign
      rw [if_pos ha]
    rw [hsign]
    apply mul_le_mul_of_nonneg_left _ ha.le
    apply weight_mono hv
    linarith

theorem mul_tokenFactor_mono (hv : config.validate = .ok ()) (active selected : Bool) (a : ℝ)
    {d d' : ℝ} (h : d ≤ d') :
    a * tokenFactor config active selected a d ≤ a * tokenFactor config active selected a d' := by
  unfold tokenFactor
  cases active && selected with
  | true => exact mul_creditFactor_mono hv a h
  | false => exact le_refl _

/-! ### Two batches -/

/-- The evidence of `y` is at least that of `x` at entry `(i, t)`, and the same elsewhere. -/
structure EvidenceRaised (teacher student teacher' student' : Tensor ℝ) (i t : ℕ) : Prop where
  raised : ∀ p q p' q', teacher.get? i t = some p → student.get? i t = some q →
    teacher'.get? i t = some p' → student'.get? i t = some q' → p ≤ p' ∧ q' ≤ q
  teacher_eq : ∀ j u, ¬ (j = i ∧ u = t) → teacher'.get? j u = teacher.get? j u
  student_eq : ∀ j u, ¬ (j = i ∧ u = t) → student'.get? j u = student.get? j u

namespace RlsdBatch

/-- The batches differ in the evidence of the valid token `(i, t)` only, which `b'` raises. -/
structure RaisedAt (b b' : RlsdBatch) (i t : ℕ) : Prop where
  valid : b.responseMask.get? i t = some true
  responseMask : b'.responseMask = b.responseMask
  advantages : b'.advantages = b.advantages
  tokenMask : b'.tokenMask = b.tokenMask
  evidence : EvidenceRaised b.teacher b.student b'.teacher b'.student i t

variable {b b' : RlsdBatch} {i t : ℕ}

theorem RaisedAt.entry_le (hv : config.validate = .ok ()) (h : b.RaisedAt b' i t) :
    ∃ y y', (b.terms config).reweightedAdvantages.get? i t = some y ∧
      (b'.terms config).reweightedAdvantages.get? i t = some y' ∧ y ≤ y' := by
  have hvalid := h.valid
  have hvalid' : b'.responseMask.get? i t = some true := by rw [h.responseMask]; exact hvalid
  obtain ⟨p, hp⟩ := Tensor.exists_get?_of_shape b.shapes.teacher.symm hvalid
  obtain ⟨q, hq⟩ := Tensor.exists_get?_of_shape b.shapes.student.symm hvalid
  obtain ⟨a, ha⟩ := Tensor.exists_get?_of_shape b.shapes.advantages.symm hvalid
  obtain ⟨p', hp'⟩ := Tensor.exists_get?_of_shape b'.shapes.teacher.symm hvalid'
  obtain ⟨q', hq'⟩ := Tensor.exists_get?_of_shape b'.shapes.student.symm hvalid'
  have ha' : b'.advantages.get? i t = some a := by rw [h.advantages]; exact ha
  obtain ⟨hteacher, hstudent⟩ := h.evidence.raised p q p' q' hp hq hp' hq'
  refine ⟨_, _, get?_reweightedAdvantages hv b.shapes hp hq ha hvalid,
    get?_reweightedAdvantages hv b'.shapes hp' hq' ha' hvalid', ?_⟩
  rw [h.responseMask, h.advantages, h.tokenMask, if_pos rfl, if_pos rfl]
  apply mul_tokenFactor_mono hv
  linarith

theorem RaisedAt.entry_eq (hv : config.validate = .ok ()) (h : b.RaisedAt b' i t) {j u : ℕ}
    (hne : ¬ (j = i ∧ u = t)) :
    (b'.terms config).reweightedAdvantages.get? j u =
      (b.terms config).reweightedAdvantages.get? j u := by
  apply entry_congr hv
  · refine ⟨?_, h.evidence.teacher_eq j u hne, h.evidence.student_eq j u hne, ?_, ?_⟩
    · rw [h.responseMask]
    · rw [h.advantages]
    · rw [h.tokenMask]
  · intro _
    rw [h.responseMask, h.advantages]

end RlsdBatch

namespace OpdBatch

/-- The batches differ in the evidence of the valid token `(i, t)` only, which `b'` raises. -/
structure RaisedAt (b b' : OpdBatch) (i t : ℕ) : Prop where
  valid : b.responseMask.get? i t = some true
  responseMask : b'.responseMask = b.responseMask
  evidence : EvidenceRaised b.teacher b.studentOld b'.teacher b'.studentOld i t

variable {b b' : OpdBatch} {i t : ℕ} {clip : ℝ}

/-- The advantage of a valid token is its clamped log ratio. -/
theorem get?_tokenAdvantages {p q : ℝ} (hvalid : b.responseMask.get? i t = some true)
    (hp : b.teacher.get? i t = some p) (hq : b.studentOld.get? i t = some q) :
    (b.tokenAdvantages clip).get? i t = some (clamp (-clip) clip (p - q)) := by
  simp [tokenAdvantages, rawLogratio, get?_asMask, hvalid, hp, hq]

theorem RaisedAt.entry_le (h : b.RaisedAt b' i t) :
    ∃ y y', (b.tokenAdvantages clip).get? i t = some y ∧
      (b'.tokenAdvantages clip).get? i t = some y' ∧ y ≤ y' := by
  have hvalid := h.valid
  have hvalid' : b'.responseMask.get? i t = some true := by rw [h.responseMask]; exact hvalid
  obtain ⟨p, hp⟩ := Tensor.exists_get?_of_shape b.teacher_shape.symm hvalid
  obtain ⟨q, hq⟩ := Tensor.exists_get?_of_shape b.studentOld_shape.symm hvalid
  obtain ⟨p', hp'⟩ := Tensor.exists_get?_of_shape b'.teacher_shape.symm hvalid'
  obtain ⟨q', hq'⟩ := Tensor.exists_get?_of_shape b'.studentOld_shape.symm hvalid'
  obtain ⟨hteacher, hstudent⟩ := h.evidence.raised p q p' q' hp hq hp' hq'
  refine ⟨_, _, get?_tokenAdvantages hvalid hp hq, get?_tokenAdvantages hvalid' hp' hq', ?_⟩
  apply clamp_mono
  linarith

theorem RaisedAt.entry_eq (h : b.RaisedAt b' i t) {j u : ℕ} (hne : ¬ (j = i ∧ u = t)) :
    (b'.tokenAdvantages clip).get? j u = (b.tokenAdvantages clip).get? j u := by
  apply entry_congr
  refine ⟨?_, h.evidence.teacher_eq j u hne, h.evidence.student_eq j u hne⟩
  rw [h.responseMask]

end OpdBatch

/-- The advantage at `(i, t)` does not fall from `out` to `out'`, and all others stay. -/
structure RisesOnlyAt (out out' : Tensor ℝ) (i t : ℕ) : Prop where
  entry_le : ∃ y y', out.get? i t = some y ∧ out'.get? i t = some y' ∧ y ≤ y'
  entry_eq : ∀ j u, ¬ (j = i ∧ u = t) → out'.get? j u = out.get? j u

/-- **Evidence moves credit one way**: with the evidence of one valid token raised, both functions
return an advantage at least as large there, and the same advantages elsewhere. -/
theorem evidence_monotone (hv : config.validate = .ok ()) {clip : ℝ} (hc : 0 < clip) :
    (∀ (b b' : RlsdBatch) (i t : ℕ), b.RaisedAt b' i t → ∃ out out' metrics metrics',
      b.run config = .ok (out, metrics) ∧ b'.run config = .ok (out', metrics') ∧
      RisesOnlyAt out out' i t) ∧
    (∀ (b b' : OpdBatch) (i t : ℕ), b.RaisedAt b' i t → ∃ out out' metrics metrics',
      b.run clip = .ok (out, metrics) ∧ b'.run clip = .ok (out', metrics') ∧
      RisesOnlyAt out out' i t) := by
  constructor
  · intro b b' i t h
    refine ⟨_, _, _, _, b.run_eq_ok hv, b'.run_eq_ok hv, h.entry_le hv, fun j u hne => ?_⟩
    exact h.entry_eq hv hne
  · intro b b' i t h
    obtain ⟨metrics, hrun⟩ := b.run_fst hc
    obtain ⟨metrics', hrun'⟩ := b'.run_fst hc
    refine ⟨_, _, metrics, metrics', hrun, hrun', h.entry_le, fun j u hne => ?_⟩
    exact h.entry_eq hne

theorem rect_oneEntry {α : Type*} (x : α) : ∀ r ∈ [[x]], r.length = 1 := by
  intro r hr
  rw [List.mem_singleton.mp hr]
  rfl

/-- A token with a negative advantage and no evidence, and the same token with evidence. -/
noncomputable def negativeToken (p : ℝ) : RlsdBatch where
  teacher := ⟨1, [[p]], rect_oneEntry _⟩
  student := ⟨1, [[0]], rect_oneEntry _⟩
  advantages := ⟨1, [[-1]], rect_oneEntry _⟩
  responseMask := ⟨1, [[true]], rect_oneEntry _⟩
  tokenMask := none
  shapes := ⟨rfl, rfl, rfl, fun m h => by cases h⟩

theorem raisedAt_negativeToken : (negativeToken 0).RaisedAt (negativeToken 1) 0 0 := by
  refine ⟨rfl, rfl, rfl, rfl, ⟨?_, ?_, fun j u _ => rfl⟩⟩
  · intro p q p' q' hp hq hp' hq'
    obtain rfl := Option.some.inj hp
    obtain rfl := Option.some.inj hq
    obtain rfl := Option.some.inj hp'
    obtain rfl := Option.some.inj hq'
    exact ⟨zero_le_one, le_refl 0⟩
  · intro j u hne
    rcases j with _ | j
    · rcases u with _ | u
      · exact absurd ⟨rfl, rfl⟩ hne
      · rfl
    · rfl

theorem evidence_monotone_negativeToken : ∃ out out' metrics metrics',
    (negativeToken 0).run RLSDConfig.default = .ok (out, metrics) ∧
      (negativeToken 1).run RLSDConfig.default = .ok (out', metrics') ∧
      RisesOnlyAt out out' 0 0 :=
  (evidence_monotone RLSDConfig.validate_default one_pos).1 _ _ 0 0 raisedAt_negativeToken

end ExtpiRlsd
