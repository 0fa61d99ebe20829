import ExtpiRlsd.Lib.NanReal
import ExtpiRlsd.Rlsd

/-! # Garbage in the padding

The advantage functions on tensors that are finite at the valid positions and hold anything at the
masked ones.  Neither raises, and the metrics, which select by the mask, lose the garbage.  The
returned tensors are products with the mask, and a product with zero keeps a value that is not
finite (`get?_reweighted`, `get?_opd`): `nonFinite_padding_iff` says which garbage comes out. -/

namespace ExtpiRlsd

open Tensors NanReal

/-- Every value of `x` where the mask holds `value` is finite. -/
def FiniteWhere (value : Bool) (m : Tensor Bool) (x : Tensor NanReal) : Prop :=
  ∀ i t v, m.get? i t = some value → x.get? i t = some v → v.isFinite = true

/-- The tensor with zeros at the masked positions. -/
def zeroPadded (m : Tensor Bool) (x : Tensor NanReal) : Tensor NanReal := whereElse 0 m x

/-- The run returns a tensor that is finite, zero off the mask, and on it what the other run
returns. -/
def HarmlessPadding {ε M : Type} (m : Tensor Bool) (run zeroed : Except ε (Tensor NanReal × M)) :
    Prop :=
  ∃ out metrics out₀ metrics₀, run = .ok (out, metrics) ∧ zeroed = .ok (out₀, metrics₀) ∧
    out.shape = m.shape ∧ ∀ i t b v, m.get? i t = some b → out.get? i t = some v →
      v.isFinite = true ∧ (b = false → v = 0) ∧ (b = true → out₀.get? i t = some v)

section masked
variable {m : Tensor Bool} {x : Tensor NanReal}

@[simp] theorem shape_zeroPadded (hx : x.shape = m.shape) : (zeroPadded m x).shape = m.shape := by
  simp [zeroPadded, whereElse, hx]

theorem get?_zeroPadded {i t : ℕ} {b : Bool} (hb : m.get? i t = some b) :
    (zeroPadded m x).get? i t = (x.get? i t).map fun v => if b then v else 0 := by
  rw [zeroPadded, whereElse, Tensor.get?_map₂, hb]
  cases x.get? i t <;> rfl

theorem get?_zeroPadded_valid {i t : ℕ} {v : NanReal} (hm : m.get? i t = some true)
    (hx : x.get? i t = some v) : (zeroPadded m x).get? i t = some v := by
  rw [get?_zeroPadded hm, hx]
  rfl

theorem finiteWhere_zeroPadded (h : FiniteWhere true m x) (value : Bool) :
    FiniteWhere value m (zeroPadded m x) := by
  intro i t v hm hv
  rw [get?_zeroPadded hm] at hv
  obtain ⟨w, hw, rfl⟩ := Option.map_eq_some_iff.mp hv
  cases value with
  | false => rfl
  | true => exact h i t w hm hw

/-- A tensor that is finite on the mask passes the finiteness test. -/
theorem count_nonFinite_eq_zero (h : FiniteWhere true m x) :
    (Tensor.map₂ (fun b v => b && !Scalar.isFinite v) m x).count = 0 := by
  rw [Tensor.count_eq_zero_iff]
  intro i t htrue
  rw [Tensor.get?_map₂] at htrue
  cases hm : m.get? i t with
  | none =>
      rw [hm] at htrue
      cases htrue
  | some b => cases hx : x.get? i t with
    | none =>
        rw [hm, hx] at htrue
        cases htrue
    | some v =>
        rw [hm, hx, Option.map₂_some_some, Option.some.injEq, Bool.and_eq_true] at htrue
        have hfinite := h i t v (by rw [hm, htrue.1]) hx
        rw [scalar_isFinite, hfinite] at htrue
        exact absurd htrue.2 Bool.false_ne_true

theorem checkFinite_eq_ok {named : List (String × Tensor NanReal)}
    (h : ∀ p ∈ named, FiniteWhere true m p.2) : checkFinite m named = .ok () := by
  induction named with
  | nil => rfl
  | cons p named ih =>
      obtain ⟨name, x⟩ := p
      rw [checkFinite, count_nonFinite_eq_zero (h _ List.mem_cons_self),
        if_neg (not_not_intro rfl)]
      exact ih fun q hq => h q (List.mem_cons_of_mem _ hq)

theorem get?_asMask_nan {i t : ℕ} {b : Bool} (hb : m.get? i t = some b) :
    (asMask m : Tensor NanReal).get? i t = some (if b then 1 else 0) := by
  rw [asMask, Tensor.get?_map, hb, Option.map_some]

end masked

/-! ### The privileged teacher -/

/-- The inputs of `computeRlsdAdvantages` of one batch, of one shape. -/
structure NanBatch where
  teacher : Tensor NanReal
  student : Tensor NanReal
  advantages : Tensor NanReal
  responseMask : Tensor Bool
  tokenMask : Option (Tensor NanReal)
  teacher_shape : teacher.shape = responseMask.shape
  student_shape : student.shape = responseMask.shape
  advantages_shape : advantages.shape = responseMask.shape
  tokenMask_shape : ∀ k, tokenMask = some k → k.shape = responseMask.shape

namespace NanBatch

noncomputable def terms (config : RLSDConfig NanReal) (b : NanBatch) : RlsdTerms NanReal :=
  rlsdTerms b.teacher b.student b.advantages b.responseMask b.tokenMask config

noncomputable def run (config : RLSDConfig NanReal) (b : NanBatch) :
    Except (RlsdError NanReal) (Tensor NanReal × RlsdMetrics NanReal) :=
  computeRlsdAdvantages b.teacher b.student b.advantages b.responseMask b.tokenMask config

/-- The batch with zeros in the padding. -/
def zeroed (b : NanBatch) : NanBatch where
  teacher := zeroPadded b.responseMask b.teacher
  student := zeroPadded b.responseMask b.student
  advantages := zeroPadded b.responseMask b.advantages
  responseMask := b.responseMask
  tokenMask := b.tokenMask.map (zeroPadded b.responseMask)
  teacher_shape := shape_zeroPadded b.teacher_shape
  student_shape := shape_zeroPadded b.student_shape
  advantages_shape := shape_zeroPadded b.advantages_shape
  tokenMask_shape := by
    intro k hk
    obtain ⟨k, hk', rfl⟩ := Option.map_eq_some_iff.mp hk
    exact shape_zeroPadded (b.tokenMask_shape k hk')

/-- All values at the valid positions are finite. -/
structure FiniteOnValid (b : NanBatch) : Prop where
  teacher : FiniteWhere true b.responseMask b.teacher
  student : FiniteWhere true b.responseMask b.student
  advantages : FiniteWhere true b.responseMask b.advantages

/-- The advantage of a masked position is finite, and so are its two log probs should its entry
of the token mask not be. -/
structure FinitePadding (b : NanBatch) : Prop where
  advantages : FiniteWhere false b.responseMask b.advantages
  selected : ∀ i t k c p q, b.responseMask.get? i t = some false → b.tokenMask = some k →
    k.get? i t = some c → c.isFinite = false → b.teacher.get? i t = some p →
    b.student.get? i t = some q → p.isFinite = true ∧ q.isFinite = true

variable {config : RLSDConfig NanReal} {b : NanBatch}

theorem FiniteOnValid.zeroed (h : b.FiniteOnValid) : b.zeroed.FiniteOnValid :=
  ⟨finiteWhere_zeroPadded h.teacher true, finiteWhere_zeroPadded h.student true,
    finiteWhere_zeroPadded h.advantages true⟩

/-! #### One entry -/

/-- `rlsd_reweight` at an entry. -/
noncomputable def weightEntry (config : RLSDConfig NanReal) (p q a : NanReal) : NanReal :=
  (1 - config.lam) + config.lam * Scalar.exp
    (clamp (Scalar.log (1 - config.clipRange)) (Scalar.log (1 + config.clipRange))
      (sign a * (p - q)))

/-- `credit_mask` at an entry. -/
noncomputable def creditEntry (valid : Bool) : Option NanReal → NanReal
  | none => if valid then 1 else 0
  | some c => c * if valid then 1 else 0

/-- `reweight` at an entry, in a row of mark `n`. -/
noncomputable def reweightEntry (config : RLSDConfig NanReal) (n : NanReal) (valid : Bool)
    (c : Option NanReal) (p q a : NanReal) : NanReal :=
  let m := if valid then 1 else 0
  let r := (if creditEntry valid c ≠ 0 then weightEntry config p q a else 1) * m
  if config.negativeOnly then n * r + (1 - n) * m else r

/-- The entry of the token mask. -/
def tokenEntry (b : NanBatch) (i t : ℕ) : Option NanReal := b.tokenMask.bind (·.get? i t)

theorem get?_creditMask_nan {i t : ℕ} {valid : Bool} (hb : b.responseMask.get? i t = some valid) :
    (creditMask (asMask b.responseMask) b.tokenMask).get? i t =
      some (creditEntry valid (b.tokenEntry i t)) := by
  unfold tokenEntry creditMask
  cases hk : b.tokenMask with
  | none => exact get?_asMask_nan hb
  | some k =>
      obtain ⟨c, hc⟩ := Tensor.exists_get?_of_shape (b.tokenMask_shape k hk).symm hb
      rw [Option.bind_some]
      dsimp only
      rw [Tensor.get?_map₂, hc, get?_asMask_nan hb]
      rfl

/-- The mark of a row is a number. -/
theorem exists_negativeSeq {x mask : Tensor NanReal} (h : x.shape = mask.shape) {i t : ℕ}
    {a : NanReal} (ha : x.get? i t = some a) :
    ∃ n : NanReal, (negativeSeq x mask)[i]? = some n ∧ n.isFinite = true := by
  have hi : i < (Tensor.map₂ (· * ·) x mask).rowSums.length := by
    rw [Tensor.length_rowSums, Tensor.shape_map₂, ← h, inf_idem]
    exact ((Tensor.get?_isSome_iff x i t).mp (by rw [ha]; rfl)).1
  refine ⟨_, by rw [negativeSeq, List.getElem?_map, List.getElem?_eq_getElem hi]; rfl, ?_⟩
  dsimp only
  split_ifs <;> rfl

/-- The returned tensor, entry by entry. -/
theorem get?_reweighted {i t : ℕ} {valid : Bool} {p q a n : NanReal}
    (hb : b.responseMask.get? i t = some valid) (hp : b.teacher.get? i t = some p)
    (hq : b.student.get? i t = some q) (ha : b.advantages.get? i t = some a)
    (hn : (negativeSeq b.advantages (asMask b.responseMask))[i]? = some n) :
    (b.terms config).reweightedAdvantages.get? i t =
      some (a * reweightEntry config n valid (b.tokenEntry i t) p q a * if valid then 1 else 0) := by
  have hm : (asMask b.responseMask : Tensor NanReal).get? i t = _ := get?_asMask_nan hb
  have hc : (asBool (creditMask (asMask b.responseMask) b.tokenMask)).get? i t =
      some (decide (creditEntry valid (b.tokenEntry i t) ≠ 0)) := by
    rw [asBool, Tensor.get?_map, get?_creditMask_nan hb]
    rfl
  unfold terms rlsdTerms reweightEntry
  cases hneg : config.negativeOnly with
  | false =>
      simp only [Bool.false_eq_true, if_false, Tensor.get?_map₂, Tensor.get?_map, whereElse, hc, hm,
        hp, hq, ha, Option.map_some, Option.map₂_some_some, decide_eq_true_eq]
      rfl
  | true =>
      simp only [if_true, negativeOnlyReweight, Tensor.get?_map₂, Tensor.get?_map,
        Tensor.get?_mapCol, whereElse, hc, hm, hp, hq, ha, hn, Option.map_some,
        Option.map₂_some_some, decide_eq_true_eq]
      rfl

theorem isFinite_lam (hv : config.validate = .ok ()) : config.lam.isFinite = true := by
  unfold RLSDConfig.validate at hv
  by_cases hlam : 0 ≤ config.lam ∧ config.lam ≤ 1
  · exact (isFinite_of_le hlam.1).2
  · rw [if_pos hlam] at hv
    cases hv

theorem isFinite_weightEntry (hv : config.validate = .ok ()) (p q a : NanReal) :
    (weightEntry config p q a).isFinite = (p.isFinite && q.isFinite) := by
  simp [weightEntry, isFinite_lam hv]

/-- The factor of an entry is finite unless it is the weight of log probs that are not. -/
theorem isFinite_reweightEntry (hv : config.validate = .ok ()) {n : NanReal}
    (hn : n.isFinite = true) (valid : Bool) (c : Option NanReal) (p q a : NanReal) :
    (reweightEntry config n valid c p q a).isFinite = true ↔
      (creditEntry valid c ≠ 0 → p.isFinite = true ∧ q.isFinite = true) := by
  have hm : (if valid then 1 else 0 : NanReal).isFinite = true := by cases valid <;> rfl
  unfold reweightEntry
  generalize (if valid then 1 else 0 : NanReal) = m at hm ⊢
  by_cases hc : creditEntry valid c ≠ 0
  · cases config.negativeOnly <;> simp [hc, hn, hm, isFinite_weightEntry hv]
  · cases config.negativeOnly <;> simp [hc, hn, hm]

/-- At a masked position credit is given under a token mask entry that is not finite. -/
theorem creditEntry_masked (c : Option NanReal) :
    creditEntry false c ≠ 0 ↔ ∃ x, c = some x ∧ x.isFinite = false := by
  cases c with
  | none => simp [creditEntry]
  | some x =>
      simp only [creditEntry, Bool.false_eq_true, if_false, mul_zero_eq, Option.some.injEq,
        exists_eq_left']
      cases x with
      | fin r => simp [NanReal.isFinite]
      | nan =>
          simp only [NanReal.isFinite, Bool.false_eq_true, if_false, iff_true]
          rintro ⟨⟩

/-! #### The whole batch -/

theorem shape_reweighted (config : RLSDConfig NanReal) (b : NanBatch) :
    (b.terms config).reweightedAdvantages.shape = b.responseMask.shape := by
  have hmask : (asMask b.responseMask : Tensor NanReal).shape = b.responseMask.shape := by
    simp [asMask]
  have hcredit : (asBool (creditMask (asMask b.responseMask) b.tokenMask : Tensor NanReal)).shape =
      b.responseMask.shape := by
    cases hk : b.tokenMask with
    | none => simp [asBool, creditMask, hmask]
    | some k => simp [asBool, creditMask, hmask, b.tokenMask_shape k hk]
  have hneg : (negativeSeq b.advantages (asMask b.responseMask)).length =
      b.responseMask.shape.1 := by
    simp [negativeSeq, b.advantages_shape, hmask]
  cases hn : config.negativeOnly <;>
    simp [terms, rlsdTerms, hn, negativeOnlyReweight, whereElse, hcredit, hmask, hneg,
      b.teacher_shape, b.student_shape, b.advantages_shape]

/-- Values that are finite at the valid positions do not raise. -/
theorem run_eq_ok (hv : config.validate = .ok ()) (hb : b.FiniteOnValid) :
    b.run config =
      .ok ((b.terms config).reweightedAdvantages,
        rlsdMetrics b.advantages config (b.terms config)) := by
  have htm : (b.tokenMask.any fun m => decide (m.shape ≠ b.responseMask.shape)) = false := by
    cases h : b.tokenMask with
    | none => rfl
    | some m => simp [b.tokenMask_shape m h]
  have hsh : b.teacher.shape = b.student.shape ∧ b.student.shape = b.advantages.shape ∧
      b.advantages.shape = b.responseMask.shape :=
    ⟨b.teacher_shape.trans b.student_shape.symm, b.student_shape.trans b.advantages_shape.symm,
      b.advantages_shape⟩
  have hsigned : FiniteWhere true b.responseMask (b.terms config).signedDelta := by
    intro i t v hm hx
    obtain ⟨p, hp⟩ := Tensor.exists_get?_of_shape b.teacher_shape.symm hm
    obtain ⟨q, hq⟩ := Tensor.exists_get?_of_shape b.student_shape.symm hm
    obtain ⟨a, ha⟩ := Tensor.exists_get?_of_shape b.advantages_shape.symm hm
    have hentry : (b.terms config).signedDelta.get? i t = some (sign a * (p - q)) := by
      simp [terms, rlsdTerms, hp, hq, ha]
    rw [← Option.some.inj (hentry.symm.trans hx)]
    simp [hb.teacher i t p hm hp, hb.student i t q hm hq]
  have hcheck : checkFinite b.responseMask [("teacher_log_probs", b.teacher),
      ("student_log_probs", b.student), ("advantages", b.advantages),
      ("signed_delta", (b.terms config).signedDelta)] = .ok () := by
    apply checkFinite_eq_ok
    simp only [List.forall_mem_cons, List.not_mem_nil, false_implies, implies_true, and_true]
    exact ⟨hb.teacher, hb.student, hb.advantages, hsigned⟩
  unfold run computeRlsdAdvantages
  unfold terms at hcheck ⊢
  simp only [hv, hsh, htm, hcheck]
  cases b.responseMask.any <;> rfl

/-- The marks of the rows are those of the batch with zeros in the padding. -/
theorem negativeSeq_zeroed (h : FiniteWhere false b.responseMask b.advantages) :
    negativeSeq b.zeroed.advantages (asMask b.responseMask) =
      negativeSeq b.advantages (asMask b.responseMask) := by
  have hshape : (asMask b.responseMask : Tensor NanReal).shape = b.responseMask.shape := by
    simp [asMask]
  have hproduct : Tensor.map₂ (· * ·) b.zeroed.advantages (asMask b.responseMask) =
      Tensor.map₂ (· * ·) b.advantages (asMask b.responseMask) := by
    refine Tensor.ext_of_shape b.responseMask (by
      simp [zeroed, shape_zeroPadded b.advantages_shape, hshape])
      (by simp [b.advantages_shape, hshape]) fun i t valid hm => ?_
    obtain ⟨a, ha⟩ := Tensor.exists_get?_of_shape b.advantages_shape.symm hm
    rw [Tensor.get?_map₂, Tensor.get?_map₂, zeroed, get?_zeroPadded hm, ha, get?_asMask_nan hm]
    cases valid with
    | true => rfl
    | false =>
        show some ((0 : NanReal) * 0) = some (a * 0)
        rw [mul_zero_of_isFinite (h i t a hm ha), mul_zero_of_isFinite isFinite_zero]
  unfold negativeSeq
  rw [hproduct]

theorem tokenEntry_zeroed {i t : ℕ} (hm : b.responseMask.get? i t = some true) :
    b.zeroed.tokenEntry i t = b.tokenEntry i t := by
  show (b.tokenMask.map (zeroPadded b.responseMask)).bind (·.get? i t) =
    b.tokenMask.bind (·.get? i t)
  cases b.tokenMask with
  | none => rfl
  | some k =>
      rw [Option.map_some, Option.bind_some, Option.bind_some, get?_zeroPadded hm]
      cases k.get? i t <;> rfl

/-- What the entry of the result at a position is computed from. -/
theorem exists_entries {i t : ℕ} {valid : Bool} (hm : b.responseMask.get? i t = some valid) :
    ∃ p q a n, b.teacher.get? i t = some p ∧ b.student.get? i t = some q ∧
      b.advantages.get? i t = some a ∧ n.isFinite = true ∧
      (negativeSeq b.advantages (asMask b.responseMask))[i]? = some n := by
  obtain ⟨p, hp⟩ := Tensor.exists_get?_of_shape b.teacher_shape.symm hm
  obtain ⟨q, hq⟩ := Tensor.exists_get?_of_shape b.student_shape.symm hm
  obtain ⟨a, ha⟩ := Tensor.exists_get?_of_shape b.advantages_shape.symm hm
  have hshape : b.advantages.shape = (asMask b.responseMask : Tensor NanReal).shape :=
    b.advantages_shape.trans (by simp [asMask])
  obtain ⟨n, hn, hfin⟩ := exists_negativeSeq hshape ha
  exact ⟨p, q, a, n, hp, hq, ha, hfin, hn⟩

/-- A finite result has finite factors at the masked positions. -/
theorem finitePadding_of_harmless (hv : config.validate = .ok ()) (hb : b.FiniteOnValid)
    (h : HarmlessPadding b.responseMask (b.run config) (b.zeroed.run config)) :
    b.FinitePadding := by
  obtain ⟨out, metrics, out₀, metrics₀, hrun, -, -, hout⟩ := h
  rw [run_eq_ok hv hb] at hrun
  obtain ⟨rfl, -⟩ := Prod.mk.inj (Except.ok.inj hrun)
  have hfactors : ∀ i t p q a, b.responseMask.get? i t = some false →
      b.teacher.get? i t = some p → b.student.get? i t = some q →
      b.advantages.get? i t = some a → a.isFinite = true ∧
        (creditEntry false (b.tokenEntry i t) ≠ 0 → p.isFinite = true ∧ q.isFinite = true) := by
    intro i t p q a hm hp hq ha
    obtain ⟨-, -, -, n, -, -, -, hfin, hn⟩ := exists_entries hm
    obtain ⟨h, -, -⟩ := hout i t false _ hm (get?_reweighted hm hp hq ha hn)
    rw [isFinite_mul, isFinite_mul, Bool.and_eq_true, Bool.and_eq_true,
      isFinite_reweightEntry hv hfin] at h
    exact h.1
  constructor
  · intro i t a hm ha
    obtain ⟨p, q, -, -, hp, hq, -⟩ := exists_entries hm
    exact (hfactors i t p q a hm hp hq ha).1
  · intro i t k c p q hm hk hc hnan hp hq
    obtain ⟨-, -, a, -, -, -, ha, -⟩ := exists_entries hm
    refine (hfactors i t p q a hm hp hq ha).2 ((creditEntry_masked _).mpr ⟨c, ?_, hnan⟩)
    rw [tokenEntry, hk, Option.bind_some, hc]

/-- Finite factors at a masked position make a zero. -/
theorem masked_eq_zero (hv : config.validate = .ok ()) (hpad : b.FinitePadding) {i t : ℕ}
    {v : NanReal} (hm : b.responseMask.get? i t = some false)
    (hout : (b.terms config).reweightedAdvantages.get? i t = some v) : v = 0 := by
  obtain ⟨p, q, a, n, hp, hq, ha, hfin, hn⟩ := exists_entries hm
  have hfinite : (a * reweightEntry config n false (b.tokenEntry i t) p q a).isFinite = true := by
    rw [isFinite_mul, Bool.and_eq_true, isFinite_reweightEntry hv hfin, creditEntry_masked]
    refine ⟨hpad.advantages i t a hm ha, ?_⟩
    rintro ⟨c, hc, hnan⟩
    obtain ⟨k, hk, hc⟩ := Option.bind_eq_some_iff.mp hc
    exact hpad.selected i t k c p q hm hk hc hnan hp hq
  rw [get?_reweighted hm hp hq ha hn, Option.some.injEq, if_neg Bool.false_ne_true,
    mul_zero_of_isFinite hfinite] at hout
  exact hout.symm

/-- At a valid position the result is finite, and that of the batch with zeros in the padding. -/
theorem valid_eq_zeroed (hv : config.validate = .ok ()) (hb : b.FiniteOnValid)
    (hpad : b.FinitePadding) {i t : ℕ} {v : NanReal} (hm : b.responseMask.get? i t = some true)
    (hout : (b.terms config).reweightedAdvantages.get? i t = some v) :
    v.isFinite = true ∧ (b.zeroed.terms config).reweightedAdvantages.get? i t = some v := by
  obtain ⟨p, q, a, n, hp, hq, ha, hfin, hn⟩ := exists_entries hm
  rw [get?_reweighted hm hp hq ha hn, Option.some.injEq, if_pos rfl, NanReal.mul_one] at hout
  constructor
  · rw [← hout, isFinite_mul, Bool.and_eq_true, isFinite_reweightEntry hv hfin]
    exact ⟨hb.advantages i t a hm ha, fun _ => ⟨hb.teacher i t p hm hp, hb.student i t q hm hq⟩⟩
  · have hmark : (negativeSeq b.zeroed.advantages (asMask b.responseMask))[i]? = some n := by
      rw [negativeSeq_zeroed hpad.advantages, hn]
    have hzeroed : (b.zeroed.terms config).reweightedAdvantages.get? i t = _ :=
      get?_reweighted hm (get?_zeroPadded_valid hm hp) (get?_zeroPadded_valid hm hq)
        (get?_zeroPadded_valid hm ha) hmark
    rw [hzeroed, tokenEntry_zeroed hm, if_pos rfl, NanReal.mul_one, hout]

/-- The privileged teacher's advantages of a batch that is finite at its valid positions. -/
theorem harmless_iff (hv : config.validate = .ok ()) (hb : b.FiniteOnValid) :
    HarmlessPadding b.responseMask (b.run config) (b.zeroed.run config) ↔ b.FinitePadding := by
  refine ⟨finitePadding_of_harmless hv hb, fun hpad => ?_⟩
  refine ⟨_, _, _, _, run_eq_ok hv hb, run_eq_ok hv hb.zeroed, shape_reweighted config b, ?_⟩
  intro i t valid v hm hout
  cases valid with
  | false =>
      obtain rfl := masked_eq_zero hv hpad hm hout
      exact ⟨rfl, fun _ => rfl, fun h => absurd h Bool.false_ne_true⟩
  | true =>
      obtain ⟨hfinite, hzeroed⟩ := valid_eq_zeroed hv hb hpad hm hout
      exact ⟨hfinite, fun h => absurd h.symm Bool.false_ne_true, fun _ => hzeroed⟩

end NanBatch

/-! ### The direct teacher -/

/-- The inputs of `computeOpdPgAdvantages` of one batch, of one shape. -/
structure NanOpdBatch where
  teacher : Tensor NanReal
  studentOld : Tensor NanReal
  responseMask : Tensor Bool
  teacher_shape : teacher.shape = responseMask.shape
  studentOld_shape : studentOld.shape = responseMask.shape

namespace NanOpdBatch

noncomputable def run (clip : NanReal) (b : NanOpdBatch) :
    Except (RlsdError NanReal) (Tensor NanReal × OpdMetrics NanReal) :=
  computeOpdPgAdvantages b.teacher b.studentOld b.responseMask clip

/-- The returned advantages. -/
noncomputable def tokenAdvantages (clip : NanReal) (b : NanOpdBatch) : Tensor NanReal :=
  Tensor.map₂ (· * ·) ((rawLogratio b.teacher b.studentOld b.responseMask).map (clamp (-clip) clip))
    (asMask b.responseMask)

/-- The batch with zeros in the padding. -/
def zeroed (b : NanOpdBatch) : NanOpdBatch where
  teacher := zeroPadded b.responseMask b.teacher
  studentOld := zeroPadded b.responseMask b.studentOld
  responseMask := b.responseMask
  teacher_shape := shape_zeroPadded b.teacher_shape
  studentOld_shape := shape_zeroPadded b.studentOld_shape

/-- All values where the mask holds `value` are finite. -/
structure Finite (value : Bool) (b : NanOpdBatch) : Prop where
  teacher : FiniteWhere value b.responseMask b.teacher
  studentOld : FiniteWhere value b.responseMask b.studentOld

variable {clip : NanReal} {b : NanOpdBatch}

theorem run_eq_ok (hc : ¬ clip ≤ 0) (b : NanOpdBatch) :
    ∃ metrics, b.run clip = .ok (b.tokenAdvantages clip, metrics) := by
  unfold run computeOpdPgAdvantages
  simp only [b.teacher_shape, b.studentOld_shape, ne_eq, not_true_eq_false, or_self, if_false, hc]
  exact ⟨_, rfl⟩

/-- The returned tensor, entry by entry. -/
theorem get?_opd {i t : ℕ} {valid : Bool} {p q : NanReal}
    (hm : b.responseMask.get? i t = some valid) (hp : b.teacher.get? i t = some p)
    (hq : b.studentOld.get? i t = some q) :
    (b.tokenAdvantages clip).get? i t = some
      (clamp (-clip) clip ((p - q) * if valid then 1 else 0) * if valid then 1 else 0) := by
  simp only [tokenAdvantages, rawLogratio, Tensor.get?_map₂, Tensor.get?_map, get?_asMask_nan hm,
    hp, hq, Option.map_some, Option.map₂_some_some]

theorem exists_entries {i t : ℕ} {valid : Bool} (hm : b.responseMask.get? i t = some valid) :
    ∃ p q, b.teacher.get? i t = some p ∧ b.studentOld.get? i t = some q := by
  obtain ⟨p, hp⟩ := Tensor.exists_get?_of_shape b.teacher_shape.symm hm
  obtain ⟨q, hq⟩ := Tensor.exists_get?_of_shape b.studentOld_shape.symm hm
  exact ⟨p, q, hp, hq⟩

/-- A finite result has finite log probs at the masked positions. -/
theorem finite_of_harmless (hc : ¬ clip ≤ 0)
    (h : HarmlessPadding b.responseMask (b.run clip) (b.zeroed.run clip)) : b.Finite false := by
  obtain ⟨metrics, hrun⟩ := run_eq_ok hc b
  obtain ⟨out, metrics', out₀, metrics₀, hout, -, -, hall⟩ := h
  rw [hrun] at hout
  obtain ⟨rfl, -⟩ := Prod.mk.inj (Except.ok.inj hout)
  have hfactors : ∀ i t p q, b.responseMask.get? i t = some false →
      b.teacher.get? i t = some p → b.studentOld.get? i t = some q →
      p.isFinite = true ∧ q.isFinite = true := by
    intro i t p q hm hp hq
    obtain ⟨h, -, -⟩ := hall i t false _ hm (get?_opd hm hp hq)
    rw [isFinite_mul, isFinite_clamp, isFinite_mul, isFinite_sub, Bool.and_eq_true,
      Bool.and_eq_true, Bool.and_eq_true] at h
    exact h.1.1
  constructor
  · intro i t p hm hp
    obtain ⟨-, q, -, hq⟩ := exists_entries hm
    exact (hfactors i t p q hm hp hq).1
  · intro i t q hm hq
    obtain ⟨p, -, hp, -⟩ := exists_entries hm
    exact (hfactors i t p q hm hp hq).2

/-- The direct teacher's advantages of a batch that is finite at its valid positions. -/
theorem harmless_iff (hc : ¬ clip ≤ 0) (hb : b.Finite true) :
    HarmlessPadding b.responseMask (b.run clip) (b.zeroed.run clip) ↔ b.Finite false := by
  refine ⟨finite_of_harmless hc, fun hpad => ?_⟩
  obtain ⟨metrics, hrun⟩ := run_eq_ok hc b
  obtain ⟨metrics₀, hrun₀⟩ := run_eq_ok hc b.zeroed
  have hshape : (b.tokenAdvantages clip).shape = b.responseMask.shape := by
    simp [tokenAdvantages, rawLogratio, asMask, b.teacher_shape, b.studentOld_shape]
  refine ⟨_, metrics, _, metrics₀, hrun, hrun₀, hshape, ?_⟩
  intro i t valid v hm hout
  obtain ⟨p, q, hp, hq⟩ := exists_entries hm
  rw [get?_opd hm hp hq, Option.some.injEq] at hout
  have hfinite : (p - q).isFinite = true := by
    cases valid with
    | false => simp [hpad.teacher i t p hm hp, hpad.studentOld i t q hm hq]
    | true => simp [hb.teacher i t p hm hp, hb.studentOld i t q hm hq]
  cases valid with
  | false =>
      have hclamp : (clamp (-clip) clip ((p - q) * 0)).isFinite = true := by
        rw [isFinite_clamp, isFinite_mul, hfinite, isFinite_zero, Bool.and_self]
      rw [if_neg Bool.false_ne_true, mul_zero_of_isFinite hclamp] at hout
      rw [← hout]
      exact ⟨rfl, fun _ => rfl, fun h => absurd h Bool.false_ne_true⟩
  | true =>
      refine ⟨?_, fun h => absurd h.symm Bool.false_ne_true, fun _ => ?_⟩
      · rw [← hout, if_pos rfl, NanReal.mul_one, NanReal.mul_one, isFinite_clamp]
        exact hfinite
      · have hzeroed : (b.zeroed.tokenAdvantages clip).get? i t = _ :=
          get?_opd hm (get?_zeroPadded_valid hm hp) (get?_zeroPadded_valid hm hq)
        rw [hzeroed, hout]

end NanOpdBatch

/-- **What garbage in the padding does**: on a batch that is finite at its valid positions the
privileged teacher's advantages are clean exactly when the padding holds finite advantages, with
finite log probs under a token mask that is not finite, and the direct teacher's under a positive
clip exactly when it holds finite log probs. -/
theorem nonFinite_padding_iff (config : RLSDConfig NanReal) (b : NanBatch) (clip : NanReal)
    (d : NanOpdBatch) :
    (config.validate = .ok () → b.FiniteOnValid →
      (HarmlessPadding b.responseMask (b.run config) (b.zeroed.run config) ↔ b.FinitePadding)) ∧
    (0 < clip → d.Finite true →
      (HarmlessPadding d.responseMask (d.run clip) (d.zeroed.run clip) ↔ d.Finite false)) :=
  ⟨fun hv hb => NanBatch.harmless_iff hv hb, fun hc hd => NanOpdBatch.harmless_iff (NanReal.not_le_of_lt hc) hd⟩

/-- A row with a valid and a masked position. -/
def paddedRow (x y : NanReal) : Tensor NanReal := ⟨2, [[x, y]], by simp⟩

def leakMask : Tensor Bool := ⟨2, [[true, false]], by simp⟩

def paddedBatch (advantage : NanReal) : NanBatch where
  teacher := paddedRow (fin 1) (fin 0)
  student := paddedRow (fin 0) (fin 0)
  advantages := paddedRow (fin 1) advantage
  responseMask := leakMask
  tokenMask := none
  teacher_shape := rfl
  student_shape := rfl
  advantages_shape := rfl
  tokenMask_shape := fun k h => absurd h.symm (Option.some_ne_none k)

def paddedOpdBatch (teacher : NanReal) : NanOpdBatch where
  teacher := paddedRow (fin 1) teacher
  studentOld := paddedRow (fin 0) (fin 0)
  responseMask := leakMask
  teacher_shape := rfl
  studentOld_shape := rfl

/-- The defaults of the dataclass. -/
noncomputable def defaultConfig : RLSDConfig NanReal := ⟨fin (1 / 2), fin (1 / 5), false⟩

theorem validate_defaultConfig : defaultConfig.validate = .ok () := by
  have hlam : 0 ≤ defaultConfig.lam ∧ defaultConfig.lam ≤ 1 := by
    constructor
    · exact (fin_le 0 (1 / 2)).mpr (by norm_num)
    · exact (fin_le (1 / 2) 1).mpr (by norm_num)
  have hclip : 0 ≤ defaultConfig.clipRange ∧ defaultConfig.clipRange < 1 := by
    constructor
    · exact (fin_le 0 (1 / 5)).mpr (by norm_num)
    · exact (fin_lt (1 / 5) 1).mpr (by norm_num)
  unfold RLSDConfig.validate
  rw [if_neg (not_not_intro hlam), if_neg (not_not_intro hclip)]
  rfl

theorem zero_lt_five : 0 < fin 5 := by
  rw [zero_def, fin_lt]
  norm_num

theorem finiteWhere_paddedRow {x y : NanReal} {value : Bool}
    (h : (if value then x else y).isFinite = true) :
    FiniteWhere value leakMask (paddedRow x y) := by
  intro i t v hm hv
  rcases i with _ | i
  · rcases t with _ | _ | t
    · obtain rfl : true = value := Option.some.inj hm
      obtain rfl : x = v := Option.some.inj hv
      exact h
    · obtain rfl : false = value := Option.some.inj hm
      obtain rfl : y = v := Option.some.inj hv
      exact h
    · cases hm
  · cases hm

theorem finiteOnValid_paddedBatch (advantage : NanReal) :
    (paddedBatch advantage).FiniteOnValid :=
  ⟨finiteWhere_paddedRow rfl, finiteWhere_paddedRow rfl, finiteWhere_paddedRow rfl⟩

theorem finite_paddedOpdBatch (teacher : NanReal) : (paddedOpdBatch teacher).Finite true :=
  ⟨finiteWhere_paddedRow rfl, finiteWhere_paddedRow rfl⟩

/-- One value that is not finite in the padding, of the advantages or of the teacher, comes out. -/
theorem nonFinite_padding_leaks :
    ((paddedBatch nan).FiniteOnValid ∧ ¬ HarmlessPadding leakMask
      ((paddedBatch nan).run defaultConfig) ((paddedBatch nan).zeroed.run defaultConfig)) ∧
    (paddedOpdBatch nan).Finite true ∧ ¬ HarmlessPadding leakMask
      ((paddedOpdBatch nan).run (fin 5)) ((paddedOpdBatch nan).zeroed.run (fin 5)) := by
  refine ⟨⟨finiteOnValid_paddedBatch nan, fun h => ?_⟩, finite_paddedOpdBatch nan, fun h => ?_⟩
  · have hpad := NanBatch.finitePadding_of_harmless validate_defaultConfig
      (finiteOnValid_paddedBatch nan) h
    exact absurd (hpad.advantages 0 1 nan rfl rfl) Bool.false_ne_true
  · have hpad := NanOpdBatch.finite_of_harmless (NanReal.not_le_of_lt zero_lt_five) h
    exact absurd (hpad.teacher 0 1 nan rfl rfl) Bool.false_ne_true

/-- Zeros in the padding are harmless. -/
theorem nonFinite_padding_zeros :
    HarmlessPadding leakMask ((paddedBatch 0).run defaultConfig)
      ((paddedBatch 0).zeroed.run defaultConfig) ∧
    HarmlessPadding leakMask ((paddedOpdBatch 0).run (fin 5))
      ((paddedOpdBatch 0).zeroed.run (fin 5)) := by
  obtain ⟨hpi, hdirect⟩ :=
    nonFinite_padding_iff defaultConfig (paddedBatch 0) (fin 5) (paddedOpdBatch 0)
  constructor
  · refine (hpi validate_defaultConfig (finiteOnValid_paddedBatch 0)).mpr
      ⟨finiteWhere_paddedRow rfl, ?_⟩
    intro i t k c p q _ hk
    cases hk
  · exact (hdirect zero_lt_five (finite_paddedOpdBatch 0)).mpr
      ⟨finiteWhere_paddedRow rfl, finiteWhere_paddedRow rfl⟩

end ExtpiRlsd
