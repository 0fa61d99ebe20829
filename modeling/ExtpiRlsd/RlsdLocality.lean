import ExtpiRlsd.RlsdBounds

/-! # Locality of token credit

Two runs of an advantage function whose inputs agree on the response mask return the same
advantages and the same metrics (`computeRlsdAdvantages_padding`,
`computeOpdPgAdvantages_padding`): every tensor that reaches a reduction agrees on the mask of
that reduction, and the tensors that are multiplied by the mask agree everywhere.

The advantage at an entry is a function of the inputs at that entry and of whether its row is
active, so slicing a batch by rows slices its advantages (`rowSlice_reweightedAdvantages`), and
the micro-batches of any split by rows concatenate to the advantages of the whole batch. -/

namespace ExtpiRlsd

open Tensors Masks

variable {config : RLSDConfig ℝ} {teacher student advantages : Tensor ℝ}
  {responseMask : Tensor Bool} {rlsdTokenMask : Option (Tensor ℝ)}

/-! ### Agreement on a mask -/

/-- The two tensors have one shape and agree where the mask is true. -/
structure AgreeOn (m : Tensor Bool) (x y : Tensor ℝ) : Prop where
  left : x.shape = m.shape
  right : y.shape = m.shape
  entry : ∀ i t, m.get? i t = some true → x.get? i t = y.get? i t

namespace AgreeOn
variable {m m' : Tensor Bool} {x y u v : Tensor ℝ}

theorem map (h : AgreeOn m x y) (f : ℝ → ℝ) : AgreeOn m (x.map f) (y.map f) :=
  ⟨by simp [h.left], by simp [h.right], fun i t hm => by simp [h.entry i t hm]⟩

theorem map₂ (h : AgreeOn m x y) (h' : AgreeOn m u v) (f : ℝ → ℝ → ℝ) :
    AgreeOn m (Tensor.map₂ f x u) (Tensor.map₂ f y v) :=
  ⟨by simp [h.left, h'.left], by simp [h.right, h'.right],
    fun i t hm => by simp [h.entry i t hm, h'.entry i t hm]⟩

theorem mono (h : AgreeOn m x y) (hs : m'.shape = m.shape)
    (hsub : ∀ i t, m'.get? i t = some true → m.get? i t = some true) : AgreeOn m' x y :=
  ⟨h.left.trans hs.symm, h.right.trans hs.symm, fun i t hm => h.entry i t (hsub i t hm)⟩

/-- What agrees on the mask is equal once it is multiplied by the mask. -/
theorem mul_asMask (h : AgreeOn m x y) :
    Tensor.map₂ (· * ·) x (asMask m) = Tensor.map₂ (· * ·) y (asMask m) := by
  refine Tensor.ext_of_shape m (by simp [h.left]) (by simp [h.right]) fun i t b hb => ?_
  obtain ⟨p, hp⟩ := Tensor.exists_get?_of_shape h.left.symm hb
  obtain ⟨q, hq⟩ := Tensor.exists_get?_of_shape h.right.symm hb
  cases b with
  | false => simp [get?_asMask, hb, hp, hq]
  | true => simp [get?_asMask, h.entry i t hb]

theorem asMask_mul (h : AgreeOn m x y) :
    Tensor.map₂ (· * ·) (asMask m) x = Tensor.map₂ (· * ·) (asMask m) y := by
  have hcomm : ∀ z : Tensor ℝ, z.shape = m.shape →
      Tensor.map₂ (· * ·) (asMask m) z = Tensor.map₂ (· * ·) z (asMask m) := by
    intro z hz
    refine Tensor.ext_get? (by simp [hz]) fun i t => ?_
    simp only [Tensor.get?_map₂]
    cases (asMask m : Tensor ℝ).get? i t <;> cases z.get? i t <;> simp [mul_comm]
  rw [hcomm x h.left, hcomm y h.right, h.mul_asMask]

/-- A masked mean reads its argument on the mask only. -/
theorem maskedMean {mask : Tensor ℝ} (h : AgreeOn (asBool mask) x y) :
    ExtpiRlsd.maskedMean x mask = ExtpiRlsd.maskedMean y mask := by
  have hw : whereElse 0 (asBool mask) x = whereElse 0 (asBool mask) y := by
    refine Tensor.ext_of_shape (asBool mask) (by simp [h.left]) (by simp [h.right])
      fun i t b hb => ?_
    obtain ⟨p, hp⟩ := Tensor.exists_get?_of_shape h.left.symm hb
    obtain ⟨q, hq⟩ := Tensor.exists_get?_of_shape h.right.symm hb
    cases b with
    | false => simp [whereElse, hb, hp, hq]
    | true => simp [whereElse, h.entry i t hb]
  simp only [ExtpiRlsd.maskedMean, hw]

theorem maskedStd {mask : Tensor ℝ} (h : AgreeOn (asBool mask) x y) :
    ExtpiRlsd.maskedStd x mask = ExtpiRlsd.maskedStd y mask := by
  simp only [ExtpiRlsd.maskedStd]
  rw [h.maskedMean, (h.map _).maskedMean]

end AgreeOn

/-- Both runs have no token mask, or token masks that agree on the response mask. -/
def TokenMasksAgree (m : Tensor Bool) : Option (Tensor ℝ) → Option (Tensor ℝ) → Prop
  | none, none => True
  | some x, some y => AgreeOn m x y
  | _, _ => False

theorem creditMask_congr {m : Tensor Bool} {a b : Option (Tensor ℝ)} (h : TokenMasksAgree m a b) :
    creditMask (asMask m) a = creditMask (asMask m) b := by
  cases a with
  | none => cases b with
    | none => rfl
    | some y => exact h.elim
  | some x => cases b with
    | none => exact h.elim
    | some y => exact AgreeOn.mul_asMask h

theorem TokenMasksAgree.tokenSelected {m : Tensor Bool} {a b : Option (Tensor ℝ)}
    (h : TokenMasksAgree m a b) {i t : ℕ} (hm : m.get? i t = some true) :
    tokenSelected a i t = tokenSelected b i t := by
  cases a with
  | none => cases b with
    | none => rfl
    | some y => exact h.elim
  | some x => cases b with
    | none => exact h.elim
    | some y => simp [ExtpiRlsd.tokenSelected, AgreeOn.entry h i t hm]

/-- The credited entries are valid. -/
theorem valid_of_credited (hs : ∀ m, rlsdTokenMask = some m → m.shape = responseMask.shape)
    {i t : ℕ} (h : (asBool (creditMask (asMask responseMask) rlsdTokenMask)).get? i t = some true) :
    responseMask.get? i t = some true := by
  obtain ⟨b, hb⟩ := Tensor.exists_get?_of_shape
    ((shape_asBool _).trans (shape_creditMask hs)) h
  rw [get?_asBool_creditMask hs hb] at h
  simp only [Option.some.injEq, Bool.and_eq_true] at h
  rw [hb, h.1]

/-- The row sums of the source, read at a row. -/
theorem maskedRowSum_eq (x : Tensor ℝ) (m : Tensor Bool) (i : ℕ) :
    maskedRowSum x m i = ((Tensor.map₂ (· * ·) x (asMask m)).rowSums[i]?).getD 0 := by
  rw [rowSums_mul_asMask, List.getElem?_map, maskedRowSum]

theorem AgreeOn.rowActive {m : Tensor Bool} {x y : Tensor ℝ} (h : AgreeOn m x y) (i : ℕ) :
    rowActive config x m i = rowActive config y m i := by
  rw [ExtpiRlsd.rowActive, ExtpiRlsd.rowActive, maskedRowSum_eq, maskedRowSum_eq, h.mul_asMask]

/-! ### Two runs that agree on the mask -/

section padding
variable {teacher' student' advantages' : Tensor ℝ} {rlsdTokenMask' : Option (Tensor ℝ)}
  (hv : config.validate = .ok ())
  (hs : SameShapes teacher student advantages responseMask rlsdTokenMask)
  (hs' : SameShapes teacher' student' advantages' responseMask rlsdTokenMask')
  (hT : AgreeOn responseMask teacher teacher') (hS : AgreeOn responseMask student student')
  (hA : AgreeOn responseMask advantages advantages')
  (hM : TokenMasksAgree responseMask rlsdTokenMask rlsdTokenMask')
include hv hs hs' hT hS hA hM

theorem reweightedAdvantages_congr :
    (rlsdTerms teacher student advantages responseMask rlsdTokenMask
      config).reweightedAdvantages =
    (rlsdTerms teacher' student' advantages' responseMask rlsdTokenMask'
      config).reweightedAdvantages := by
  refine Tensor.ext_of_shape responseMask (shape_reweightedAdvantages hs config)
    (shape_reweightedAdvantages hs' config) fun i t b hb => ?_
  cases b with
  | false =>
      rw [get?_reweightedAdvantages_masked hv hs hb, get?_reweightedAdvantages_masked hv hs' hb]
  | true =>
      obtain ⟨p, hp⟩ := Tensor.exists_get?_of_shape hs.teacher.symm hb
      obtain ⟨q, hq⟩ := Tensor.exists_get?_of_shape hs.student.symm hb
      obtain ⟨a, ha⟩ := Tensor.exists_get?_of_shape hs.advantages.symm hb
      rw [get?_reweightedAdvantages hv hs hp hq ha hb,
        get?_reweightedAdvantages hv hs' ((hT.entry i t hb).symm.trans hp)
          ((hS.entry i t hb).symm.trans hq) ((hA.entry i t hb).symm.trans ha) hb,
        hA.rowActive, hM.tokenSelected hb]

theorem rlsdMetrics_congr :
    rlsdMetrics advantages config
      (rlsdTerms teacher student advantages responseMask rlsdTokenMask config) =
    rlsdMetrics advantages' config
      (rlsdTerms teacher' student' advantages' responseMask rlsdTokenMask' config) := by
  have hcredit := creditMask_congr hM
  have hout := reweightedAdvantages_congr hv hs hs' hT hS hA hM
  have hvalid : asBool (asMask responseMask : Tensor ℝ) = responseMask := asBool_asMask _
  have hcs : (asBool (creditMask (asMask responseMask) rlsdTokenMask' : Tensor ℝ)).shape =
      responseMask.shape := (shape_asBool _).trans (shape_creditMask hs'.tokenMask)
  -- what agrees on the response mask agrees on each mask below it
  have hall : ∀ {x y : Tensor ℝ}, AgreeOn responseMask x y →
      AgreeOn (asBool (asMask responseMask : Tensor ℝ)) x y := by
    intro x y h
    rwa [hvalid]
  have hcred : ∀ {x y : Tensor ℝ}, AgreeOn responseMask x y →
      AgreeOn (asBool (creditMask (asMask responseMask) rlsdTokenMask' : Tensor ℝ)) x y :=
    fun h => h.mono hcs fun i t => valid_of_credited hs'.tokenMask
  have hsgn : ∀ {x y : Tensor ℝ}, AgreeOn responseMask x y → ∀ f : ℝ → Bool,
      AgreeOn (asBool (Tensor.map₂ (· * ·) (asMask responseMask) (indicator f advantages'))) x y := by
    intro x y h f
    refine h.mono (by simp [indicator, hA.right]) fun i t hi => ?_
    simp only [asBool, indicator, Tensor.get?_map, Tensor.get?_map₂, get?_asMask] at hi
    cases hb : responseMask.get? i t with
    | none => simp [hb] at hi
    | some b => cases b with
      | true => rfl
      | false => cases ha : advantages'.get? i t <;> simp [hb, ha] at hi
  have hdelta := hT.map₂ hS (· - ·)
  have hsigned := (hA.map sign).map₂ hdelta (· * ·)
  have hind : ∀ f : ℝ → Bool, AgreeOn responseMask (indicator f advantages)
      (indicator f advantages') := fun f => hA.map _
  refine RlsdMetrics.ext (hall hdelta).maskedMean (hall hdelta).maskedStd ?_ ?_ ?_ ?_ ?_ ?_ ?_ rfl
    (hall (hA.map _)).maskedMean ?_ ?_ ?_ ?_
  · simp only [rlsdMetrics, rlsdTerms_creditMask, hcredit]
    exact (hcred hsigned).maskedMean
  · simp only [rlsdMetrics, rlsdTerms_creditMask, hcredit]
    exact (hcred hsigned).maskedStd
  · simp only [rlsdMetrics, rlsdTerms_creditMask, hcredit]
    exact (hcred ((hsigned.map _).map _)).maskedMean
  · simp only [rlsdMetrics, rlsdTerms_creditMask, hcredit]
    exact (hcred ((hsigned.map _).map _)).maskedStd
  · simp only [rlsdMetrics, rlsdTerms_creditMask, hcredit]
    exact (hcred (hsigned.map _)).maskedMean
  · simp only [rlsdMetrics, rlsdTerms_creditMask, hcredit]
    exact (hcred (hsigned.map _)).maskedMean
  · simp only [rlsdMetrics, rlsdTerms_creditMask, rlsdTerms_mask, hcredit]
  · simp only [rlsdMetrics, hout, rlsdTerms_mask]
  · rw [signFlips_count_eq_zero hv hs, signFlips_count_eq_zero hv hs']
  · simp only [rlsdMetrics, rlsdTerms_mask, (hind _).asMask_mul]
    exact (hsgn hdelta _).maskedMean
  · simp only [rlsdMetrics, rlsdTerms_mask, (hind _).asMask_mul]
    exact (hsgn hdelta _).maskedMean

end padding

/-! ### Batches -/

/-- The inputs of `computeRlsdAdvantages` of one batch, of one shape. -/
structure RlsdBatch where
  teacher : Tensor ℝ
  student : Tensor ℝ
  advantages : Tensor ℝ
  responseMask : Tensor Bool
  tokenMask : Option (Tensor ℝ)
  shapes : SameShapes teacher student advantages responseMask tokenMask

/-- The inputs of `computeOpdPgAdvantages` of one batch, of one shape. -/
structure OpdBatch where
  teacher : Tensor ℝ
  studentOld : Tensor ℝ
  responseMask : Tensor Bool
  teacher_shape : teacher.shape = responseMask.shape
  studentOld_shape : studentOld.shape = responseMask.shape

namespace RlsdBatch

noncomputable def run (config : RLSDConfig ℝ) (b : RlsdBatch) :
    Except (RlsdError ℝ) (Tensor ℝ × RlsdMetrics ℝ) :=
  computeRlsdAdvantages b.teacher b.student b.advantages b.responseMask b.tokenMask config

noncomputable def terms (config : RLSDConfig ℝ) (b : RlsdBatch) : RlsdTerms ℝ :=
  rlsdTerms b.teacher b.student b.advantages b.responseMask b.tokenMask config

/-- The rows `lo` to `hi - 1` of the batch. -/
def slice (lo hi : ℕ) (b : RlsdBatch) : RlsdBatch where
  teacher := b.teacher.rowSlice lo hi
  student := b.student.rowSlice lo hi
  advantages := b.advantages.rowSlice lo hi
  responseMask := b.responseMask.rowSlice lo hi
  tokenMask := b.tokenMask.map (Tensor.rowSlice lo hi)
  shapes :=
    { teacher := Tensor.shape_rowSlice_congr b.shapes.teacher lo hi
      student := Tensor.shape_rowSlice_congr b.shapes.student lo hi
      advantages := Tensor.shape_rowSlice_congr b.shapes.advantages lo hi
      tokenMask := by
        intro m hm
        obtain ⟨m, hm', rfl⟩ := Option.map_eq_some_iff.mp hm
        exact Tensor.shape_rowSlice_congr (b.shapes.tokenMask m hm') lo hi }

/-- The two batches have one response mask and agree wherever it is true. -/
structure AgreesWith (b b' : RlsdBatch) : Prop where
  responseMask : b'.responseMask = b.responseMask
  teacher : AgreeOn b.responseMask b.teacher b'.teacher
  student : AgreeOn b.responseMask b.student b'.student
  advantages : AgreeOn b.responseMask b.advantages b'.advantages
  tokenMask : TokenMasksAgree b.responseMask b.tokenMask b'.tokenMask

/-- The two batches hold the same inputs at entry `(i, t)` and entry `(j, u)`. -/
structure SameToken (b b' : RlsdBatch) (i t j u : ℕ) : Prop where
  responseMask : b.responseMask.get? i t = b'.responseMask.get? j u
  teacher : b.teacher.get? i t = b'.teacher.get? j u
  student : b.student.get? i t = b'.student.get? j u
  advantages : b.advantages.get? i t = b'.advantages.get? j u
  tokenMask : b.tokenMask.map (·.get? i t) = b'.tokenMask.map (·.get? j u)

variable {b b' : RlsdBatch}

theorem run_eq_ok (hv : config.validate = .ok ()) (b : RlsdBatch) :
    b.run config =
      .ok ((b.terms config).reweightedAdvantages, rlsdMetrics b.advantages config (b.terms config)) :=
  computeRlsdAdvantages_eq_ok hv b.shapes

theorem run_congr (hv : config.validate = .ok ()) (h : b.AgreesWith b') :
    b.run config = b'.run config := by
  obtain ⟨T, S, A, m, k, hs⟩ := b
  obtain ⟨T', S', A', m', k', hs'⟩ := b'
  obtain ⟨rfl, hT, hS, hA, hM⟩ := h
  rw [run_eq_ok hv, run_eq_ok hv]
  simp only [terms]
  rw [reweightedAdvantages_congr hv hs hs' hT hS hA hM, rlsdMetrics_congr hv hs hs' hT hS hA hM]

theorem SameToken.tokenSelected {i t j u : ℕ} (h : SameToken b b' i t j u) :
    tokenSelected b.tokenMask i t = tokenSelected b'.tokenMask j u := by
  have hk := h.tokenMask
  cases hb : b.tokenMask with
  | none => cases hb' : b'.tokenMask with
    | none => rfl
    | some m' => simp [hb, hb'] at hk
  | some m => cases hb' : b'.tokenMask with
    | none => simp [hb, hb'] at hk
    | some m' =>
        simp only [hb, hb', Option.map_some, Option.some.injEq] at hk
        simp [ExtpiRlsd.tokenSelected, hk]

/-- The advantage at an entry depends on the inputs there and on whether its row is active. -/
theorem entry_congr (hv : config.validate = .ok ()) {i t j u : ℕ} (h : SameToken b b' i t j u)
    (hrow : config.negativeOnly = true → (maskedRowSum b.advantages b.responseMask i < 0 ↔
      maskedRowSum b'.advantages b'.responseMask j < 0)) :
    (b.terms config).reweightedAdvantages.get? i t =
      (b'.terms config).reweightedAdvantages.get? j u := by
  have hact : rowActive config b.advantages b.responseMask i =
      rowActive config b'.advantages b'.responseMask j := by
    cases hn : config.negativeOnly with
    | false => simp [rowActive, hn]
    | true => simp [rowActive, hn, hrow hn]
  cases hb : b.responseMask.get? i t with
  | none =>
      have hb' := h.responseMask.symm.trans hb
      rw [terms, terms, Tensor.get?_eq_none_of_shape (shape_reweightedAdvantages b.shapes config) hb,
        Tensor.get?_eq_none_of_shape (shape_reweightedAdvantages b'.shapes config) hb']
  | some c =>
      obtain ⟨p, hp⟩ := Tensor.exists_get?_of_shape b.shapes.teacher.symm hb
      obtain ⟨q, hq⟩ := Tensor.exists_get?_of_shape b.shapes.student.symm hb
      obtain ⟨a, ha⟩ := Tensor.exists_get?_of_shape b.shapes.advantages.symm hb
      rw [terms, terms, get?_reweightedAdvantages hv b.shapes hp hq ha hb,
        get?_reweightedAdvantages hv b'.shapes (h.teacher.symm.trans hp) (h.student.symm.trans hq)
          (h.advantages.symm.trans ha) (h.responseMask.symm.trans hb), hact, h.tokenSelected]

theorem maskedRowSum_rowSlice (x : Tensor ℝ) (m : Tensor Bool) {lo hi i : ℕ} (h : i < hi - lo) :
    maskedRowSum (x.rowSlice lo hi) (m.rowSlice lo hi) i = maskedRowSum x m (lo + i) := by
  simp only [maskedRowSum, List.getElem?_zipWith, Tensor.rowSlice_rows, List.getElem?_take,
    List.getElem?_drop, if_pos h]

theorem sameToken_slice (b : RlsdBatch) {lo hi i : ℕ} (t : ℕ) (h : i < hi - lo) :
    SameToken (b.slice lo hi) b i t (lo + i) t := by
  refine ⟨?_, ?_, ?_, ?_, ?_⟩ <;> simp only [slice, Tensor.get?_rowSlice, if_pos h]
  rw [Option.map_map]
  refine congrArg (Option.map · b.tokenMask) (funext fun m => ?_)
  simp only [Function.comp_apply, Tensor.get?_rowSlice, if_pos h]

/-- Slicing the batch by rows slices its advantages. -/
theorem rowSlice_reweightedAdvantages (hv : config.validate = .ok ()) (b : RlsdBatch) (lo hi : ℕ) :
    ((b.slice lo hi).terms config).reweightedAdvantages =
      (b.terms config).reweightedAdvantages.rowSlice lo hi := by
  have hw : (b.terms config).reweightedAdvantages.shape = b.responseMask.shape :=
    shape_reweightedAdvantages b.shapes config
  refine Tensor.ext_of_shape (b.responseMask.rowSlice lo hi)
    (shape_reweightedAdvantages (b.slice lo hi).shapes config)
    (Tensor.shape_rowSlice_congr hw lo hi) fun i t c hc => ?_
  rw [Tensor.get?_rowSlice] at hc ⊢
  split at hc
  case isFalse => cases hc
  case isTrue h =>
    rw [if_pos h]
    refine entry_congr hv (b.sameToken_slice t h) fun _ => ?_
    rw [slice, maskedRowSum_rowSlice _ _ h]

end RlsdBatch

namespace OpdBatch

noncomputable def run (clip : ℝ) (b : OpdBatch) :
    Except (RlsdError ℝ) (Tensor ℝ × OpdMetrics ℝ) :=
  computeOpdPgAdvantages b.teacher b.studentOld b.responseMask clip

/-- The returned advantages. -/
noncomputable def tokenAdvantages (clip : ℝ) (b : OpdBatch) : Tensor ℝ :=
  Tensor.map₂ (· * ·) ((rawLogratio b.teacher b.studentOld b.responseMask).map (clamp (-clip) clip))
    (asMask b.responseMask)

/-- The rows `lo` to `hi - 1` of the batch. -/
def slice (lo hi : ℕ) (b : OpdBatch) : OpdBatch where
  teacher := b.teacher.rowSlice lo hi
  studentOld := b.studentOld.rowSlice lo hi
  responseMask := b.responseMask.rowSlice lo hi
  teacher_shape := Tensor.shape_rowSlice_congr b.teacher_shape lo hi
  studentOld_shape := Tensor.shape_rowSlice_congr b.studentOld_shape lo hi

/-- The two batches have one response mask and agree wherever it is true. -/
structure AgreesWith (b b' : OpdBatch) : Prop where
  responseMask : b'.responseMask = b.responseMask
  teacher : AgreeOn b.responseMask b.teacher b'.teacher
  studentOld : AgreeOn b.responseMask b.studentOld b'.studentOld

/-- The two batches hold the same inputs at entry `(i, t)` and entry `(j, u)`. -/
structure SameToken (b b' : OpdBatch) (i t j u : ℕ) : Prop where
  responseMask : b.responseMask.get? i t = b'.responseMask.get? j u
  teacher : b.teacher.get? i t = b'.teacher.get? j u
  studentOld : b.studentOld.get? i t = b'.studentOld.get? j u

variable {b b' : OpdBatch} {clip : ℝ}

theorem shape_tokenAdvantages (clip : ℝ) (b : OpdBatch) :
    (b.tokenAdvantages clip).shape = b.responseMask.shape := by
  simp [tokenAdvantages, rawLogratio, b.teacher_shape, b.studentOld_shape]

theorem run_fst (hc : 0 < clip) (b : OpdBatch) :
    ∃ metrics, b.run clip = .ok (b.tokenAdvantages clip, metrics) := by
  unfold run computeOpdPgAdvantages
  simp only [b.teacher_shape, b.studentOld_shape, ne_eq, not_true_eq_false, or_self, if_false,
    not_le.mpr hc]
  exact ⟨_, rfl⟩

theorem run_congr (h : b.AgreesWith b') : b.run clip = b'.run clip := by
  obtain ⟨T, S, m, hT, hS⟩ := b
  obtain ⟨T', S', m', hT', hS'⟩ := b'
  obtain ⟨rfl, h₁, h₂⟩ := h
  have hraw : rawLogratio T S m' = rawLogratio T' S' m' := (h₁.map₂ h₂ (· - ·)).mul_asMask
  have hvalid : ∀ {x y : Tensor ℝ}, AgreeOn m' x y → AgreeOn (asBool (asMask m' : Tensor ℝ)) x y := by
    intro x y h
    rwa [asBool_asMask]
  unfold run computeOpdPgAdvantages
  simp only [hT, hS, hT', hS', hraw, (hvalid h₁).maskedMean, (hvalid h₂).maskedMean]

/-- The advantage at an entry depends on the inputs there. -/
theorem entry_congr {i t j u : ℕ} (h : SameToken b b' i t j u) :
    (b.tokenAdvantages clip).get? i t = (b'.tokenAdvantages clip).get? j u := by
  simp only [tokenAdvantages, rawLogratio, Tensor.get?_map₂, Tensor.get?_map, get?_asMask,
    h.responseMask, h.teacher, h.studentOld]

theorem rowSlice_tokenAdvantages (clip : ℝ) (b : OpdBatch) (lo hi : ℕ) :
    (b.slice lo hi).tokenAdvantages clip = (b.tokenAdvantages clip).rowSlice lo hi := by
  refine Tensor.ext_of_shape (b.responseMask.rowSlice lo hi)
    (shape_tokenAdvantages clip (b.slice lo hi))
    (Tensor.shape_rowSlice_congr (shape_tokenAdvantages clip b) lo hi) fun i t c hc => ?_
  rw [Tensor.get?_rowSlice] at hc ⊢
  split at hc
  case isFalse => cases hc
  case isTrue h =>
    rw [if_pos h]
    refine entry_congr ⟨?_, ?_, ?_⟩ <;> simp only [slice, Tensor.get?_rowSlice, if_pos h]

end OpdBatch

/-! ### Micro-batches -/

/-- A function of row ranges that slices `whole` assembles it from any split of its rows. -/
theorem flatMap_parts {whole : Tensor ℝ} {part : ℕ × ℕ → Tensor ℝ}
    (hpart : ∀ p, part p = whole.rowSlice p.1 p.2) {sizes : List ℕ}
    (hsum : sizes.sum = whole.shape.1) :
    (Tensor.bounds 0 sizes).flatMap (fun p => (part p).rows) = whole.rows := by
  simp only [hpart, Tensor.flatMap_rowSlice_bounds, hsum, List.drop_zero]
  exact List.take_length

theorem RlsdBatch.exists_parts (hv : config.validate = .ok ()) (b : RlsdBatch) {sizes : List ℕ}
    (hsum : sizes.sum = b.responseMask.shape.1) :
    ∃ out metrics, b.run config = .ok (out, metrics) ∧
      ∃ part : ℕ × ℕ → Tensor ℝ,
        (∀ p, ∃ metrics, (b.slice p.1 p.2).run config = .ok (part p, metrics)) ∧
        (Tensor.bounds 0 sizes).flatMap (fun p => (part p).rows) = out.rows := by
  refine ⟨_, _, run_eq_ok hv b, fun p => ((b.slice p.1 p.2).terms config).reweightedAdvantages,
    fun p => ⟨_, run_eq_ok hv _⟩, ?_⟩
  refine flatMap_parts (fun p => rowSlice_reweightedAdvantages hv b p.1 p.2) ?_
  rw [hsum, RlsdBatch.terms, shape_reweightedAdvantages b.shapes config]

theorem OpdBatch.exists_parts {clip : ℝ} (hc : 0 < clip) (b : OpdBatch) {sizes : List ℕ}
    (hsum : sizes.sum = b.responseMask.shape.1) :
    ∃ out metrics, b.run clip = .ok (out, metrics) ∧
      ∃ part : ℕ × ℕ → Tensor ℝ,
        (∀ p, ∃ metrics, (b.slice p.1 p.2).run clip = .ok (part p, metrics)) ∧
        (Tensor.bounds 0 sizes).flatMap (fun p => (part p).rows) = out.rows := by
  obtain ⟨metrics, hrun⟩ := run_fst hc b
  refine ⟨_, metrics, hrun, fun p => (b.slice p.1 p.2).tokenAdvantages clip,
    fun p => run_fst hc _, ?_⟩
  refine flatMap_parts (fun p => rowSlice_tokenAdvantages clip b p.1 p.2) ?_
  rw [hsum, shape_tokenAdvantages]

/-- **Locality of token credit**: neither function reads its inputs off the response mask, each
advantage depends on its own entry and the sign of its row's valid sum, and splitting a batch by
rows splits its advantages. -/
theorem tokenCredit_local (hv : config.validate = .ok ()) {clip : ℝ} (hc : 0 < clip) :
    (∀ b b' : RlsdBatch, b.AgreesWith b' → b.run config = b'.run config) ∧
    (∀ b b' : OpdBatch, b.AgreesWith b' → b.run clip = b'.run clip) ∧
    (∀ (b b' : RlsdBatch) (i t j u : ℕ) (out out' : Tensor ℝ) (m m' : RlsdMetrics ℝ),
      b.run config = .ok (out, m) → b'.run config = .ok (out', m') → b.SameToken b' i t j u →
      (config.negativeOnly = true → (maskedRowSum b.advantages b.responseMask i < 0 ↔
        maskedRowSum b'.advantages b'.responseMask j < 0)) →
      out.get? i t = out'.get? j u) ∧
    (∀ (b b' : OpdBatch) (i t j u : ℕ) (out out' : Tensor ℝ) (m m' : OpdMetrics ℝ),
      b.run clip = .ok (out, m) → b'.run clip = .ok (out', m') → b.SameToken b' i t j u →
      out.get? i t = out'.get? j u) ∧
    (∀ (b : RlsdBatch) (sizes : List ℕ), sizes.sum = b.responseMask.shape.1 →
      ∃ out metrics, b.run config = .ok (out, metrics) ∧
        ∃ part : ℕ × ℕ → Tensor ℝ,
          (∀ p, ∃ metrics, (b.slice p.1 p.2).run config = .ok (part p, metrics)) ∧
          (Tensor.bounds 0 sizes).flatMap (fun p => (part p).rows) = out.rows) ∧
    (∀ (b : OpdBatch) (sizes : List ℕ), sizes.sum = b.responseMask.shape.1 →
      ∃ out metrics, b.run clip = .ok (out, metrics) ∧
        ∃ part : ℕ × ℕ → Tensor ℝ,
          (∀ p, ∃ metrics, (b.slice p.1 p.2).run clip = .ok (part p, metrics)) ∧
          (Tensor.bounds 0 sizes).flatMap (fun p => (part p).rows) = out.rows) := by
  refine ⟨fun b b' h => RlsdBatch.run_congr hv h, fun b b' h => OpdBatch.run_congr h, ?_, ?_,
    fun b sizes h => b.exists_parts hv h, fun b sizes h => b.exists_parts hc h⟩
  · intro b b' i t j u out out' m m' hrun hrun' hsame hrow
    rw [RlsdBatch.run_eq_ok hv] at hrun hrun'
    cases hrun
    cases hrun'
    exact RlsdBatch.entry_congr hv hsame hrow
  · intro b b' i t j u out out' m m' hrun hrun' hsame
    obtain ⟨n, hn⟩ := OpdBatch.run_fst hc b
    obtain ⟨n', hn'⟩ := OpdBatch.run_fst hc b'
    rw [hn] at hrun
    rw [hn'] at hrun'
    cases hrun
    cases hrun'
    exact OpdBatch.entry_congr hsame

/-- A batch with one padded column, and the same batch with other values in the padding. -/
theorem tokenCredit_local_padding :
    (⟨⟨2, [[1, 5]], by simp⟩, ⟨2, [[0, 7]], by simp⟩, ⟨2, [[-1, 9]], by simp⟩,
      ⟨2, [[true, false]], by simp⟩, none,
      ⟨rfl, rfl, rfl, fun m h => by cases h⟩⟩ : RlsdBatch).run RLSDConfig.default =
    (⟨⟨2, [[1, 0]], by simp⟩, ⟨2, [[0, 0]], by simp⟩, ⟨2, [[-1, 0]], by simp⟩,
      ⟨2, [[true, false]], by simp⟩, none,
      ⟨rfl, rfl, rfl, fun m h => by cases h⟩⟩ : RlsdBatch).run RLSDConfig.default := by
  have hagree : ∀ x y z : ℝ, AgreeOn ⟨2, [[true, false]], by simp⟩ ⟨2, [[x, y]], by simp⟩
      ⟨2, [[x, z]], by simp⟩ := by
    intro x y z
    refine ⟨rfl, rfl, fun i t h => ?_⟩
    rcases i with _ | i
    · rcases t with _ | _ | t
      · rfl
      · simp [Tensor.get?] at h
      · simp [Tensor.get?] at h
    · simp [Tensor.get?] at h
  exact (tokenCredit_local RLSDConfig.validate_default one_pos).1 _ _
    ⟨rfl, hagree 1 5 0, hagree 0 7 0, hagree (-1) 9 0, trivial⟩

end ExtpiRlsd
