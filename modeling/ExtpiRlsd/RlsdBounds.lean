import ExtpiRlsd.RlsdCredit

/-! # Bounds, signs and the documented formula

The factor of a token lies in `[1 - lam * clip_range, 1 + lam * clip_range]` and is positive
(`creditFactor_mem`), whatever the evidence.  From the entry equation of `RlsdCredit` this gives
`computeRlsdAdvantages_bounded`: advantages keep their signs, the sign-flip count is zero and the
mean of the absolute advantages moves by at most that factor.
`computeRlsdAdvantages_formula` states the returned advantages by the documented formula and
the clip ratios as fractions of the credited tokens, in terms of the unclipped weights. -/

namespace ExtpiRlsd

open Tensors Masks

variable {config : RLSDConfig ℝ} {teacher student advantages : Tensor ℝ}
  {responseMask : Tensor Bool} {rlsdTokenMask : Option (Tensor ℝ)}

/-! ### The factor -/

/-- The factor of a credited token stays within `lam * clip_range` of one and is positive. -/
theorem creditFactor_mem (hv : config.validate = .ok ()) (a delta : ℝ) :
    1 - config.lam * config.clipRange ≤ creditFactor config a delta ∧
      creditFactor config a delta ≤ 1 + config.lam * config.clipRange ∧
      0 < creditFactor config a delta := by
  obtain ⟨⟨hl0, hl1⟩, hc0, hc1⟩ := RLSDConfig.validate_eq_ok_iff.mp hv
  unfold creditFactor
  have hlow : 1 - config.clipRange ≤ clamp (1 - config.clipRange) (1 + config.clipRange)
      (Real.exp (sign a * delta)) := le_clamp (by linarith) _
  have hhigh := clamp_le (1 - config.clipRange) (1 + config.clipRange) (Real.exp (sign a * delta))
  generalize clamp (1 - config.clipRange) (1 + config.clipRange) (Real.exp (sign a * delta)) = w
    at hlow hhigh ⊢
  have h1 := mul_le_mul_of_nonneg_left hlow hl0
  have h2 := mul_le_mul_of_nonneg_left hhigh hl0
  have h3 : config.lam * config.clipRange ≤ 1 * config.clipRange :=
    mul_le_mul_of_nonneg_right hl1 hc0
  refine ⟨by linarith, by linarith, by linarith⟩

theorem tokenFactor_mem (hv : config.validate = .ok ()) (active selected : Bool) (a delta : ℝ) :
    1 - config.lam * config.clipRange ≤ tokenFactor config active selected a delta ∧
      tokenFactor config active selected a delta ≤ 1 + config.lam * config.clipRange ∧
      0 < tokenFactor config active selected a delta := by
  obtain ⟨⟨hl0, hl1⟩, hc0, hc1⟩ := RLSDConfig.validate_eq_ok_iff.mp hv
  have h := mul_nonneg hl0 hc0
  unfold tokenFactor
  split
  · exact creditFactor_mem hv a delta
  · exact ⟨by linarith, by linarith, one_pos⟩

theorem tokenFactor_lam_zero (h : config.lam = 0) (active selected : Bool) (a delta : ℝ) :
    tokenFactor config active selected a delta = 1 := by
  unfold tokenFactor creditFactor
  rw [h]
  split <;> ring

/-! ### Means over the mask -/

@[simp] theorem asBool_asMask (m : Tensor Bool) : asBool (asMask m : Tensor ℝ) = m := by
  refine Tensor.ext_get? (by simp [asBool, asMask]) fun i t => ?_
  simp only [asBool, Tensor.get?_map, get?_asMask]
  cases m.get? i t with
  | none => rfl
  | some b => cases b <;> simp

theorem total_asMask (m : Tensor Bool) : (asMask m : Tensor ℝ).total = m.count :=
  Tensor.total_indicator m

theorem clampMin_one_pos (x : ℝ) : 0 < clampMin 1 x := by
  rw [clampMin_eq_max]
  exact lt_of_lt_of_le one_pos (le_max_left _ _)

/-- A masked mean is monotone in its valid entries. -/
theorem maskedMean_le_maskedMean {x y mask : Tensor ℝ} (hx : x.shape = mask.shape)
    (hy : y.shape = mask.shape)
    (hle : ∀ i t a b, (asBool mask).get? i t = some true → x.get? i t = some a →
      y.get? i t = some b → a ≤ b) :
    maskedMean x mask ≤ maskedMean y mask := by
  unfold maskedMean
  refine div_le_div_of_nonneg_right ?_ (clampMin_one_pos _).le
  refine Tensor.total_le_total ?_ ?_
  · simp [hx, hy]
  · intro i t a b ha hb
    simp only [whereElse, Tensor.get?_map₂, Option.map₂_eq_some_iff, Option.mem_def] at ha hb
    obtain ⟨c, u, hc, hu, rfl⟩ := ha
    obtain ⟨d, v, hd, hv, rfl⟩ := hb
    obtain rfl : c = d := Option.some.inj (hc.symm.trans hd)
    cases c with
    | false => simp
    | true => simpa using hle i t u v hc hu hv

theorem maskedMean_map_mul_left (c : ℝ) (x mask : Tensor ℝ) :
    maskedMean (x.map (c * ·)) mask = c * maskedMean x mask := by
  have h : whereElse 0 (asBool mask) (x.map (c * ·)) = (whereElse 0 (asBool mask) x).map (c * ·) := by
    refine Tensor.ext (by simp [whereElse, Tensor.map₂, Tensor.map]) ?_
    refine congrArg Tensor.rows (Tensor.ext_get? ?_ fun i t => ?_)
    · simp [whereElse, Tensor.map₂, Tensor.map, Tensor.shape]
    · simp only [whereElse, Tensor.get?_map₂, Tensor.get?_map]
      cases (asBool mask).get? i t with
      | none => rfl
      | some b => cases x.get? i t <;> cases b <;> simp
  unfold maskedMean
  rw [h, Tensor.total_map_mul_left, mul_div_assoc]

/-! ### Bounds and signs -/

/-- What the reweighting may do to the advantages and what its metrics then say. -/
structure BoundedCredit (config : RLSDConfig ℝ) (advantages : Tensor ℝ) (responseMask : Tensor Bool)
    (out : Tensor ℝ) (metrics : RlsdMetrics ℝ) : Prop where
  shape : out.shape = responseMask.shape
  masked : ∀ i t, responseMask.get? i t = some false → out.get? i t = some 0
  factor : ∀ i t a, responseMask.get? i t = some true → advantages.get? i t = some a →
    ∃ f, out.get? i t = some (a * f) ∧ 1 - config.lam * config.clipRange ≤ f ∧
      f ≤ 1 + config.lam * config.clipRange ∧ 0 < f
  sign : ∀ i t a y, responseMask.get? i t = some true → advantages.get? i t = some a →
    out.get? i t = some y → (0 < y ↔ 0 < a) ∧ (y < 0 ↔ a < 0) ∧ (y = 0 ↔ a = 0)
  signFlipCount : metrics.signFlipCount = 0
  absMean_ge : (1 - config.lam * config.clipRange) * metrics.advAbsMeanBefore ≤
    metrics.advAbsMeanAfter
  absMean_le : metrics.advAbsMeanAfter ≤
    (1 + config.lam * config.clipRange) * metrics.advAbsMeanBefore
  lam_zero : config.lam = 0 → ∀ i t a, responseMask.get? i t = some true →
    advantages.get? i t = some a → out.get? i t = some a

/-- The result has the shape of the mask. -/
theorem shape_reweightedAdvantages
    (hs : SameShapes teacher student advantages responseMask rlsdTokenMask)
    (config : RLSDConfig ℝ) :
    (rlsdTerms teacher student advantages responseMask rlsdTokenMask
      config).reweightedAdvantages.shape = responseMask.shape := by
  have hcredit := shape_creditMask hs.tokenMask
  have hneg : (negativeSeq advantages (asMask responseMask)).length = responseMask.shape.1 := by
    simp [negativeSeq, hs.advantages]
  cases hn : config.negativeOnly <;>
    simp [rlsdTerms, hn, negativeOnlyReweight, hcredit, hneg, hs.teacher, hs.student, hs.advantages]

section entries
variable (hv : config.validate = .ok ())
  (hs : SameShapes teacher student advantages responseMask rlsdTokenMask)
include hv hs

/-- At a valid entry the result is the advantage times an admissible factor. -/
theorem exists_factor {i t : ℕ} {a : ℝ} (hb : responseMask.get? i t = some true)
    (ha : advantages.get? i t = some a) :
    ∃ f, (rlsdTerms teacher student advantages responseMask rlsdTokenMask
        config).reweightedAdvantages.get? i t = some (a * f) ∧
      1 - config.lam * config.clipRange ≤ f ∧ f ≤ 1 + config.lam * config.clipRange ∧ 0 < f ∧
      (config.lam = 0 → f = 1) := by
  obtain ⟨p, hp⟩ := Tensor.exists_get?_of_shape hs.teacher.symm hb
  obtain ⟨q, hq⟩ := Tensor.exists_get?_of_shape hs.student.symm hb
  obtain ⟨h1, h2, h3⟩ := tokenFactor_mem hv (rowActive config advantages responseMask i)
    (tokenSelected rlsdTokenMask i t) a (p - q)
  refine ⟨_, ?_, h1, h2, h3, fun hl => tokenFactor_lam_zero hl _ _ _ _⟩
  simpa using get?_reweightedAdvantages hv hs hp hq ha hb

theorem get?_reweightedAdvantages_masked {i t : ℕ} (hb : responseMask.get? i t = some false) :
    (rlsdTerms teacher student advantages responseMask rlsdTokenMask
        config).reweightedAdvantages.get? i t = some 0 := by
  obtain ⟨p, hp⟩ := Tensor.exists_get?_of_shape hs.teacher.symm hb
  obtain ⟨q, hq⟩ := Tensor.exists_get?_of_shape hs.student.symm hb
  obtain ⟨a, ha⟩ := Tensor.exists_get?_of_shape hs.advantages.symm hb
  simpa using get?_reweightedAdvantages hv hs hp hq ha hb

/-- No valid non-zero advantage changes its sign. -/
theorem signFlips_count_eq_zero :
    (rlsdMetrics advantages config (rlsdTerms teacher student advantages responseMask rlsdTokenMask
      config)).signFlipCount = 0 := by
  refine Tensor.count_eq_zero_iff.mpr fun i t h => ?_
  simp only [signFlips, Tensor.get?_map₂, Option.map₂_eq_some_iff, Option.mem_def] at h
  obtain ⟨f, v, ⟨y, a, hy, ha, rfl⟩, ⟨m, a', hm, ha', rfl⟩, h⟩ := h
  obtain rfl : a = a' := Option.some.inj (ha.symm.trans ha')
  obtain ⟨b, hb⟩ := Tensor.exists_get?_of_shape hs.advantages ha
  cases b with
  | false =>
      have hm : (0 : ℝ) = m := by simpa [rlsdTerms, get?_asMask, hb] using hm
      simp [← hm] at h
  | true =>
      obtain ⟨f, hy', -, -, hf, -⟩ := exists_factor hv hs hb ha
      obtain rfl := Option.some.inj (hy.symm.trans hy')
      simp [sign_mul_pos a hf] at h

/-- The absolute valid entries of the result lie within the admissible factors. -/
theorem abs_entry_mem {i t : ℕ} {a y : ℝ} (hb : responseMask.get? i t = some true)
    (ha : advantages.get? i t = some a)
    (hy : (rlsdTerms teacher student advantages responseMask rlsdTokenMask
      config).reweightedAdvantages.get? i t = some y) :
    (1 - config.lam * config.clipRange) * |a| ≤ |y| ∧
      |y| ≤ (1 + config.lam * config.clipRange) * |a| := by
  obtain ⟨f, hy', h1, h2, hf, -⟩ := exists_factor hv hs hb ha
  obtain rfl := Option.some.inj (hy.symm.trans hy')
  rw [abs_mul, abs_of_pos hf, mul_comm |a|]
  exact ⟨mul_le_mul_of_nonneg_right h1 (abs_nonneg a), mul_le_mul_of_nonneg_right h2 (abs_nonneg a)⟩

/-- The mean absolute advantage moves by an admissible factor. -/
theorem absMean_mem :
    let m := rlsdMetrics advantages config (rlsdTerms teacher student advantages responseMask
      rlsdTokenMask config)
    (1 - config.lam * config.clipRange) * m.advAbsMeanBefore ≤ m.advAbsMeanAfter ∧
      m.advAbsMeanAfter ≤ (1 + config.lam * config.clipRange) * m.advAbsMeanBefore := by
  have hshape := shape_reweightedAdvantages hs config
  have habs : ∀ {i t : ℕ} {a y : ℝ}, responseMask.get? i t = some true →
      (advantages.map Tensors.abs).get? i t = some a →
      ((rlsdTerms teacher student advantages responseMask rlsdTokenMask
        config).reweightedAdvantages.map Tensors.abs).get? i t = some y →
      (1 - config.lam * config.clipRange) * a ≤ y ∧
        y ≤ (1 + config.lam * config.clipRange) * a := by
    intro i t a y hb ha hy
    simp only [Tensor.get?_map, Option.map_eq_some_iff] at ha hy
    obtain ⟨a, ha, rfl⟩ := ha
    obtain ⟨y, hy, rfl⟩ := hy
    rw [abs_eq_abs, abs_eq_abs]
    exact abs_entry_mem hv hs hb ha hy
  simp only [rlsdMetrics]
  rw [← maskedMean_map_mul_left, ← maskedMean_map_mul_left]
  constructor
  · refine maskedMean_le_maskedMean ?_ ?_ fun i t x y hb hx hy => ?_
    · simp [hs.advantages]
    · simp [hshape]
    · obtain ⟨a, ha, rfl⟩ := Option.map_eq_some_iff.mp ((Tensor.get?_map _ _ i t).symm.trans hx)
      exact (habs (by simpa using hb) ha hy).1
  · refine maskedMean_le_maskedMean ?_ ?_ fun i t x y hb hx hy => ?_
    · simp [hshape]
    · simp [hs.advantages]
    · obtain ⟨a, ha, rfl⟩ := Option.map_eq_some_iff.mp ((Tensor.get?_map _ _ i t).symm.trans hy)
      exact (habs (by simpa using hb) ha hx).2

end entries

/-- **Sign-safe and bounded**: on every accepted input the reweighting satisfies
`BoundedCredit`. -/
theorem computeRlsdAdvantages_bounded (hv : config.validate = .ok ())
    (hs : SameShapes teacher student advantages responseMask rlsdTokenMask) :
    ∃ out metrics,
      computeRlsdAdvantages teacher student advantages responseMask rlsdTokenMask config =
        .ok (out, metrics) ∧
      BoundedCredit config advantages responseMask out metrics := by
  refine ⟨_, _, computeRlsdAdvantages_eq_ok hv hs, ?_⟩
  have hshape := shape_reweightedAdvantages hs config
  have hfactor := fun i t a => exists_factor hv hs (i := i) (t := t) (a := a)
  refine ⟨hshape, fun i t => get?_reweightedAdvantages_masked hv hs, ?_, ?_, ?_, ?_, ?_, ?_⟩
  · intro i t a hb ha
    obtain ⟨f, hy, h1, h2, h3, -⟩ := hfactor i t a hb ha
    exact ⟨f, hy, h1, h2, h3⟩
  · intro i t a y hb ha hy
    obtain ⟨f, hy', -, -, hf, -⟩ := hfactor i t a hb ha
    obtain rfl := Option.some.inj (hy.symm.trans hy')
    exact ⟨mul_pos_iff_of_pos_right hf, mul_neg_iff_neg hf a, by simp [hf.ne']⟩
  · exact signFlips_count_eq_zero hv hs
  · exact (absMean_mem hv hs).1
  · exact (absMean_mem hv hs).2
  · intro hl i t a hb ha
    obtain ⟨f, hy, -, -, -, hf⟩ := hfactor i t a hb ha
    rw [hy, hf hl, mul_one]

/-- Two valid tokens of opposite sign under the default configuration, one padded column. -/
theorem computeRlsdAdvantages_bounded_default :
    ∃ out metrics,
      computeRlsdAdvantages ⟨3, [[10, -10, 3]], by simp⟩ ⟨3, [[0, 0, 0]], by simp⟩
        ⟨3, [[1, -2, 3]], by simp⟩ ⟨3, [[true, true, false]], by simp⟩ none
        (RLSDConfig.default : RLSDConfig ℝ) = .ok (out, metrics) ∧
      BoundedCredit RLSDConfig.default ⟨3, [[1, -2, 3]], by simp⟩
        ⟨3, [[true, true, false]], by simp⟩ out metrics :=
  computeRlsdAdvantages_bounded RLSDConfig.validate_default
    ⟨rfl, rfl, rfl, fun m h => by cases h⟩

/-! ### The documented formula -/

/-- The token mask holds only zeros and ones. -/
def ZeroOne (m : Tensor ℝ) : Prop := ∀ i t v, m.get? i t = some v → v = 0 ∨ v = 1

/-- The places of the credited tokens: valid and kept by the token mask. -/
noncomputable def creditTokens (responseMask : Tensor Bool) (rlsdTokenMask : Option (Tensor ℝ)) :
    Finset (ℕ × ℕ) :=
  responseMask.trueAt.filter fun p => tokenSelected rlsdTokenMask p.1 p.2 = true

/-- The weight `exp (sign A * delta)` before clamping, at a place of the batch. -/
noncomputable def unclippedWeight (teacher student advantages : Tensor ℝ) (p : ℕ × ℕ) : ℝ :=
  Real.exp (sign ((advantages.get? p.1 p.2).getD 0) *
    ((teacher.get? p.1 p.2).getD 0 - (student.get? p.1 p.2).getD 0))

theorem asMask_asBool {m : Tensor ℝ} (h : ZeroOne m) : asMask (asBool m) = m := by
  refine Tensor.ext_get? (by simp) fun i t => ?_
  simp only [asBool, Tensor.get?_map, get?_asMask]
  cases hv : m.get? i t with
  | none => rfl
  | some v => rcases h i t v hv with rfl | rfl <;> simp

theorem zeroOne_creditMask (h : ∀ m, rlsdTokenMask = some m → ZeroOne m) :
    ZeroOne (creditMask (asMask responseMask) rlsdTokenMask) := by
  intro i t v hv
  cases hm : rlsdTokenMask with
  | none =>
      rw [hm, creditMask, get?_asMask] at hv
      obtain ⟨b, -, rfl⟩ := Option.map_eq_some_iff.mp hv
      cases b <;> simp
  | some m =>
      rw [hm, creditMask, Tensor.get?_map₂, Option.map₂_eq_some_iff] at hv
      obtain ⟨c, d, hc, hd, rfl⟩ := hv
      rw [Option.mem_def, get?_asMask] at hd
      obtain ⟨b, -, rfl⟩ := Option.map_eq_some_iff.mp hd
      rcases h m hm i t c hc with rfl | rfl <;> cases b <;> simp

/-- The masked mean of an indicator is a fraction of the places of a 0/1 mask. -/
theorem maskedMean_indicator {mask : Tensor ℝ} (h : ZeroOne mask) (p : ℝ → Bool) (x : Tensor ℝ) :
    maskedMean (indicator p x) mask =
      (Tensor.map₂ (fun b v => b && p v) (asBool mask) x).count / (asBool mask).count := by
  have hnum : whereElse 0 (asBool mask) (indicator p x) =
      (Tensor.map₂ (fun b v => b && p v) (asBool mask) x).map fun b => if b then 1 else 0 := by
    refine Tensor.ext_get? (by simp [indicator]) fun i t => ?_
    simp only [whereElse, indicator, Tensor.get?_map₂, Tensor.get?_map]
    cases (asBool mask).get? i t with
    | none => rfl
    | some b => cases x.get? i t <;> cases b <;> simp
  have hden : mask.total = (asBool mask).count := by rw [← total_asMask, asMask_asBool h]
  unfold maskedMean
  rw [hnum, hden, Tensor.total_indicator, clampMin_eq_max]
  rcases Nat.eq_zero_or_pos (asBool mask).count with h0 | hpos
  · have : (Tensor.map₂ (fun b v => b && p v) (asBool mask) x).count = 0 := by
      rw [Tensor.count_eq_zero_iff] at h0 ⊢
      intro i t hit
      rw [Tensor.get?_map₂, Option.map₂_eq_some_iff] at hit
      obtain ⟨b, v, hb, -, hbv⟩ := hit
      obtain rfl : b = true := (Bool.and_eq_true_iff.mp hbv).1
      exact h0 i t hb
    simp [this]
  · rw [max_eq_right (by exact_mod_cast hpos)]

theorem trueAt_asBool_creditMask
    (hs : SameShapes teacher student advantages responseMask rlsdTokenMask) :
    (asBool (creditMask (asMask responseMask) rlsdTokenMask : Tensor ℝ)).trueAt =
      creditTokens responseMask rlsdTokenMask := by
  ext ⟨i, t⟩
  simp only [creditTokens, Finset.mem_filter, Tensor.mem_trueAt]
  cases hb : responseMask.get? i t with
  | none =>
      have : (asBool (creditMask (asMask responseMask) rlsdTokenMask)).get? i t = none := by
        by_contra hne
        obtain ⟨v, hv⟩ := Option.ne_none_iff_exists'.mp hne
        obtain ⟨b, hb'⟩ := Tensor.exists_get?_of_shape
          ((shape_asBool _).trans (shape_creditMask hs.tokenMask)) hv
        rw [hb] at hb'
        cases hb'
      simp [this]
  | some b => simp [get?_asBool_creditMask hs.tokenMask hb]

/-- The fraction of credited tokens whose unclipped weight satisfies `q`, when `q` reads on the
logarithm as `p`. -/
theorem maskedMean_signedDelta (htm : ∀ m, rlsdTokenMask = some m → ZeroOne m)
    (hs : SameShapes teacher student advantages responseMask rlsdTokenMask) (p q : ℝ → Bool)
    (hpq : ∀ s, p s = q (Real.exp s)) :
    maskedMean (indicator p (rlsdTerms teacher student advantages responseMask rlsdTokenMask
        config).signedDelta) (creditMask (asMask responseMask) rlsdTokenMask) =
      ((creditTokens responseMask rlsdTokenMask).filter fun c =>
          q (unclippedWeight teacher student advantages c) = true).card /
        (creditTokens responseMask rlsdTokenMask).card := by
  rw [maskedMean_indicator (zeroOne_creditMask htm), Tensor.count_eq_card, Tensor.count_eq_card,
    trueAt_asBool_creditMask hs]
  congr 3
  ext ⟨i, t⟩
  rw [Finset.mem_filter, ← trueAt_asBool_creditMask hs, Tensor.mem_trueAt, Tensor.mem_trueAt,
    Tensor.get?_map₂]
  cases hc : (asBool (creditMask (asMask responseMask) rlsdTokenMask)).get? i t with
  | none => simp
  | some b =>
      have hsh : (asBool (creditMask (asMask responseMask) rlsdTokenMask : Tensor ℝ)).shape =
          responseMask.shape := (shape_asBool _).trans (shape_creditMask hs.tokenMask)
      obtain ⟨u, hu⟩ := Tensor.exists_get?_of_shape (hsh.trans hs.teacher.symm) hc
      obtain ⟨v, hv⟩ := Tensor.exists_get?_of_shape (hsh.trans hs.student.symm) hc
      obtain ⟨a, ha⟩ := Tensor.exists_get?_of_shape (hsh.trans hs.advantages.symm) hc
      simp [get?_signedDelta hu hv ha, unclippedWeight, hu, hv, ha, hpq]

/-- What the documentation says of the returned advantages and of the clip ratios. -/
structure DocumentedCredit (config : RLSDConfig ℝ) (teacher student advantages : Tensor ℝ)
    (responseMask : Tensor Bool) (rlsdTokenMask : Option (Tensor ℝ)) (out : Tensor ℝ)
    (metrics : RlsdMetrics ℝ) : Prop where
  credited : ∀ i t p q a, responseMask.get? i t = some true → tokenSelected rlsdTokenMask i t →
    (config.negativeOnly = true → maskedRowSum advantages responseMask i < 0) →
    teacher.get? i t = some p → student.get? i t = some q → advantages.get? i t = some a →
    out.get? i t = some (a * ((1 - config.lam) + config.lam *
      clamp (1 - config.clipRange) (1 + config.clipRange) (Real.exp (sign a * (p - q)))))
  untouched : ∀ i t a, responseMask.get? i t = some true →
    ¬ (tokenSelected rlsdTokenMask i t ∧
      (config.negativeOnly = true → maskedRowSum advantages responseMask i < 0)) →
    advantages.get? i t = some a → out.get? i t = some a
  masked : ∀ i t, responseMask.get? i t = some false → out.get? i t = some 0
  clipLowRatio : metrics.clipLowRatio =
    ((creditTokens responseMask rlsdTokenMask).filter fun c =>
      unclippedWeight teacher student advantages c < 1 - config.clipRange).card /
    (creditTokens responseMask rlsdTokenMask).card
  clipHighRatio : metrics.clipHighRatio =
    ((creditTokens responseMask rlsdTokenMask).filter fun c =>
      1 + config.clipRange < unclippedWeight teacher student advantages c).card /
    (creditTokens responseMask rlsdTokenMask).card

/-- **The log-space implementation computes the documented formula.** -/
theorem computeRlsdAdvantages_formula (hv : config.validate = .ok ())
    (hs : SameShapes teacher student advantages responseMask rlsdTokenMask)
    (htm : ∀ m, rlsdTokenMask = some m → ZeroOne m) :
    ∃ out metrics,
      computeRlsdAdvantages teacher student advantages responseMask rlsdTokenMask config =
        .ok (out, metrics) ∧
      DocumentedCredit config teacher student advantages responseMask rlsdTokenMask out
        metrics := by
  obtain ⟨-, hc0, hc1⟩ := RLSDConfig.validate_eq_ok_iff.mp hv
  have hlow : (0 : ℝ) < 1 - config.clipRange := by linarith
  have hhigh : (0 : ℝ) < 1 + config.clipRange := by linarith
  refine ⟨_, _, computeRlsdAdvantages_eq_ok hv hs, ?_, ?_, ?_, ?_, ?_⟩
  · intro i t p q a hb hsel hneg hp hq ha
    have hact : rowActive config advantages responseMask i = true := by
      cases hn : config.negativeOnly <;> simp [rowActive, hn, hneg]
    simpa [hact, hsel, tokenFactor, creditFactor] using get?_reweightedAdvantages hv hs hp hq ha hb
  · intro i t a hb hnot ha
    obtain ⟨p, hp⟩ := Tensor.exists_get?_of_shape hs.teacher.symm hb
    obtain ⟨q, hq⟩ := Tensor.exists_get?_of_shape hs.student.symm hb
    have hoff : (rowActive config advantages responseMask i && tokenSelected rlsdTokenMask i t) =
        false := by
      cases hn : config.negativeOnly <;> cases hsel : tokenSelected rlsdTokenMask i t <;>
        simp_all [rowActive]
    simpa [tokenFactor, hoff] using get?_reweightedAdvantages hv hs hp hq ha hb
  · exact fun i t hb => get?_reweightedAdvantages_masked hv hs hb
  · refine (maskedMean_signedDelta htm hs _ (fun w => decide (w < 1 - config.clipRange))
      fun s => ?_).trans (by simp)
    simp only [decide_eq_decide]
    exact Real.lt_log_iff_exp_lt hlow
  · refine (maskedMean_signedDelta htm hs _ (fun w => decide (1 + config.clipRange < w))
      fun s => ?_).trans (by simp)
    simp only [decide_eq_decide]
    exact Real.log_lt_iff_lt_exp hhigh

/-- A credited and an uncredited valid token of a negative row under `negativeOnly`. -/
theorem computeRlsdAdvantages_formula_negativeOnly :
    ∃ out metrics,
      computeRlsdAdvantages ⟨2, [[10, -10]], by simp⟩ ⟨2, [[0, 0]], by simp⟩
        ⟨2, [[1, -2]], by simp⟩ ⟨2, [[true, true]], by simp⟩
        (some ⟨2, [[1, 0]], by simp⟩) (⟨1 / 2, 1 / 5, true⟩ : RLSDConfig ℝ) = .ok (out, metrics) ∧
      DocumentedCredit ⟨1 / 2, 1 / 5, true⟩ ⟨2, [[10, -10]], by simp⟩ ⟨2, [[0, 0]], by simp⟩
        ⟨2, [[1, -2]], by simp⟩ ⟨2, [[true, true]], by simp⟩
        (some ⟨2, [[1, 0]], by simp⟩) out metrics := by
  refine computeRlsdAdvantages_formula (RLSDConfig.validate_eq_ok_iff.mpr (by norm_num))
    ⟨rfl, rfl, rfl, fun m h => by cases h; rfl⟩ fun m h i t v hv => ?_
  cases h
  obtain ⟨r, hr, hv⟩ := Tensor.get?_eq_some_iff.mp hv
  have hmem : v ∈ ([1, 0] : List ℝ) := by
    have := List.mem_of_getElem? hr
    simp only [List.mem_singleton] at this
    exact this ▸ List.mem_of_getElem? hv
  rcases List.mem_cons.mp hmem with rfl | hmem
  · exact Or.inr rfl
  · exact Or.inl (by simpa using hmem)

end ExtpiRlsd
