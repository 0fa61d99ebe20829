import ExtpiRlsd.ActorUpdate
import ExtpiRlsd.RlsdBounds

/-! # The credit token mask

Which tokens a specification with a first part selects.  `firstAndTail` compares running counts
of valid tokens, so holes in the mask do not count (`getElem?_firstAndTail`): a row keeps its
first `firstK` and its last 256 valid tokens, as many as there are
(`count_firstAndTail`).  Under this mask the advantages of the other valid tokens stay as they
are. -/

namespace ExtpiRlsd

open Tensors Masks PyText

/-! ### One row -/

/-- Place `t` holds one of the first `firstK` or of the last 256 valid tokens of the row. -/
def IsSelected (firstK : ℕ) (m : List Bool) (t : ℕ) : Prop :=
  m[t]? = some true ∧ ((m.take t).count true < firstK ∨ (m.drop (t + 1)).count true < 256)

/-- The valid tokens up to a valid place, and those behind it. -/
theorem count_around {m : List Bool} {t : ℕ} (h : m[t]? = some true) :
    (m.take (t + 1)).count true = (m.take t).count true + 1 ∧
      m.count true = (m.take t).count true + 1 + (m.drop (t + 1)).count true := by
  have hupto : (m.take (t + 1)).count true = (m.take t).count true + 1 := by
    rw [List.take_add_one, h, List.count_append]
    rfl
  refine ⟨hupto, ?_⟩
  rw [← hupto, ← List.count_append, List.take_append_drop]

/-- The comparisons of the running count say which valid tokens are selected. -/
theorem getElem?_firstAndTail {firstK : ℕ} {m : List Bool} {t : ℕ} :
    (firstAndTail firstK m)[t]? = some true ↔ IsSelected firstK m t := by
  unfold IsSelected
  cases hvalid : m[t]? with
  | none =>
      rw [firstAndTail, List.getElem?_zipWith, hvalid]
      simp
  | some b =>
      have hlength : t < m.length := (List.getElem?_eq_some_iff.mp hvalid).1
      rw [firstAndTail, List.getElem?_zipWith, hvalid, getElem?_cumsum_toNat 0 hlength]
      cases b with
      | false => simp
      | true =>
          obtain ⟨hupto, htotal⟩ := count_around hvalid
          simp only [hupto, htotal, Option.some.injEq, Bool.true_and, Bool.or_eq_true,
            decide_eq_true_eq, true_and]
          omega

theorem countP_range'_of_all {p : ℕ → Bool} {start n : ℕ}
    (h : ∀ idx, start ≤ idx → idx < start + n → p idx = true) :
    (List.range' start n).countP p = n := by
  rw [List.countP_eq_length.mpr, List.length_range']
  intro idx hidx
  rw [List.mem_range'_1] at hidx
  exact h idx hidx.1 hidx.2

theorem countP_range'_of_none {p : ℕ → Bool} {start n : ℕ}
    (h : ∀ idx, start ≤ idx → idx < start + n → p idx = false) :
    (List.range' start n).countP p = 0 := by
  rw [List.countP_eq_zero]
  intro idx hidx
  rw [List.mem_range'_1] at hidx
  rw [h idx hidx.1 hidx.2]
  exact Bool.false_ne_true

/-- The ranks among the first `firstK` or the last 256 of a row. -/
theorem countP_firstAndTail (firstK length : ℕ) :
    (List.range' 1 length).countP
        (fun idx => decide (idx ≤ firstK) || decide (length - 256 < idx)) =
      min length (firstK + 256) := by
  by_cases h : length ≤ firstK + 256
  · rw [min_eq_left h]
    apply countP_range'_of_all
    intro idx hlow hhigh
    simp only [Bool.or_eq_true, decide_eq_true_eq]
    omega
  · -- the first ranks, those between that are left out, and the tail
    rw [min_eq_right (by omega)]
    obtain ⟨middle, rfl⟩ : ∃ middle, length = firstK + middle + 256 :=
      ⟨length - firstK - 256, by omega⟩
    rw [← List.range'_append_1, ← List.range'_append_1, List.countP_append, List.countP_append,
      countP_range'_of_all, countP_range'_of_none, countP_range'_of_all, Nat.add_zero]
    · intro idx hlow hhigh
      simp only [Bool.or_eq_true, decide_eq_true_eq]
      omega
    · intro idx hlow hhigh
      simp only [Bool.or_eq_false_iff, decide_eq_false_iff_not]
      omega
    · intro idx hlow hhigh
      simp only [Bool.or_eq_true, decide_eq_true_eq]
      omega

/-- A row keeps all its valid tokens, or `firstK + 256` of them. -/
theorem count_firstAndTail (firstK : ℕ) (m : List Bool) :
    (firstAndTail firstK m).count true = min (m.count true) (firstK + 256) := by
  rw [← countP_firstAndTail]
  exact count_zipWith_cumsum _ 0 m

/-! ### The mask of a batch -/

/-- The specification stands for a first part of `firstK` tokens and the tail. -/
def HasFirstPart (spec : PyStr) (firstK : ℕ) : Prop :=
  (normalizeName (if spec = [] then "all".toList else spec), some firstK) ∈ tokenMaskAliases

/-- The aliases are found under their names. -/
theorem find?_tokenMaskAliases {name : PyStr} {count : Option ℕ}
    (h : (name, count) ∈ tokenMaskAliases) :
    tokenMaskAliases.find? (fun entry => entry.1 == name) = some (name, count) := by
  have hall : ∀ entry ∈ tokenMaskAliases,
      tokenMaskAliases.find? (fun other => other.1 == entry.1) = some entry := by decide
  exact hall _ h

/-- The mask selects in every row the first `firstK` and the last 256 valid tokens. -/
structure SelectsFirstAndTail (firstK : ℕ) (responseMask mask : Tensor Bool) : Prop where
  shape : mask.shape = responseMask.shape
  selected : ∀ (i t : ℕ) (m : List Bool), responseMask.rows[i]? = some m →
    (mask.get? i t = some true ↔ IsSelected firstK m t)
  subset : ∀ i t, mask.get? i t = some true → responseMask.get? i t = some true
  count : ∀ (i : ℕ) (m row : List Bool), responseMask.rows[i]? = some m → mask.rows[i]? = some row →
    row.count true = min (m.count true) (firstK + 256)

theorem selectsFirstAndTail_mapRows (firstK : ℕ) (responseMask : Tensor Bool) :
    SelectsFirstAndTail firstK responseMask
      (responseMask.mapRows (firstAndTail firstK) (length_firstAndTail firstK)) := by
  have hrow : ∀ i, (responseMask.mapRows (firstAndTail firstK)
      (length_firstAndTail firstK)).rows[i]? = responseMask.rows[i]?.map (firstAndTail firstK) :=
    fun i => List.getElem?_map
  have hselected : ∀ i t m, responseMask.rows[i]? = some m →
      ((responseMask.mapRows (firstAndTail firstK) (length_firstAndTail firstK)).get? i t =
        some true ↔ IsSelected firstK m t) := by
    intro i t m hm
    rw [Tensor.get?, hrow, hm]
    exact getElem?_firstAndTail
  refine ⟨Tensor.shape_mapRows _ _ _, hselected, ?_, ?_⟩
  · intro i t h
    obtain ⟨row, hrows, -⟩ := Tensor.get?_eq_some_iff.mp h
    rw [hrow] at hrows
    obtain ⟨m, hm, -⟩ := Option.map_eq_some_iff.mp hrows
    rw [Tensor.get?, hm]
    exact ((hselected i t m hm).mp h).1
  · intro i m row hm hrows
    rw [hrow, hm] at hrows
    rw [← Option.some.inj hrows]
    exact count_firstAndTail firstK m

/-- A valid token that the token mask leaves out keeps its advantage. -/
theorem advantage_of_unselected {config : RLSDConfig ℝ} {teacher student advantages : Tensor ℝ}
    {responseMask mask : Tensor Bool} (hv : config.validate = .ok ())
    (hs : SameShapes teacher student advantages responseMask (some (asMask mask))) {i t : ℕ}
    {a : ℝ} (hvalid : responseMask.get? i t = some true) (hmask : mask.get? i t = some false)
    (ha : advantages.get? i t = some a) :
    (rlsdTerms teacher student advantages responseMask (some (asMask mask))
      config).reweightedAdvantages.get? i t = some a := by
  obtain ⟨p, hp⟩ := Tensor.exists_get?_of_shape hs.teacher.symm hvalid
  obtain ⟨q, hq⟩ := Tensor.exists_get?_of_shape hs.student.symm hvalid
  have hselected : tokenSelected (some (asMask mask)) i t = false := by
    simp [tokenSelected, get?_asMask, hmask]
  rw [get?_reweightedAdvantages hv hs hp hq ha hvalid, hselected, tokenFactor, Bool.and_false]
  simp

/-- **The credit token mask.**  A specification with a first part selects in every row exactly
the first `firstK` and the last 256 valid tokens, and all other valid tokens keep their
advantages. -/
theorem buildRlsdTokenMask_selects {spec : PyStr} {firstK : ℕ} (hspec : HasFirstPart spec firstK)
    (responseMask : Tensor Bool) :
    ∃ mask, buildRlsdTokenMask responseMask spec = .ok mask ∧
      SelectsFirstAndTail firstK responseMask mask ∧
      ∀ (config : RLSDConfig ℝ) (teacher student advantages : Tensor ℝ),
        config.validate = .ok () → teacher.shape = responseMask.shape →
        student.shape = responseMask.shape → advantages.shape = responseMask.shape →
        ∃ out metrics, computeRlsdAdvantages teacher student advantages responseMask
            (some (asMask mask)) config = .ok (out, metrics) ∧
          ∀ i t, responseMask.get? i t = some true → mask.get? i t ≠ some true →
            out.get? i t = advantages.get? i t := by
  have hselects := selectsFirstAndTail_mapRows firstK responseMask
  refine ⟨responseMask.mapRows (firstAndTail firstK) (length_firstAndTail firstK), ?_, hselects,
    ?_⟩
  · simp only [buildRlsdTokenMask, find?_tokenMaskAliases hspec]
  · intro config teacher student advantages hv hteacher hstudent hadvantages
    have hs : SameShapes teacher student advantages responseMask (some (asMask
        (responseMask.mapRows (firstAndTail firstK) (length_firstAndTail firstK)))) := by
      refine ⟨hteacher, hstudent, hadvantages, ?_⟩
      rintro m ⟨⟩
      rw [shape_asMask, hselects.shape]
    refine ⟨_, _, computeRlsdAdvantages_eq_ok hv hs, ?_⟩
    intro i t hvalid hmask
    obtain ⟨b, hb⟩ := Tensor.exists_get?_of_shape hselects.shape.symm hvalid
    obtain ⟨a, ha⟩ := Tensor.exists_get?_of_shape hadvantages.symm hvalid
    cases b with
    | true => exact absurd hb hmask
    | false => rw [ha, advantage_of_unselected hv hs hvalid hb ha]

/-- The specification `4k+ans` on a batch with a hole and an empty row. -/
theorem buildRlsdTokenMask_selects_fourK :
    ∃ mask, buildRlsdTokenMask ⟨3, [[true, false, true], [false, false, false]], by simp⟩
        "4K+ANS ".toList = .ok mask ∧
      SelectsFirstAndTail 4096 ⟨3, [[true, false, true], [false, false, false]], by simp⟩ mask := by
  have hspec : HasFirstPart "4K+ANS ".toList 4096 := by
    unfold HasFirstPart
    decide
  obtain ⟨mask, hmask, hselects, -⟩ := buildRlsdTokenMask_selects hspec
    ⟨3, [[true, false, true], [false, false, false]], by simp⟩
  exact ⟨mask, hmask, hselects⟩

end ExtpiRlsd
