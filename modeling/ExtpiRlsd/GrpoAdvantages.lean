import ExtpiRlsd.GroupDiagnostics
import ExtpiRlsd.RlsdBounds

/-! # From rewards to token credit

The GRPO branch of `compute_advantage`: `compute_grpo_outcome_advantage` of `core_algos.py` sums
the rewards of a response to its score, takes the mean and the deviation of the scores with one
uid, and spreads the normalised score over the valid tokens of the response.  RLSD then reweights
these advantages token by token.

What a row gets depends on the row and on the scores with its uid, in any order
(`computeAdvantage_perm`).  Behind the reweighting a valid token has the sign of its score against
the mean of the group (`rlsdCredit_of_rewards`), and a batch gives no credit exactly when the diagnostics
report that no group deviates (`noCredit_iff_nonzeroStd`). -/

namespace ExtpiRlsd

open Tensors Grouping PyText

/-! ### Definitions -/

/-- The rewards and the uids of a batch, which `DataProto` keeps of one length. -/
structure OutcomeBatch (α : Type) where
  tokenLevelRewards : Tensor α
  responseMask : Tensor Bool
  uid : List PyStr
  length_mask : responseMask.rows.length = tokenLevelRewards.rows.length
  length_uid : uid.length = tokenLevelRewards.rows.length

section definitions
variable {α : Type} [Zero α] [One α] [Neg α] [Add α] [Sub α] [Mul α] [Div α] [NatCast α]
  [LT α] [LE α] [DecidableLT α] [DecidableLE α] [DecidableEq α] [Scalar α]

/-- `torch.std`, which divides by one less than the number of entries. -/
def sampleStd (xs : List α) : α :=
  let center := listMean xs
  Scalar.sqrt ((xs.map fun x => (x - center) * (x - center)).sum / ((xs.length - 1 : ℕ) : α))

/-- An entry of `id2mean`.  A score alone in its group is compared with zero; no group is empty. -/
def groupMean (group : List α) : α := if group.length = 1 then 0 else listMean group

/-- An entry of `id2std`. -/
def groupStd (group : List α) : α := if group.length = 1 then 1 else sampleStd group

/-- A score within its group. -/
def groupScore (epsilon : α) (normAdvByStdInGrpo : Bool) (group : List α) (score : α) : α :=
  if normAdvByStdInGrpo then (score - groupMean group) / (groupStd group + epsilon)
  else score - groupMean group

def OutcomeBatch.scores (b : OutcomeBatch α) : List α := b.tokenLevelRewards.rowSums

/-- `id2score[uid]`. -/
def OutcomeBatch.id2score (b : OutcomeBatch α) (uid : PyStr) : List α :=
  ((collect (b.uid.zip b.scores)).lookup uid).getD []

/-- `compute_grpo_outcome_advantage`: the advantages, which are the returns, too. -/
def computeGrpoOutcomeAdvantage (epsilon : α) (normAdvByStdInGrpo : Bool) (b : OutcomeBatch α) :
    Tensor α × Tensor α :=
  let scores := List.zipWith
    (fun uid score => groupScore epsilon normAdvByStdInGrpo (b.id2score uid) score) b.uid b.scores
  let scores := Tensor.mapCol (fun s m => s * m) scores (asMask b.responseMask)
  (scores, scores)

/-- The GRPO branch of `compute_advantage`, which leaves `epsilon` at its default. -/
def computeAdvantage [OfScientific α] (normAdvByStdInGrpo : Bool) (b : OutcomeBatch α) :
    Tensor α × Tensor α :=
  computeGrpoOutcomeAdvantage 1e-6 normAdvByStdInGrpo b

end definitions

/-! ### The scores of a group -/

section groups
variable {group group' : List ℝ} {s epsilon : ℝ}

theorem sampleStd_nonneg (xs : List ℝ) : 0 ≤ sampleStd xs := Real.sqrt_nonneg _

theorem groupStd_nonneg (group : List ℝ) : 0 ≤ groupStd group := by
  unfold groupStd
  split
  · exact zero_le_one
  · exact sampleStd_nonneg group

theorem groupMean_perm (h : group.Perm group') : groupMean group = groupMean group' := by
  rw [groupMean, groupMean, h.length_eq, listMean_perm h]

theorem groupStd_perm (h : group.Perm group') : groupStd group = groupStd group' := by
  have hsquares := h.map fun x => (x - listMean group') * (x - listMean group')
  rw [groupStd, groupStd, sampleStd, sampleStd, h.length_eq, listMean_perm h, hsquares.sum_eq]

theorem groupScore_perm (h : group.Perm group') (norm : Bool) (s : ℝ) :
    groupScore epsilon norm group s = groupScore epsilon norm group' s := by
  rw [groupScore, groupScore, groupMean_perm h, groupStd_perm h]

/-- The score of a row within its group is positive above the mean and negative below it. -/
theorem groupScore_sign (hepsilon : 0 < epsilon) (norm : Bool) (group : List ℝ) (s : ℝ) :
    (0 < groupScore epsilon norm group s ↔ groupMean group < s) ∧
      (groupScore epsilon norm group s < 0 ↔ s < groupMean group) ∧
      (groupScore epsilon norm group s = 0 ↔ s = groupMean group) := by
  have hpos : 0 < groupStd group + epsilon :=
    add_pos_of_nonneg_of_pos (groupStd_nonneg group) hepsilon
  cases norm with
  | true =>
      refine ⟨?_, ?_, ?_⟩
      · exact (div_pos_iff_of_pos_right hpos).trans sub_pos
      · exact (div_lt_iff₀ hpos).trans (by rw [zero_mul, sub_neg])
      · exact (div_eq_zero_iff.trans (or_iff_left hpos.ne')).trans sub_eq_zero
  | false => exact ⟨sub_pos, sub_neg, sub_eq_zero⟩

end groups

/-! ### Rows -/

namespace OutcomeBatch
variable {b b' : OutcomeBatch ℝ}

/-- Under a uid the scores of its rows are collected. -/
theorem id2score_eq (b : OutcomeBatch ℝ) (uid : PyStr) :
    b.id2score uid = valuesAt uid (b.uid.zip b.scores) := by
  unfold id2score
  cases hlookup : (collect (b.uid.zip b.scores)).lookup uid with
  | none =>
      refine (valuesAt_of_not_mem fun hmem => ?_).symm
      obtain ⟨g, hg, rfl⟩ := List.mem_map.mp (mem_fst_collect.mpr hmem)
      have hne := List.lookup_eq_none_iff.mp hlookup g hg
      exact absurd rfl (bne_iff_ne.mp hne)
  | some values =>
      obtain ⟨before, after, hsplit, -⟩ := List.lookup_eq_some_iff.mp hlookup
      have hmem : (uid, values) ∈ collect (b.uid.zip b.scores) := by
        rw [hsplit]
        exact List.mem_append_right _ List.mem_cons_self
      exact snd_of_mem_collect hmem

/-- The uid, the rewards and the mask of every row. -/
def samples (b : OutcomeBatch ℝ) : List (PyStr × List ℝ × List Bool) :=
  b.uid.zip (b.tokenLevelRewards.rows.zip b.responseMask.rows)

theorem zip_scores (b : OutcomeBatch ℝ) :
    b.uid.zip b.scores = b.samples.map fun sample => (sample.1, sample.2.1.sum) := by
  have hrewards : (b.tokenLevelRewards.rows.zip b.responseMask.rows).map Prod.fst =
      b.tokenLevelRewards.rows := List.map_fst_zip b.length_mask.ge
  unfold samples scores Tensor.rowSums
  conv_lhs => rw [← hrewards]
  rw [List.map_map, List.zip_map_right]
  rfl

/-- The scores with a uid, behind a reordering of the rows. -/
theorem id2score_perm (h : b.samples.Perm b'.samples) (uid : PyStr) :
    (b.id2score uid).Perm (b'.id2score uid) := by
  rw [id2score_eq, id2score_eq, zip_scores, zip_scores]
  exact ((h.map _).filter _).map _

end OutcomeBatch

/-- The advantages of a row: one number over its valid tokens. -/
noncomputable def advantageRow (epsilon : ℝ) (norm : Bool) (b : OutcomeBatch ℝ)
    (sample : PyStr × List ℝ × List Bool) : List ℝ :=
  sample.2.2.map fun valid =>
    groupScore epsilon norm (b.id2score sample.1) sample.2.1.sum * if valid then 1 else 0

section rows
variable {b b' : OutcomeBatch ℝ}

theorem rows_computeGrpoOutcomeAdvantage (epsilon : ℝ) (norm : Bool) (b : OutcomeBatch ℝ) :
    (computeGrpoOutcomeAdvantage epsilon norm b).1.rows =
      b.samples.map (advantageRow epsilon norm b) := by
  refine List.ext_getElem? fun i => ?_
  simp only [computeGrpoOutcomeAdvantage, Tensor.mapCol, asMask, Tensor.map, OutcomeBatch.samples,
    OutcomeBatch.scores, Tensor.rowSums, List.getElem?_zipWith, List.getElem?_map, List.zip]
  cases b.uid[i]? with
  | none => rfl
  | some uid =>
      cases b.tokenLevelRewards.rows[i]? with
      | none => rfl
      | some rewards =>
          cases b.responseMask.rows[i]? with
          | none => rfl
          | some mask =>
              simp only [Option.map_some, advantageRow, List.map_map]
              rfl

theorem advantageRow_perm (epsilon : ℝ) (norm : Bool) (h : b.samples.Perm b'.samples) :
    advantageRow epsilon norm b = advantageRow epsilon norm b' := by
  funext sample
  unfold advantageRow
  rw [groupScore_perm (OutcomeBatch.id2score_perm h sample.1)]

/-- **The order of the rows is free.**  A reordered batch gives every row the same advantages,
whatever else the rows hold. -/
theorem computeAdvantage_perm {ρ : Type} {rows rows' : List ρ}
    {sample : ρ → PyStr × List ℝ × List Bool} (h : rows.Perm rows')
    (hb : b.samples = rows.map sample) (hb' : b'.samples = rows'.map sample) (norm : Bool) :
    (rows.zip (computeAdvantage norm b).1.rows).Perm
      (rows'.zip (computeAdvantage norm b').1.rows) := by
  have hsamples : b.samples.Perm b'.samples := by
    rw [hb, hb']
    exact h.map sample
  unfold computeAdvantage
  rw [rows_computeGrpoOutcomeAdvantage, rows_computeGrpoOutcomeAdvantage,
    advantageRow_perm 1e-6 norm hsamples, hb, hb', List.map_map, List.map_map,
    ← List.map_prod_left_eq_zip, ← List.map_prod_left_eq_zip]
  exact h.map _

/-- Two responses to one problem, and one alone. -/
def threeResponses : OutcomeBatch ℝ where
  tokenLevelRewards := ⟨2, [[0, 1], [0, 0], [0, 1]], by simp⟩
  responseMask := ⟨2, [[true, true], [true, false], [true, true]], by simp⟩
  uid := ["a".toList, "a".toList, "b".toList]
  length_mask := rfl
  length_uid := rfl

/-- The same, in another order. -/
def reorderedResponses : OutcomeBatch ℝ where
  tokenLevelRewards := ⟨2, [[0, 0], [0, 1], [0, 1]], by simp⟩
  responseMask := ⟨2, [[true, false], [true, true], [true, true]], by simp⟩
  uid := ["a".toList, "a".toList, "b".toList]
  length_mask := rfl
  length_uid := rfl

theorem computeAdvantage_perm_swapped :
    (threeResponses.samples.zip (computeAdvantage true threeResponses).1.rows).Perm
      (reorderedResponses.samples.zip (computeAdvantage true reorderedResponses).1.rows) :=
  computeAdvantage_perm (List.Perm.swap _ _ _) (List.map_id _).symm (List.map_id _).symm true

theorem OutcomeBatch.length_scores (b : OutcomeBatch ℝ) :
    b.scores.length = b.responseMask.rows.length := by
  rw [OutcomeBatch.scores, Tensor.rowSums, List.length_map, b.length_mask]

theorem shape_computeAdvantage (norm : Bool) (b : OutcomeBatch ℝ) :
    (computeAdvantage norm b).1.shape = b.responseMask.shape := by
  have hscores := b.length_scores
  have huid : b.uid.length = b.responseMask.rows.length := b.length_uid.trans b.length_mask.symm
  simp [computeAdvantage, computeGrpoOutcomeAdvantage, Tensor.shape, asMask, Tensor.map,
    Tensor.mapCol, hscores, huid]

/-- The advantage of a token. -/
theorem get?_computeAdvantage (norm : Bool) {i t : ℕ} {uid : PyStr} {s : ℝ} {valid : Bool}
    (huid : b.uid[i]? = some uid) (hs : b.scores[i]? = some s)
    (hvalid : b.responseMask.get? i t = some valid) :
    (computeAdvantage norm b).1.get? i t =
      some (groupScore 1e-6 norm (b.id2score uid) s * if valid then 1 else 0) := by
  simp [computeAdvantage, computeGrpoOutcomeAdvantage, List.getElem?_zipWith, get?_asMask, huid,
    hs, hvalid]

end rows

/-! ### Token credit -/

/-- The credit of the tokens of a batch, by the scores of their responses. -/
structure RewardedCredit (b : OutcomeBatch ℝ) (out : Tensor ℝ) : Prop where
  shape : out.shape = b.responseMask.shape
  masked : ∀ i t, b.responseMask.get? i t = some false → out.get? i t = some 0
  sign : ∀ i t uid s y, b.uid[i]? = some uid → b.scores[i]? = some s →
    b.responseMask.get? i t = some true → out.get? i t = some y →
      (0 < y ↔ groupMean (b.id2score uid) < s) ∧ (y < 0 ↔ s < groupMean (b.id2score uid)) ∧
        (y = 0 ↔ s = groupMean (b.id2score uid))

section credit
variable {config : RLSDConfig ℝ} {teacher student : Tensor ℝ} {rlsdTokenMask : Option (Tensor ℝ)}
  {b : OutcomeBatch ℝ}

/-- **Rewards reach the tokens with their signs.**  Whatever the teacher and the student say, the
reweighted advantages of a batch credit every valid token of a response that scores above the mean
of its group, blame every one of a response below it, and leave the others at zero. -/
theorem rlsdCredit_of_rewards (hv : config.validate = .ok ())
    (hteacher : teacher.shape = b.responseMask.shape)
    (hstudent : student.shape = b.responseMask.shape)
    (hmask : ∀ m, rlsdTokenMask = some m → m.shape = b.responseMask.shape) (norm : Bool) :
    ∃ out metrics, computeRlsdAdvantages teacher student (computeAdvantage norm b).1
        b.responseMask rlsdTokenMask config = .ok (out, metrics) ∧ RewardedCredit b out := by
  have hepsilon : (0 : ℝ) < 1e-6 := by norm_num
  obtain ⟨out, metrics, hout, hbounded⟩ := computeRlsdAdvantages_bounded hv
    ⟨hteacher, hstudent, shape_computeAdvantage norm b, hmask⟩
  refine ⟨out, metrics, hout, hbounded.shape, hbounded.masked, ?_⟩
  intro i t uid s y huid hs hvalid hy
  have hadvantage := get?_computeAdvantage norm huid hs hvalid
  obtain ⟨hpos, hneg, hzero⟩ := hbounded.sign i t _ y hvalid hadvantage hy
  obtain ⟨hpos', hneg', hzero'⟩ := groupScore_sign hepsilon norm (b.id2score uid) s
  rw [if_pos rfl, mul_one] at hpos hneg hzero
  exact ⟨hpos.trans hpos', hneg.trans hneg', hzero.trans hzero'⟩

/-- The responses of three rollouts under the default weights. -/
theorem rlsdCredit_of_threeResponses : ∃ out metrics,
    computeRlsdAdvantages ⟨2, [[-1, -2], [-3, 0], [-1, -1]], by simp⟩
      ⟨2, [[-2, -2], [-1, 0], [-1, -3]], by simp⟩ (computeAdvantage true threeResponses).1
      threeResponses.responseMask none RLSDConfig.default = .ok (out, metrics) ∧
    RewardedCredit threeResponses out :=
  rlsdCredit_of_rewards RLSDConfig.validate_default rfl rfl (fun m h => by cases h) true

end credit

/-! ### Batches without credit -/

/-- The scores of `_add_training_diagnostics`. -/
def OutcomeBatch.diagnosticScores (b : OutcomeBatch ℝ) : List ℝ :=
  (Tensor.map₂ (· * ·) b.tokenLevelRewards (asMask b.responseMask)).rowSums

/-- Every response has a valid token, and rewards at its valid tokens only. -/
structure OutcomeBatch.RewardsInside (b : OutcomeBatch ℝ) : Prop where
  shape : b.tokenLevelRewards.shape = b.responseMask.shape
  inside : ∀ i t, b.responseMask.get? i t = some false → b.tokenLevelRewards.get? i t = some 0
  valid : ∀ i < b.responseMask.rows.length, ∃ t, b.responseMask.get? i t = some true

/-- A list deviates unless each entry is the mean. -/
theorem not_populationStd_pos_iff {xs : List ℝ} :
    ¬ 0 < populationStd xs ↔ ∀ x ∈ xs, x = listMean xs := by
  constructor
  · intro h x hx
    exact eq_listMean_of_populationStd h hx
  · intro h
    have hzero : (xs.map fun x => (x - listMean xs) * (x - listMean xs)) =
        xs.map fun _ => (0 : ℝ) := by
      refine List.map_congr_left fun x hx => ?_
      rw [sub_eq_zero.mpr (h x hx), mul_zero]
    unfold populationStd
    dsimp only
    rw [hzero, listMean, List.map_const', List.sum_replicate, smul_zero, zero_div]
    exact (Real.sqrt_zero.le).not_gt

theorem deviationFlag_nonneg (group : List ℝ) :
    (0 : ℝ) ≤ groupFlag (decide (0 < populationStd group)) := by
  unfold groupFlag
  split
  · exact zero_le_one
  · exact le_rfl

theorem deviationFlag_eq_zero_iff {group : List ℝ} :
    (groupFlag (decide (0 < populationStd group)) : ℝ) = 0 ↔ ∀ s ∈ group, s = listMean group := by
  rw [← not_populationStd_pos_iff]
  by_cases h : 0 < populationStd group
  · simp [groupFlag, h]
  · simp [groupFlag, h]

/-- No group deviates when their ratio is zero. -/
theorem nonzeroStd_eq_zero_iff {wrong : ℝ → Bool} {groups : List (List ℝ)} (hne : groups ≠ []) :
    (groupRatios wrong groups).nonzeroStd = 0 ↔ ∀ g ∈ groups, ∀ s ∈ g, s = listMean g := by
  have hlength : (groups.length : ℝ) ≠ 0 := by
    exact_mod_cast (List.length_pos_of_ne_nil hne).ne'
  unfold groupRatios
  dsimp only
  rw [listMean, List.length_map, div_eq_zero_iff, or_iff_left hlength]
  constructor
  · intro hsum g hg
    have hnonneg := List.forall_mem_map.mpr fun group (_ : group ∈ groups) =>
      deviationFlag_nonneg group
    exact deviationFlag_eq_zero_iff.mp
      (List.all_zero_of_le_zero_le_of_sum_eq_zero hnonneg hsum (List.mem_map_of_mem hg))
  · intro h
    refine List.sum_eq_zero (List.forall_mem_map.mpr fun group hgroup => ?_)
    exact deviationFlag_eq_zero_iff.mpr (h group hgroup)

namespace OutcomeBatch
variable {b : OutcomeBatch ℝ}

theorem RewardsInside.scores_eq (h : b.RewardsInside) : b.diagnosticScores = b.scores := by
  have hproduct : Tensor.map₂ (· * ·) b.tokenLevelRewards (asMask b.responseMask) =
      b.tokenLevelRewards := by
    refine Tensor.ext_get? (by simp [h.shape]) fun i t => ?_
    rw [Tensor.get?_map₂, get?_asMask]
    cases hreward : b.tokenLevelRewards.get? i t with
    | none => rfl
    | some reward =>
        obtain ⟨valid, hvalid⟩ := Tensor.exists_get?_of_shape h.shape hreward
        rw [hvalid]
        cases valid with
        | true => simp
        | false =>
            have hzero := h.inside i t hvalid
            rw [hreward] at hzero
            simp [Option.some.inj hzero]
  rw [diagnosticScores, hproduct, scores]

theorem mem_id2score {uid : PyStr} {s : ℝ} :
    s ∈ b.id2score uid ↔ ∃ i : ℕ, b.uid[i]? = some uid ∧ b.scores[i]? = some s := by
  rw [id2score_eq, valuesAt, List.mem_map]
  constructor
  · rintro ⟨p, hp, rfl⟩
    obtain ⟨hmem, huid⟩ := List.mem_filter.mp hp
    obtain ⟨i, hi⟩ := List.mem_iff_getElem?.mp hmem
    obtain ⟨h₁, h₂⟩ := List.getElem?_zip_eq_some.mp hi
    exact ⟨i, by rw [h₁, of_decide_eq_true huid], h₂⟩
  · rintro ⟨i, h₁, h₂⟩
    refine ⟨(uid, s), List.mem_filter.mpr ⟨?_, decide_eq_true rfl⟩, rfl⟩
    exact List.mem_iff_getElem?.mpr ⟨i, List.getElem?_zip_eq_some.mpr ⟨h₁, h₂⟩⟩

theorem map_fst_zip_scores (b : OutcomeBatch ℝ) : (b.uid.zip b.scores).map Prod.fst = b.uid := by
  have hlen := b.length_scores
  exact List.map_fst_zip ((b.length_uid.trans b.length_mask.symm).trans hlen.symm).le

theorem length_id2score (b : OutcomeBatch ℝ) (uid : PyStr) :
    (b.id2score uid).length = b.uid.count uid := by
  have hcount : b.uid.count uid = ((b.uid.zip b.scores).map Prod.fst).count uid := by
    rw [map_fst_zip_scores]
  rw [hcount, id2score_eq, valuesAt, List.length_map, List.count_eq_countP, List.countP_map,
    List.countP_eq_length_filter]
  refine congrArg List.length (List.filter_congr fun p _ => ?_)
  exact (beq_eq_decide p.1 uid).symm

/-- The groups of the diagnostics are the groups of at least two responses. -/
theorem mem_uidGroups {group : List ℝ} : group ∈ uidGroups b.uid b.scores ↔
    ∃ uid ∈ b.uid, group = b.id2score uid ∧ 2 ≤ b.uid.count uid := by
  rw [uidGroups, List.mem_filter, List.mem_map]
  constructor
  · rintro ⟨⟨g, hg, rfl⟩, hlen⟩
    have hvalues : g.2 = b.id2score g.1 := by
      rw [id2score_eq]
      exact snd_of_mem_collect hg
    refine ⟨g.1, ?_, hvalues, ?_⟩
    · rw [← map_fst_zip_scores b]
      exact mem_fst_collect.mp (List.mem_map_of_mem hg)
    · rw [← length_id2score, ← hvalues]
      exact of_decide_eq_true hlen
  · rintro ⟨uid, huid, rfl, hlen⟩
    rw [← map_fst_zip_scores b] at huid
    obtain ⟨g, hg, rfl⟩ := List.mem_map.mp (mem_fst_collect.mpr huid)
    refine ⟨⟨g, hg, ?_⟩, ?_⟩
    · rw [id2score_eq]
      exact snd_of_mem_collect hg
    · rw [length_id2score]
      exact decide_eq_true hlen

end OutcomeBatch

section neutral
variable {config : RLSDConfig ℝ} {teacher student : Tensor ℝ} {rlsdTokenMask : Option (Tensor ℝ)}
  {b : OutcomeBatch ℝ}

theorem groupMean_id2score {uid : PyStr} (h : 2 ≤ b.uid.count uid) :
    groupMean (b.id2score uid) = listMean (b.id2score uid) := by
  rw [← b.length_id2score] at h
  rw [groupMean, if_neg (Nat.ne_of_gt h)]

/-- Where every response scores the mean of its group no token gets credit, and only there. -/
theorem RewardedCredit.eq_zero_iff {out : Tensor ℝ} (hcredit : RewardedCredit b out)
    (hvalid : ∀ i < b.responseMask.rows.length, ∃ t, b.responseMask.get? i t = some true) :
    (∀ i t y, out.get? i t = some y → y = 0) ↔ ∀ (i : ℕ) uid s, b.uid[i]? = some uid →
      b.scores[i]? = some s → s = groupMean (b.id2score uid) := by
  constructor
  · intro h i uid s huid hs
    obtain ⟨t, ht⟩ := hvalid i (b.length_scores ▸ (List.getElem?_eq_some_iff.mp hs).1)
    obtain ⟨y, hy⟩ := Tensor.exists_get?_of_shape hcredit.shape.symm ht
    exact (hcredit.sign i t uid s y huid hs ht hy).2.2.mp (h i t y hy)
  · intro h i t y hy
    obtain ⟨valid, ht⟩ := Tensor.exists_get?_of_shape hcredit.shape hy
    cases valid with
    | false => exact Option.some.inj (hy.symm.trans (hcredit.masked i t ht))
    | true =>
        obtain ⟨row, hrow, -⟩ := Tensor.get?_eq_some_iff.mp ht
        have hlt := (List.getElem?_eq_some_iff.mp hrow).1
        have hs := List.getElem?_eq_getElem (hlt.trans_eq b.length_scores.symm)
        have huid := List.getElem?_eq_getElem
          (hlt.trans_eq (b.length_uid.trans b.length_mask.symm).symm)
        exact (hcredit.sign i t _ _ y huid hs ht hy).2.2.mpr (h i _ _ huid hs)

/-- **A batch gives no credit exactly when the diagnostics report no deviating group.**  For at
least two responses to every problem, with their rewards at valid tokens, the reported ratio is
zero if and only if every reweighted advantage is. -/
theorem noCredit_iff_nonzeroStd (hv : config.validate = .ok ())
    (hteacher : teacher.shape = b.responseMask.shape)
    (hstudent : student.shape = b.responseMask.shape)
    (hmask : ∀ m, rlsdTokenMask = some m → m.shape = b.responseMask.shape) (norm : Bool)
    (hinside : b.RewardsInside) (hne : b.uid ≠ []) (hgroups : ∀ uid ∈ b.uid, 2 ≤ b.uid.count uid)
    (rolloutN : ℤ) :
    ∃ out metrics r, computeRlsdAdvantages teacher student (computeAdvantage norm b).1
        b.responseMask rlsdTokenMask config = .ok (out, metrics) ∧
      groupDiagnosticMetrics b.diagnosticScores (some b.uid) rolloutN =
        (.ratios r, true, true) ∧
      (r.nonzeroStd = 0 ↔ ∀ i t y, out.get? i t = some y → y = 0) := by
  obtain ⟨out, metrics, hout, hcredit⟩ := rlsdCredit_of_rewards hv hteacher hstudent hmask norm
  have hlen : b.uid.length = b.scores.length :=
    (b.length_uid.trans b.length_mask.symm).trans b.length_scores.symm
  obtain ⟨uid, huid⟩ := List.exists_mem_of_ne_nil _ hne
  have hnonempty : uidGroups b.uid b.scores ≠ [] :=
    List.ne_nil_of_mem (OutcomeBatch.mem_uidGroups.mpr ⟨uid, huid, rfl, hgroups uid huid⟩)
  refine ⟨out, metrics, groupRatios (fun s => decide (s < 1)) (uidGroups b.uid b.scores), hout,
    ?_, ?_⟩
  · rw [hinside.scores_eq]
    simp only [groupDiagnosticMetrics, hlen, ne_eq, not_true_eq_false, if_false,
      if_neg hnonempty]
  · rw [nonzeroStd_eq_zero_iff hnonempty, hcredit.eq_zero_iff hinside.valid]
    constructor
    · intro h i uid s hi hs
      have hmem := List.mem_of_getElem? hi
      rw [groupMean_id2score (hgroups uid hmem)]
      exact h _ (OutcomeBatch.mem_uidGroups.mpr ⟨uid, hmem, rfl, hgroups uid hmem⟩) s
        (OutcomeBatch.mem_id2score.mpr ⟨i, hi, hs⟩)
    · intro h group hgroup s hs
      obtain ⟨uid, -, rfl, hcount⟩ := OutcomeBatch.mem_uidGroups.mp hgroup
      obtain ⟨i, hi, hscore⟩ := OutcomeBatch.mem_id2score.mp hs
      rw [← groupMean_id2score hcount]
      exact h i uid s hi hscore

/-- Two responses that both fail. -/
def failedResponses : OutcomeBatch ℝ where
  tokenLevelRewards := ⟨1, [[0], [0]], by simp⟩
  responseMask := ⟨1, [[true], [true]], by simp⟩
  uid := ["a".toList, "a".toList]
  length_mask := rfl
  length_uid := rfl

theorem rewardsInside_failedResponses : failedResponses.RewardsInside := by
  refine ⟨rfl, ?_, ?_⟩
  · intro i t h
    obtain ⟨row, hrow, ht⟩ := Tensor.get?_eq_some_iff.mp h
    have hmem : row = [true] := by simpa [failedResponses] using List.mem_of_getElem? hrow
    rw [hmem] at ht
    exact absurd (List.mem_of_getElem? ht) (by decide)
  · intro i hi
    have hi : i < 2 := hi
    refine ⟨0, ?_⟩
    interval_cases i
    · rfl
    · rfl

theorem noCredit_of_failedResponses : ∃ out metrics r,
    computeRlsdAdvantages ⟨1, [[-1], [-2]], by simp⟩ ⟨1, [[-2], [-1]], by simp⟩
      (computeAdvantage true failedResponses).1 failedResponses.responseMask none
      RLSDConfig.default = .ok (out, metrics) ∧
    groupDiagnosticMetrics failedResponses.diagnosticScores (some failedResponses.uid) 2 =
      (.ratios r, true, true) ∧
    (r.nonzeroStd = 0 ↔ ∀ i t y, out.get? i t = some y → y = 0) :=
  noCredit_iff_nonzeroStd RLSDConfig.validate_default rfl rfl (fun m h => by cases h) true
    rewardsInside_failedResponses (by decide) (by decide) 2

end neutral

end ExtpiRlsd
