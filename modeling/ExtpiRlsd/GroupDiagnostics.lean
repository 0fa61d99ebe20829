import ExtpiRlsd.Lib.Grouping
import ExtpiRlsd.Lib.PyText
import ExtpiRlsd.Lib.Scalar

/-! # Group diagnostics

`_group_diagnostic_metrics` of `trainer.py`: the scores of a batch are grouped by their uid, or,
without uids, by consecutive rows of `rollout_n`, and three ratios over the groups are reported.
The scalar type is arbitrary, so that a score may be no number; the results are about real
scores.

The trainer reorders the rows of a batch, which changes nothing with uids
(`groupDiagnosticMetrics_perm`), and on whole contiguous groups both paths report the same
ratios (`groupDiagnosticMetrics_contiguous`). -/

namespace ExtpiRlsd

open Tensors PyText Grouping

/-! ### Definitions -/

section definitions
variable {α : Type*} [LT α] [DecidableLT α] [LE α] [DecidableLE α] [Zero α] [One α] [Add α] [Sub α]
  [Mul α] [Div α] [NatCast α] [Scalar α]

/-- `mean` of a list of floats. -/
def listMean (xs : List α) : α := xs.sum / (xs.length : α)

/-- `std(unbiased=False)`. -/
def populationStd (xs : List α) : α :=
  let center := listMean xs
  Scalar.sqrt (listMean (xs.map fun x => (x - center) * (x - center)))

/-- A group of rows that all meet a condition counts 1, another 0. -/
def groupFlag (holds : Bool) : α := if holds then 1 else 0

/-- The three ratios over the groups of a batch. -/
structure GroupRatios (α : Type*) where
  nonzeroStd : α
  allCorrect : α
  allWrong : α

/-- The ratios of some groups; the two paths differ in the test of a wrong score. -/
def groupRatios (wrong : α → Bool) (groups : List (List α)) : GroupRatios α where
  nonzeroStd := listMean (groups.map fun group => groupFlag (decide (0 < populationStd group)))
  allCorrect := listMean (groups.map fun group => groupFlag (group.all fun s => decide (1 ≤ s)))
  allWrong := listMean (groups.map fun group => groupFlag (group.all wrong))

/-- The reported metrics: the mismatch flag, nothing, or the ratios. -/
inductive GroupMetrics (α : Type*) where
  | uidMismatch
  | empty
  | ratios (r : GroupRatios α)

/-- The rows of a vector viewed with `rolloutN` columns; a last incomplete row is cut. -/
def contiguousGroups (rolloutN : ℕ) (scores : List α) : List (List α) :=
  (List.range (scores.length / rolloutN)).map fun i => (scores.drop (i * rolloutN)).take rolloutN

/-- The groups of at least two scores with one uid. -/
def uidGroups (uids : List PyStr) (scores : List α) : List (List α) :=
  ((collect (uids.zip scores)).map Prod.snd).filter fun values => decide (2 ≤ values.length)

/-- `_group_diagnostic_metrics`: the metrics, whether uids were seen, and whether the metrics are
ready. -/
def groupDiagnosticMetrics (scores : List α) (uids : Option (List PyStr)) (rolloutN : ℤ) :
    GroupMetrics α × Bool × Bool :=
  match uids with
  | some uids =>
      if uids.length ≠ scores.length then (.uidMismatch, true, false)
      else
        let groups := uidGroups uids scores
        if groups = [] then (.empty, true, true)
        else (.ratios (groupRatios (fun s => decide (s < 1)) groups), true, true)
  | none =>
      if rolloutN ≤ 0 then (.empty, false, false)
      else if scores.length / rolloutN.toNat * rolloutN.toNat = 0 then (.empty, false, false)
      else
        let grouped := contiguousGroups rolloutN.toNat scores
        (.ratios (groupRatios (fun s => !decide (1 ≤ s)) grouped), false, true)

end definitions

/-! ### Statistics of a list -/

theorem listMean_perm {xs ys : List ℝ} (h : xs.Perm ys) : listMean xs = listMean ys := by
  rw [listMean, listMean, h.sum_eq, h.length_eq]

theorem populationStd_perm {xs ys : List ℝ} (h : xs.Perm ys) :
    populationStd xs = populationStd ys := by
  simp only [populationStd, listMean_perm h, listMean_perm (h.map _)]

/-- A list without deviation is constant. -/
theorem eq_listMean_of_populationStd {xs : List ℝ} (h : ¬ 0 < populationStd xs) {x : ℝ}
    (hx : x ∈ xs) : x = listMean xs := by
  have hlength : 0 < (xs.length : ℝ) := by
    exact_mod_cast List.length_pos_of_mem hx
  have hsquares : ∀ y ∈ xs.map fun x => (x - listMean xs) * (x - listMean xs), 0 ≤ y := by
    intro y hy
    obtain ⟨z, -, rfl⟩ := List.mem_map.mp hy
    exact mul_self_nonneg _
  have hvariance : listMean (xs.map fun x => (x - listMean xs) * (x - listMean xs)) ≤ 0 := by
    by_contra hpos
    exact h (Real.sqrt_pos.mpr (not_le.mp hpos))
  have hsum : (xs.map fun x => (x - listMean xs) * (x - listMean xs)).sum ≤ 0 := by
    rw [listMean, List.length_map] at hvariance
    by_contra hpos
    exact absurd hvariance (not_le.mpr (div_pos (not_le.mp hpos) hlength))
  have hterm : (x - listMean xs) * (x - listMean xs) ≤ 0 :=
    (List.single_le_sum hsquares _ (List.mem_map_of_mem hx)).trans hsum
  have hzero : x - listMean xs = 0 :=
    mul_self_eq_zero.mp (le_antisymm hterm (mul_self_nonneg _))
  exact sub_eq_zero.mp hzero

/-- A group that is neither all correct nor all wrong has a non-zero deviation. -/
theorem populationStd_pos_of_mixed {group : List ℝ} (hcorrect : ¬ ∀ s ∈ group, 1 ≤ s)
    (hwrong : ¬ ∀ s ∈ group, s < 1) : 0 < populationStd group := by
  by_contra h
  rcases le_or_gt 1 (listMean group) with hmean | hmean
  · apply hcorrect
    intro s hs
    rw [eq_listMean_of_populationStd h hs]
    exact hmean
  · apply hwrong
    intro s hs
    rw [eq_listMean_of_populationStd h hs]
    exact hmean

/-! ### The ratios -/

theorem not_one_le_eq (s : ℝ) : (!decide (1 ≤ s)) = decide (s < 1) := by
  by_cases h : s < 1
  · simp [h]
  · simp [h, not_lt.mp h]

/-- Over the reals both paths test a wrong score alike. -/
theorem groupRatios_not_one_le (groups : List (List ℝ)) :
    groupRatios (fun s => !decide (1 ≤ s)) groups = groupRatios (fun s => decide (s < 1)) groups := by
  simp only [not_one_le_eq]

/-- Every group deviates, or is all correct or all wrong. -/
theorem one_le_groupFlags (group : List ℝ) :
    (1 : ℝ) ≤ groupFlag (decide (0 < populationStd group)) +
      (groupFlag (group.all fun s => decide (1 ≤ s)) +
        groupFlag (group.all fun s => decide (s < 1))) := by
  have hnonneg : ∀ b : Bool, (0 : ℝ) ≤ groupFlag b := by
    intro b
    cases b
    · exact le_rfl
    · exact zero_le_one
  have hone : ∀ b : Bool, b = true → (groupFlag b : ℝ) = 1 := by
    rintro b rfl
    rfl
  by_cases hcorrect : ∀ s ∈ group, 1 ≤ s
  · rw [hone (group.all _) (by simpa using hcorrect)]
    linarith [hnonneg (decide (0 < populationStd group)),
      hnonneg (group.all fun s => decide (s < 1))]
  · by_cases hwrong : ∀ s ∈ group, s < 1
    · rw [hone (group.all fun s => decide (s < 1)) (by simpa using hwrong)]
      linarith [hnonneg (decide (0 < populationStd group)),
        hnonneg (group.all fun s => decide (1 ≤ s))]
    · rw [hone (decide _) (decide_eq_true (populationStd_pos_of_mixed hcorrect hwrong))]
      linarith [hnonneg (group.all fun s => decide (1 ≤ s)),
        hnonneg (group.all fun s => decide (s < 1))]

/-- A mean of flags that sum to at least one everywhere. -/
theorem one_le_listMean {β : Type*} {xs : List β} {f g h : β → ℝ} (hne : xs ≠ [])
    (hpoint : ∀ x ∈ xs, 1 ≤ f x + (g x + h x)) :
    1 ≤ listMean (xs.map f) + (listMean (xs.map g) + listMean (xs.map h)) := by
  have hlength : 0 < (xs.length : ℝ) := by
    exact_mod_cast List.length_pos_of_ne_nil hne
  have hsum : (xs.map fun _ => (1 : ℝ)).sum ≤ (xs.map fun x => f x + (g x + h x)).sum :=
    List.sum_le_sum hpoint
  rw [List.sum_map_add, List.sum_map_add] at hsum
  simp only [List.map_const', List.sum_replicate, nsmul_eq_mul, mul_one] at hsum
  simp only [listMean, List.length_map]
  rw [← add_div, ← add_div, le_div_iff₀ hlength, one_mul]
  exact hsum

/-- **The ratios are consistent**: groups that are neither all correct nor all wrong are counted
as deviating. -/
theorem one_le_groupRatios {groups : List (List ℝ)} (hne : groups ≠ []) :
    1 - (groupRatios (fun s => decide (s < 1)) groups).nonzeroStd ≤
      (groupRatios (fun s => decide (s < 1)) groups).allCorrect +
        (groupRatios (fun s => decide (s < 1)) groups).allWrong := by
  rw [sub_le_iff_le_add']
  exact one_le_listMean hne fun group _ => one_le_groupFlags group

/-! ### Reordered rows -/

theorem uidGroups_flag_perm {f : List ℝ → ℝ} (hf : ∀ {xs ys : List ℝ}, xs.Perm ys → f xs = f ys)
    {rows rows' : List (PyStr × ℝ)} (h : rows.Perm rows') :
    ((uidGroups (rows.map Prod.fst) (rows.map Prod.snd)).map f).Perm
      ((uidGroups (rows'.map Prod.fst) (rows'.map Prod.snd)).map f) := by
  rw [uidGroups, uidGroups, ← List.zip_of_prod rfl rfl, ← List.zip_of_prod rfl rfl]
  apply map_filter_collect_perm _ hf h
  intro xs ys hperm
  rw [hperm.length_eq]

/-- **Reordering** the rows with their uids changes no diagnostic. -/
theorem groupDiagnosticMetrics_perm {rows rows' : List (PyStr × ℝ)} (h : rows.Perm rows')
    (rolloutN : ℤ) :
    groupDiagnosticMetrics (rows.map Prod.snd) (some (rows.map Prod.fst)) rolloutN =
      groupDiagnosticMetrics (rows'.map Prod.snd) (some (rows'.map Prod.fst)) rolloutN := by
  have hratios : groupRatios (fun s => decide (s < 1))
      (uidGroups (rows.map Prod.fst) (rows.map Prod.snd)) =
      groupRatios (fun s => decide (s < 1))
        (uidGroups (rows'.map Prod.fst) (rows'.map Prod.snd)) := by
    have hstd := uidGroups_flag_perm (f := fun group => groupFlag (decide (0 < populationStd group)))
      (fun hperm => by rw [populationStd_perm hperm]) h
    have hcorrect := uidGroups_flag_perm
      (f := fun group => groupFlag (group.all fun s => decide (1 ≤ s)))
      (fun hperm => by rw [hperm.all_eq]) h
    have hwrong := uidGroups_flag_perm
      (f := fun group => groupFlag (group.all fun s => decide (s < 1)))
      (fun hperm => by rw [hperm.all_eq]) h
    rw [groupRatios, groupRatios, listMean_perm hstd, listMean_perm hcorrect, listMean_perm hwrong]
  have hempty : uidGroups (rows.map Prod.fst) (rows.map Prod.snd) = [] ↔
      uidGroups (rows'.map Prod.fst) (rows'.map Prod.snd) = [] := by
    have hlength := (uidGroups_flag_perm (f := fun _ => 0) (fun _ => rfl) h).length_eq
    rw [List.length_map, List.length_map] at hlength
    rw [← List.length_eq_zero_iff, hlength, List.length_eq_zero_iff]
  simp only [groupDiagnosticMetrics, List.length_map, ne_eq, not_true_eq_false, if_false, hempty,
    hratios]

/-! ### Whole contiguous groups -/

theorem zip_contiguous {n : ℕ} {groups : List (PyStr × List ℝ)}
    (h : ∀ g ∈ groups, g.2.length = n) :
    (groups.flatMap fun g => List.replicate n g.1).zip (groups.flatMap Prod.snd) =
      groups.flatMap fun g => g.2.map fun s => (g.1, s) := by
  induction groups with
  | nil => rfl
  | cons g groups ih =>
      have hlength := h g List.mem_cons_self
      rw [List.flatMap_cons, List.flatMap_cons, List.flatMap_cons,
        List.zip_append (by rw [List.length_replicate, hlength]),
        ih fun g' hg' => h g' (List.mem_cons_of_mem _ hg'), ← hlength]
      congr 1
      apply List.ext_getElem
      · simp
      · intro i h1 h2
        simp

theorem length_flatMap_of_length {n : ℕ} {groups : List (PyStr × List ℝ)}
    (h : ∀ g ∈ groups, g.2.length = n) : (groups.flatMap Prod.snd).length = groups.length * n := by
  rw [List.length_flatMap, List.map_congr_left h, List.map_const', List.sum_replicate,
    smul_eq_mul]

theorem uidGroups_contiguous {n : ℕ} {groups : List (PyStr × List ℝ)} (hn : 2 ≤ n)
    (hnodup : (groups.map Prod.fst).Nodup) (h : ∀ g ∈ groups, g.2.length = n) :
    uidGroups (groups.flatMap fun g => List.replicate n g.1) (groups.flatMap Prod.snd) =
      groups.map Prod.snd := by
  have hne : ∀ g ∈ groups, g.2 ≠ [] := by
    intro g hg hnil
    have hlength := h g hg
    rw [hnil, List.length_nil] at hlength
    omega
  rw [uidGroups, zip_contiguous h, collect_flatMap hnodup hne, List.filter_eq_self]
  intro values hvalues
  obtain ⟨g, hg, rfl⟩ := List.mem_map.mp hvalues
  rw [h g hg]
  exact decide_eq_true hn

theorem contiguousGroups_flatMap {n : ℕ} {groups : List (PyStr × List ℝ)} (hn : 0 < n)
    (h : ∀ g ∈ groups, g.2.length = n) :
    contiguousGroups n (groups.flatMap Prod.snd) = groups.map Prod.snd := by
  rw [contiguousGroups, length_flatMap_of_length h, Nat.mul_div_cancel _ hn]
  induction groups with
  | nil => rfl
  | cons g groups ih =>
      have hlength := h g List.mem_cons_self
      rw [List.length_cons, List.range_succ_eq_map, List.map_cons, List.map_map, List.flatMap_cons,
        List.map_cons, ← ih fun g' hg' => h g' (List.mem_cons_of_mem _ hg')]
      congr 1
      · rw [Nat.zero_mul, List.drop_zero, ← hlength, List.take_left']
        rfl
      · apply List.map_congr_left
        intro i _
        have hshift : (i + 1) * n = g.2.length + i * n := by
          rw [hlength, Nat.add_one_mul, Nat.add_comm]
        rw [Function.comp_apply, Nat.succ_eq_add_one, hshift, ← List.drop_drop,
          List.drop_left]

/-- **Whole contiguous groups** with one uid each: both paths report the same ratios. -/
theorem groupDiagnosticMetrics_contiguous {n : ℕ} {groups : List (PyStr × List ℝ)} (hn : 2 ≤ n)
    (hnodup : (groups.map Prod.fst).Nodup) (h : ∀ g ∈ groups, g.2.length = n)
    (hne : groups ≠ []) :
    ∃ r, groupDiagnosticMetrics (groups.flatMap Prod.snd)
        (some (groups.flatMap fun g => List.replicate n g.1)) n = (.ratios r, true, true) ∧
      groupDiagnosticMetrics (groups.flatMap Prod.snd) none n = (.ratios r, false, true) := by
  refine ⟨groupRatios (fun s => decide (s < 1)) (groups.map Prod.snd), ?_, ?_⟩
  · have huids : (groups.flatMap fun g => List.replicate n g.1).length =
        (groups.flatMap Prod.snd).length := by
      rw [length_flatMap_of_length h, List.length_flatMap]
      simp
    have hgroups : groups.map Prod.snd ≠ [] := by
      intro hnil
      exact hne (List.map_eq_nil_iff.mp hnil)
    rw [groupDiagnosticMetrics]
    simp only [huids, ne_eq, not_true_eq_false, if_false, uidGroups_contiguous hn hnodup h, hgroups]
  · have husable : groups.length * n / n * n ≠ 0 := by
      rw [Nat.mul_div_cancel _ (by omega)]
      exact Nat.mul_ne_zero (fun hlength => hne (List.length_eq_zero_iff.mp hlength)) (by omega)
    rw [groupDiagnosticMetrics]
    simp only [Int.toNat_natCast, length_flatMap_of_length h, if_neg husable,
      contiguousGroups_flatMap (Nat.lt_of_lt_of_le Nat.zero_lt_two hn) h, groupRatios_not_one_le]
    rw [if_neg (by omega)]

/-! ### Every report -/

/-- The reported ratios are those of some groups. -/
theorem exists_groups_of_ratios {scores : List ℝ} {uids : Option (List PyStr)} {rolloutN : ℤ}
    {r : GroupRatios ℝ} (h : (groupDiagnosticMetrics scores uids rolloutN).1 = .ratios r) :
    ∃ groups ≠ [], r = groupRatios (fun s => decide (s < 1)) groups := by
  cases uids with
  | some uids =>
      simp only [groupDiagnosticMetrics] at h
      split at h
      · cases h
      · split at h
        · cases h
        · next hne => exact ⟨_, hne, (GroupMetrics.ratios.inj h).symm⟩
  | none =>
      rw [groupDiagnosticMetrics] at h
      split at h
      · cases h
      · split at h
        · cases h
        · next husable =>
            refine ⟨_, ?_, ((GroupMetrics.ratios.inj h).symm.trans (groupRatios_not_one_le _))⟩
            intro hnil
            rw [contiguousGroups, List.map_eq_nil_iff, List.range_eq_nil] at hnil
            rw [hnil, Nat.zero_mul] at husable
            exact husable rfl

/-- **The diagnostics**: they do not depend on the order of the rows, both paths agree on whole
contiguous groups, and a group that is neither all correct nor all wrong counts as deviating. -/
theorem groupDiagnosticMetrics_consistent :
    (∀ (rows rows' : List (PyStr × ℝ)) (rolloutN : ℤ), rows.Perm rows' →
      groupDiagnosticMetrics (rows.map Prod.snd) (some (rows.map Prod.fst)) rolloutN =
        groupDiagnosticMetrics (rows'.map Prod.snd) (some (rows'.map Prod.fst)) rolloutN) ∧
    (∀ (n : ℕ) (groups : List (PyStr × List ℝ)), 2 ≤ n → (groups.map Prod.fst).Nodup →
      (∀ g ∈ groups, g.2.length = n) → groups ≠ [] →
        ∃ r, groupDiagnosticMetrics (groups.flatMap Prod.snd)
            (some (groups.flatMap fun g => List.replicate n g.1)) n = (.ratios r, true, true) ∧
          groupDiagnosticMetrics (groups.flatMap Prod.snd) none n = (.ratios r, false, true)) ∧
    (∀ group : List ℝ, (¬ ∀ s ∈ group, 1 ≤ s) → (¬ ∀ s ∈ group, s < 1) →
      0 < populationStd group) ∧
    (∀ (scores : List ℝ) (uids : Option (List PyStr)) (rolloutN : ℤ) (r : GroupRatios ℝ),
      (groupDiagnosticMetrics scores uids rolloutN).1 = .ratios r →
        1 - r.nonzeroStd ≤ r.allCorrect + r.allWrong) := by
  refine ⟨?_, ?_, ?_, ?_⟩
  · intro rows rows' rolloutN h
    exact groupDiagnosticMetrics_perm h rolloutN
  · intro n groups hn hnodup h hne
    exact groupDiagnosticMetrics_contiguous hn hnodup h hne
  · intro group hcorrect hwrong
    exact populationStd_pos_of_mixed hcorrect hwrong
  · intro scores uids rolloutN r h
    obtain ⟨groups, hne, rfl⟩ := exists_groups_of_ratios h
    exact one_le_groupRatios hne

/-- Two groups of two: one mixed, one all wrong. -/
theorem groupDiagnosticMetrics_consistent_pairs :
    (let rows : List (PyStr × ℝ) := [("a".toList, 1), ("a".toList, 0), ("b".toList, 0),
        ("b".toList, 0)]
      let rows' : List (PyStr × ℝ) := [("a".toList, 0), ("a".toList, 1), ("b".toList, 0),
        ("b".toList, 0)]
      groupDiagnosticMetrics (rows.map Prod.snd) (some (rows.map Prod.fst)) 2 =
        groupDiagnosticMetrics (rows'.map Prod.snd) (some (rows'.map Prod.fst)) 2) ∧
    (let groups : List (PyStr × List ℝ) := [("a".toList, [1, 0]), ("b".toList, [0, 0])]
      ∃ r, groupDiagnosticMetrics (groups.flatMap Prod.snd)
          (some (groups.flatMap fun g => List.replicate 2 g.1)) 2 = (.ratios r, true, true) ∧
        groupDiagnosticMetrics (groups.flatMap Prod.snd) none 2 = (.ratios r, false, true) ∧
        1 - r.nonzeroStd ≤ r.allCorrect + r.allWrong) ∧
    0 < populationStd ([1, 0] : List ℝ) := by
  have hconsistent := groupDiagnosticMetrics_consistent
  refine ⟨?_, ?_, ?_⟩
  · apply hconsistent.1
    exact List.Perm.swap _ _ _
  · obtain ⟨r, huids, hrollout⟩ := hconsistent.2.1 2
      [("a".toList, [1, 0]), ("b".toList, [0, 0])] (Nat.le_refl 2) (by decide) (by simp) (by simp)
    exact ⟨r, huids, hrollout, hconsistent.2.2.2 _ _ _ r (congrArg Prod.fst hrollout)⟩
  · exact hconsistent.2.2.1 [1, 0] (by simp) (by simp)

end ExtpiRlsd
