import ExtpiRlsd.GrpoAdvantages
import ExtpiRlsd.PolicyLoss

/-! # Groups without a signal

In an even batch every response scores the mean of its group.  Its advantages are zero, RLSD leaves
them so, and the policy-gradient term of `ppo_loss` is zero for every policy: what is left of the
loss of a micro-batch are its entropy and its KL term (`ppoLoss_of_evenGroups`). -/

namespace ExtpiRlsd

open Checked Tensors

/-! ### Zero advantages -/

/-- Every entry is zero. -/
def IsZero (x : Tensor ℝ) : Prop := ∀ i t y, x.get? i t = some y → y = 0

/-- Every response scores the mean of its group. -/
def OutcomeBatch.EvenGroups (b : OutcomeBatch ℝ) : Prop :=
  ∀ (i : ℕ) uid s, b.uid[i]? = some uid → b.scores[i]? = some s →
    s = groupMean (b.id2score uid)

theorem isZero_computeAdvantage {b : OutcomeBatch ℝ} (h : b.EvenGroups) (norm : Bool) :
    IsZero (computeAdvantage norm b).1 := by
  intro i t y hy
  obtain ⟨valid, hvalid⟩ := Tensor.exists_get?_of_shape (shape_computeAdvantage norm b) hy
  obtain ⟨row, hrow, -⟩ := Tensor.get?_eq_some_iff.mp hvalid
  have hlt := (List.getElem?_eq_some_iff.mp hrow).1
  have hs := List.getElem?_eq_getElem (hlt.trans_eq b.length_scores.symm)
  have huid := List.getElem?_eq_getElem
    (hlt.trans_eq (b.length_uid.trans b.length_mask.symm).symm)
  have hepsilon : (0 : ℝ) < 1e-6 := by norm_num
  have hzero := (groupScore_sign hepsilon norm _ _).2.2.mpr (h i _ _ huid hs)
  rw [get?_computeAdvantage norm huid hs hvalid, hzero, zero_mul] at hy
  exact (Option.some.inj hy).symm

theorem RlsdBatch.isZero_run {config : RLSDConfig ℝ} {b : RlsdBatch} {out : Tensor ℝ}
    {metrics : RlsdMetrics ℝ} (hzero : IsZero b.advantages)
    (h : b.run config = .ok (out, metrics)) : IsZero out := by
  obtain ⟨_, hv, -⟩ := do_eq_ok_iff.mp h
  obtain ⟨out', metrics', hout, hbounded⟩ := computeRlsdAdvantages_bounded hv b.shapes
  obtain ⟨rfl, rfl⟩ := Prod.mk.inj (Except.ok.inj (hout.symm.trans h))
  intro i t y hy
  obtain ⟨valid, hvalid⟩ := Tensor.exists_get?_of_shape hbounded.shape hy
  cases valid with
  | false => exact Option.some.inj (hy.symm.trans (hbounded.masked i t hvalid))
  | true =>
      obtain ⟨a, ha⟩ := Tensor.exists_get?_of_shape b.shapes.advantages.symm hvalid
      exact (hbounded.sign i t a y hvalid ha hy).2.2.mpr (hzero i t a ha)

section loss
variable {config : ActorLossConfig ℝ} {columns : PolicyColumns} {tokens : Tensor (PolicyToken ℝ)}
  {advantages : Tensor ℝ}

/-- Without a signal the advantages behind the credit of `ppo_loss` are zero, too. -/
theorem isZero_creditAdvantages (hopd : config.opdPgEnabled = false)
    (hzero : IsZero (tokens.map PolicyToken.advantage))
    (h : creditAdvantages config columns tokens = .ok advantages) : IsZero advantages := by
  rw [creditAdvantages, hopd] at h
  cases hrlsd : config.rlsdEnabled with
  | false =>
      rw [hrlsd] at h
      obtain rfl := Except.ok.inj h
      exact hzero
  | true =>
      rw [hrlsd] at h
      have h : rlsdCredit config columns tokens = .ok advantages := h
      rcases rlsdCredit_cases config columns with ⟨e, he⟩ | ⟨student, hrun⟩
      · rw [he] at h
        cases h
      · rw [hrun] at h
        cases hout : (rlsdInputs student columns tokens).run config.rlsdConfig with
        | error e =>
            rw [hout] at h
            cases h
        | ok result =>
            rw [hout] at h
            obtain rfl := Except.ok.inj h
            exact RlsdBatch.isZero_run hzero hout

/-! ### The policy-gradient term -/

theorem vanillaTokenLoss_zero (config : ActorLossConfig ℝ) (tok : PolicyToken ℝ) :
    vanillaTokenLoss config tok 0 = 0 := by
  simp [vanillaTokenLoss]

theorem lossMatrix_zero (config : ActorLossConfig ℝ) (tokens : Tensor (PolicyToken ℝ))
    (h : IsZero advantages) :
    ∀ r ∈ (lossMatrix (vanillaTokenLoss config) tokens advantages).rows, ∀ p ∈ r, p.1 = 0 := by
  intro r hr p hp
  obtain ⟨i, hi⟩ := List.mem_iff_getElem?.mp hr
  obtain ⟨t, ht⟩ := List.mem_iff_getElem?.mp hp
  have hget := Tensor.get?_eq_some_iff.mpr ⟨r, hi, ht⟩
  rw [lossMatrix, Tensor.get?_map₂, Option.map₂_eq_some_iff] at hget
  obtain ⟨tok, a, -, ha, rfl⟩ := hget
  rw [h i t a ha]
  exact vanillaTokenLoss_zero config tok

theorem rowLoss_eq_zero {r : List (ℝ × Bool)} (h : ∀ p ∈ r, p.1 = 0) (mode : String)
    (N G scale : ℕ) : rowLoss mode N G scale r = 0 := by
  have hsum : tokenSum r = 0 := by
    refine List.sum_eq_zero (List.forall_mem_map.mpr fun p hp => ?_)
    rw [h p hp, ite_self]
  have hseq : seqLoss mode r = 0 := by
    unfold seqLoss
    rw [hsum, zero_div, ite_self]
  unfold rowLoss
  rw [hsum, hseq, zero_div, zero_div, zero_div, ite_self, ite_self]

theorem aggLoss_eq_zero {loss : Tensor (ℝ × Bool)} {mode : String} {d N G : ℕ} {s : Option ℕ}
    {total : ℝ} (hzero : ∀ r ∈ loss.rows, ∀ p ∈ r, p.1 = 0)
    (h : aggLoss loss mode ⟨d, some N, some G, s⟩ = .ok total) : total = 0 := by
  by_cases hmode : mode ∈ aggModes
  · rw [aggLoss_eq_ok hmode] at h
    have hrows : (loss.rows.map (rowLoss mode N G (s.getD loss.cols))).sum = 0 :=
      List.sum_eq_zero (List.forall_mem_map.mpr fun r hr => rowLoss_eq_zero (hzero r hr) _ _ _ _)
    rw [← Except.ok.inj h, hrows, zero_mul]
  · rw [aggLoss_eq_error hmode] at h
    cases h

/-- **Even groups give no policy gradient.**  For every part of an even batch, whatever the old and
the new policy and the teacher say of its tokens, the loss is that of its entropy and its KL term
alone. -/
theorem ppoLoss_of_evenGroups {b : OutcomeBatch ℝ} (heven : b.EvenGroups) (norm : Bool)
    (hopd : config.opdPgEnabled = false)
    (htokens : ∀ i t tok, tokens.get? i t = some tok →
      ∃ j u, (computeAdvantage norm b).1.get? j u = some tok.advantage)
    {d N G : ℕ} {s : Option ℕ} {loss : ℝ}
    (h : ppoLoss config columns ⟨d, some N, some G, s⟩ tokens = .ok loss) :
    ∃ advantages entropy kl,
      entropyLoss config columns ⟨d, some N, some G, s⟩ tokens advantages = .ok entropy ∧
      klLoss config ⟨d, some N, some G, s⟩ tokens advantages = .ok kl ∧
      loss = kl * config.klLossCoef - config.entropyCoeff * entropy := by
  have hzero : IsZero (tokens.map PolicyToken.advantage) := by
    intro i t y hy
    rw [Tensor.get?_map, Option.map_eq_some_iff] at hy
    obtain ⟨tok, htok, rfl⟩ := hy
    obtain ⟨j, u, hentry⟩ := htokens i t tok htok
    exact isZero_computeAdvantage heven norm j u _ hentry
  obtain ⟨advantages, hcredit, h⟩ := do_eq_ok_iff.mp h
  by_cases hclip : 1.0 < config.clipRatioC
  · rw [if_neg (not_not.mpr hclip)] at h
    obtain ⟨pgLoss, hpg, h⟩ := do_eq_ok_iff.mp h
    obtain ⟨entropy, hentropy, h⟩ := do_eq_ok_iff.mp h
    obtain ⟨kl, hkl, h⟩ := do_eq_ok_iff.mp h
    have hpgZero := aggLoss_eq_zero
      (lossMatrix_zero config tokens (isZero_creditAdvantages hopd hzero hcredit)) hpg
    refine ⟨advantages, entropy, kl, hentropy, hkl, ?_⟩
    rw [← Except.ok.inj h, hpgZero]
    ring
  · rw [if_pos hclip] at h
    cases h

/-- A policy loss without entropy. -/
noncomputable def policyOnly : ActorLossConfig ℝ where
  clipRatio := 0.2
  clipRatioLow := none
  clipRatioHigh := none
  clipRatioC := 1 + 1
  lossAggMode := "token-mean"
  entropyCoeff := 0
  useKlLoss := false
  klLossCoef := 0
  klLossType := "low_var_kl"
  rlsdEnabled := false
  rlsdDeltaSource := "current"
  rlsdConfig := ⟨0, 0, false⟩
  opdPgEnabled := false
  opdLogratioClipAbs := 1

theorem evenGroups_failedResponses : failedResponses.EvenGroups := by
  intro i uid s huid hs
  have hscores : ∀ s ∈ failedResponses.scores, s = 0 := by
    simp [failedResponses, OutcomeBatch.scores, Tensor.rowSums]
  have hgroup : ∀ s ∈ failedResponses.id2score uid, s = 0 := by
    intro s hs
    obtain ⟨j, -, hj⟩ := OutcomeBatch.mem_id2score.mp hs
    exact hscores s (List.mem_of_getElem? hj)
  have hmean : groupMean (failedResponses.id2score uid) = 0 := by
    unfold groupMean listMean
    rw [List.sum_eq_zero hgroup, zero_div, ite_self]
  rw [hmean]
  exact hscores s (List.mem_of_getElem? hs)

/-- A token that both policies rate differently, without an advantage. -/
noncomputable def failedToken : PolicyToken ℝ := ⟨-1, -1 - 1, 0, 0, 0, 1, 0, 0, 0, true⟩

theorem advantage_failedResponses :
    (computeAdvantage true failedResponses).1.get? 0 0 = some failedToken.advantage := by
  have hvalid : failedResponses.responseMask.get? 0 0 = some true := rfl
  obtain ⟨a, ha⟩ :=
    Tensor.exists_get?_of_shape (shape_computeAdvantage true failedResponses).symm hvalid
  rw [ha, isZero_computeAdvantage evenGroups_failedResponses true 0 0 a ha]
  rfl

theorem ppoLoss_of_failedResponses : ∃ loss advantages entropy kl,
    ppoLoss policyOnly ⟨false, false, false, false⟩ ⟨1, some 2, some 2, none⟩
      ⟨1, [[failedToken], [failedToken]], by simp⟩ = .ok loss ∧
    entropyLoss policyOnly ⟨false, false, false, false⟩ ⟨1, some 2, some 2, none⟩
      ⟨1, [[failedToken], [failedToken]], by simp⟩ advantages = .ok entropy ∧
    klLoss policyOnly ⟨1, some 2, some 2, none⟩ ⟨1, [[failedToken], [failedToken]], by simp⟩
      advantages = .ok kl ∧
    loss = kl * policyOnly.klLossCoef - policyOnly.entropyCoeff * entropy := by
  have hclip : (1.0 : ℝ) < policyOnly.clipRatioC := by norm_num [policyOnly]
  have hloss : ∃ loss, ppoLoss policyOnly ⟨false, false, false, false⟩ ⟨1, some 2, some 2, none⟩
      ⟨1, [[failedToken], [failedToken]], by simp⟩ = .ok loss := by
    simp only [ppoLoss, creditAdvantages, entropyLoss, klLoss, policyOnly] at hclip ⊢
    exact ⟨_, by simp [hclip, aggLoss, globalNumber]; rfl⟩
  obtain ⟨loss, hloss⟩ := hloss
  obtain ⟨advantages, entropy, kl, hentropy, hkl, heq⟩ :=
    ppoLoss_of_evenGroups evenGroups_failedResponses true rfl (fun i t tok htok => by
      obtain ⟨row, hrow, ht⟩ := Tensor.get?_eq_some_iff.mp htok
      have hmem : row = [failedToken] := by simpa using List.mem_of_getElem? hrow
      rw [hmem] at ht
      obtain rfl := List.mem_singleton.mp (List.mem_of_getElem? ht)
      exact ⟨0, 0, advantage_failedResponses⟩) hloss
  exact ⟨loss, advantages, entropy, kl, hloss, hentropy, hkl, heq⟩

end loss

end ExtpiRlsd
