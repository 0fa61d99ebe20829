import ExtpiRlsd.Scorer

/-! # The prefix guard and the logit positions

What the guard of `scorer.py` lets through, and what it makes true of the columns that
`build_causal_score_inputs` hands to the gather.

The three checks of the guard together accept the masks with a column in which every row is
false entries followed by at least one true entry (`assertLeftPaddedPrefixMask_accepts_iff`).  A
mask without columns has no column `prefix_width - 1` and is refused, also where it has no rows.

Behind an accepted prefix and before a right-padded response row, column `prefixWidth - 1 + t`
of the joined input holds the token before response token `t`, is attended and comes one
position before it (`prefixGuard_logitPositions`). -/

namespace ExtpiRlsd

open Tensors Masks

variable {Tok : Type}

/-- The token before response token `t`: the last one of the prefix, or response token `t - 1`. -/
def precedingToken (prefixTokens response : List Tok) : ℕ → Option Tok
  | 0 => prefixTokens.getLast?
  | t + 1 => response[t]?

/-- In row `i` of the joined input column `k` holds response token `t`; column `j` holds the token
before it, is attended and carries the position id before. -/
structure PrecedesToken (inputs : JoinedInputs Tok) (prefixTokens response : List Tok)
    (i t j k : ℕ) : Prop where
  token : ∃ v, precedingToken prefixTokens response t = some v ∧ inputs.inputIds.get? i j = some v
  attended : inputs.attentionMask.get? i j = some true
  response : ∃ v, response[t]? = some v ∧ inputs.inputIds.get? i k = some v
  position : ∃ n, inputs.positionIds.get? i j = some n ∧ inputs.positionIds.get? i k = some (n + 1)

/-- For every valid response column the logit position is the column of the token before. -/
def LogitPositionsPrecede (prefixInputIds : Tensor Tok) (prefixAttentionMask : Tensor Bool)
    (responseIds : Tensor Tok) (responseMask : Tensor Bool) (out : CausalScoreInputs Tok) : Prop :=
  ∀ i t, responseMask.get? i t = some true → ∃ p pm r j,
    prefixInputIds.rows[i]? = some p ∧ prefixAttentionMask.rows[i]? = some pm ∧
    responseIds.rows[i]? = some r ∧ out.responseLogitPositions.get? i t = some j ∧
    PrecedesToken out.toJoinedInputs (select pm p) r i t j (prefixInputIds.cols + t)

/-! ### Columns of a joined row -/

section columns
variable {p r : List Tok} {pm rm : List Bool} {t : ℕ}

/-- The column before response column `t` is attended. -/
theorem joined_attended (hpm : LeftPadded pm) (hrm : RightPadded rm) (ht : rm[t]? = some true) :
    (pm ++ rm)[pm.length - 1 + t]? = some true := by
  have hlast : pm[pm.length - 1]? = some true := by rw [← List.getLast?_eq_getElem?, hpm.getLast?]
  cases t with
  | zero =>
      have hlt : pm.length - 1 < pm.length := (List.getElem?_eq_some_iff.mp hlast).1
      rw [Nat.add_zero, List.getElem?_append_left hlt, hlast]
  | succ t =>
      have hlt : pm.length - 1 < pm.length := (List.getElem?_eq_some_iff.mp hlast).1
      have hcol : pm.length - 1 + (t + 1) = pm.length + t := by omega
      rw [hcol, List.getElem?_append_right (Nat.le_add_right _ _), Nat.add_sub_cancel_left]
      exact hrm.of_getElem? ht (Nat.le_succ t)

/-- The column before response column `t` holds the token before response token `t`. -/
theorem joined_precedingToken (padTokenId : Tok) (hpm : LeftPadded pm) (hlen : pm.length = p.length)
    (hrm : RightPadded rm) (ht : rm[t]? = some true) :
    (p ++ fill padTokenId rm r)[p.length - 1 + t]? = precedingToken (select pm p) r t := by
  have hpos : 0 < pm.length := Nat.lt_of_lt_of_le hpm.count_pos List.count_le_length
  cases t with
  | zero =>
      rw [Nat.add_zero, List.getElem?_append_left (by omega), precedingToken,
        hpm.getLast?_select hlen, List.getLast?_eq_getElem?]
  | succ t =>
      have hcol : p.length - 1 + (t + 1) = p.length + t := by omega
      rw [hcol, List.getElem?_append_right (Nat.le_add_right _ _), Nat.add_sub_cancel_left]
      exact getElem?_fill padTokenId r (hrm.of_getElem? ht (Nat.le_succ t))

/-- Up to a column with `t` response columns before it the joined mask counts `t` of them. -/
theorem count_joined_take (pm : List Bool) (hcount : (rm.take t).count true = t) :
    ((pm ++ rm).take (pm.length + t)).count true = pm.count true + t := by
  rw [List.take_length_add_append, List.count_append, hcount]

/-- The position ids of a valid response column and of the column before it. -/
theorem joined_positions (hpm : LeftPadded pm) (hrm : RightPadded rm) (ht : rm[t]? = some true) :
    (ranks 0 (pm ++ rm))[pm.length - 1 + t]? = some (pm.count true + t - 1) ∧
      (ranks 0 (pm ++ rm))[pm.length + t]? = some (pm.count true + t) := by
  have hlt : t < rm.length := (List.getElem?_eq_some_iff.mp ht).1
  have hpos : 0 < pm.length := Nat.lt_of_lt_of_le hpm.count_pos List.count_le_length
  have hbefore := count_joined_take pm (hrm.count_take ht)
  have hafter : ((pm ++ rm).take (pm.length + (t + 1))).count true = pm.count true + (t + 1) := by
    refine count_joined_take pm ?_
    rw [List.take_add_one, ht, List.count_append, hrm.count_take ht]
    rfl
  constructor
  · rw [getElem?_ranks 0 (by rw [List.length_append]; omega)]
    have hcol : pm.length - 1 + t + 1 = pm.length + t := by omega
    rw [hcol, hbefore, Nat.zero_add]
  · rw [getElem?_ranks 0 (by rw [List.length_append]; omega), Nat.add_assoc, hafter, Nat.zero_add]
    rfl

end columns

/-! ### The positions -/

/-- Behind a left-padded prefix row and before a right-padded response row every valid column
is preceded by column `prefixWidth - 1 + t`. -/
theorem joinPrefix_precedesToken {padTokenId : Tok} {prefixIds responses : Tensor Tok}
    {prefixMask responseMask : Tensor Bool} {i t : ℕ} {p r : List Tok} {pm rm : List Bool} {v : Tok}
    (hp : prefixIds.rows[i]? = some p) (hpm : prefixMask.rows[i]? = some pm)
    (hr : responses.rows[i]? = some r) (hrm : responseMask.rows[i]? = some rm)
    (hlen : pm.length = p.length) (hleft : LeftPadded pm) (hright : RightPadded rm)
    (ht : rm[t]? = some true) (hv : r[t]? = some v) :
    PrecedesToken (joinPrefix padTokenId prefixIds prefixMask responses responseMask) (select pm p) r
      i t (prefixIds.cols - 1 + t) (prefixIds.cols + t) := by
  have hwidth : p.length = prefixIds.cols := Tensor.length_of_getElem? hp
  have hbefore := joined_precedingToken padTokenId (r := r) hleft hlen hright ht
  have hattended := joined_attended hleft hright ht
  obtain ⟨hpos, hnext⟩ := joined_positions hleft hright ht
  rw [hwidth] at hbefore
  rw [hlen, hwidth] at hattended hpos hnext
  have hresponse : (p ++ fill padTokenId rm r)[prefixIds.cols + t]? = some v := by
    rw [← hwidth, List.getElem?_append_right (Nat.le_add_right _ _), Nat.add_sub_cancel_left,
      getElem?_fill padTokenId r ht, hv]
  constructor
  · have hlt : prefixIds.cols - 1 + t < (p ++ fill padTokenId rm r).length := by
      have := (List.getElem?_eq_some_iff.mp hresponse).1
      omega
    have hget := List.getElem?_eq_getElem hlt
    refine ⟨_, hbefore.symm.trans hget, ?_⟩
    rw [Tensor.get?, joinPrefix_ids hp hr hrm, Option.bind_some, hget]
  · rw [Tensor.get?, joinPrefix_attention hpm hrm, Option.bind_some, hattended]
  · refine ⟨v, hv, ?_⟩
    rw [Tensor.get?, joinPrefix_ids hp hr hrm, Option.bind_some, hresponse]
  · have hcount := hleft.count_pos
    refine ⟨pm.count true + t - 1, ?_, ?_⟩
    · rw [Tensor.get?, joinPrefix_positions hpm hrm, Option.bind_some, hpos]
    · have hsucc : pm.count true + t - 1 + 1 = pm.count true + t := by omega
      rw [Tensor.get?, joinPrefix_positions hpm hrm, Option.bind_some, hnext, hsucc]

/-- **The logit positions.**  The guard accepts exactly the masks with a column whose rows are
false entries followed by at least one true entry; and where the inputs are built for right-padded
responses, every valid column is scored at the column of the token before. -/
theorem prefixGuard_logitPositions :
    (∀ mask : Tensor Bool, assertLeftPaddedPrefixMask mask = .ok () ↔
      mask.cols ≠ 0 ∧ ∀ r ∈ mask.rows, LeftPadded r) ∧
    ∀ (prefixInputIds : Tensor Tok) (prefixAttentionMask : Tensor Bool) (responseIds : Tensor Tok)
      (responseMask : Tensor Bool) (padTokenId : Tok) (out : CausalScoreInputs Tok),
      buildCausalScoreInputs prefixInputIds prefixAttentionMask responseIds responseMask
        padTokenId = .ok out →
      (∀ m ∈ responseMask.rows, RightPadded m) →
      LogitPositionsPrecede prefixInputIds prefixAttentionMask responseIds responseMask out := by
  refine ⟨assertLeftPaddedPrefixMask_accepts_iff, ?_⟩
  intro prefixIds prefixMask responses responseMask padTokenId out h hright i t hvalid
  obtain ⟨hpre, hresponse, hrows, hguard, rfl⟩ := buildCausalScoreInputs_eq_ok_iff.mp h
  obtain ⟨-, hleft⟩ := (assertLeftPaddedPrefixMask_accepts_iff prefixMask).mp hguard
  -- the rows at `i`
  obtain ⟨rm, hrm, ht⟩ := Tensor.get?_eq_some_iff.mp hvalid
  obtain ⟨v, hv⟩ := Tensor.exists_get?_of_shape hresponse.symm hvalid
  obtain ⟨r, hr, hv⟩ := Tensor.get?_eq_some_iff.mp hv
  have hi : i < responses.rows.length := (List.getElem?_eq_some_iff.mp hr).1
  have hip : i < prefixIds.rows.length := Nat.lt_of_lt_of_eq hi hrows.symm
  have hipm : i < prefixMask.rows.length := Nat.lt_of_lt_of_eq hip (congrArg Prod.fst hpre)
  have hp := List.getElem?_eq_getElem hip
  have hpm := List.getElem?_eq_getElem hipm
  have hcol : t < responses.cols := by
    rw [← Tensor.length_of_getElem? hr]
    exact (List.getElem?_eq_some_iff.mp hv).1
  refine ⟨_, _, r, prefixIds.cols - 1 + t, hp, hpm, hr, ?_, ?_⟩
  · rw [Tensor.get?_expand (n := responses.shape.1) hi, List.getElem?_range' hcol, Nat.one_mul]
  · exact joinPrefix_precedesToken hp hpm hr hrm (Tensor.length_eq_of_shape hpre hp hpm).symm
      (hleft _ (List.mem_of_getElem? hpm)) (hright rm (List.mem_of_getElem? hrm)) ht hv

/-- Two prefixes, one of them padded, before two responses, one of them padded. -/
theorem prefixGuard_logitPositions_two_rows :
    ∃ out, buildCausalScoreInputs ⟨3, [[0, 11, 12], [21, 22, 23]], by decide⟩
        ⟨3, [[false, true, true], [true, true, true]], by decide⟩ ⟨2, [[5, 6], [7, 8]], by decide⟩
        ⟨2, [[true, true], [true, false]], by decide⟩ (0 : ℕ) = .ok out ∧
      out.responseLogitPositions.rows = [[2, 3], [2, 3]] ∧
      LogitPositionsPrecede ⟨3, [[0, 11, 12], [21, 22, 23]], by decide⟩
        ⟨3, [[false, true, true], [true, true, true]], by decide⟩ ⟨2, [[5, 6], [7, 8]], by decide⟩
        ⟨2, [[true, true], [true, false]], by decide⟩ out := by
  refine ⟨_, rfl, rfl, ?_⟩
  refine prefixGuard_logitPositions.2 _ _ _ _ 0 _ rfl ?_
  simp only [List.mem_cons, List.not_mem_nil, or_false, forall_eq_or_imp, forall_eq]
  exact ⟨⟨2, 0, rfl⟩, ⟨1, 1, rfl⟩⟩

/-- The mask without rows and columns has only rows of the form, and is refused. -/
theorem assertLeftPaddedPrefixMask_no_columns :
    ¬ (assertLeftPaddedPrefixMask ⟨0, [], by decide⟩ = .ok () ↔
      ∀ r ∈ (⟨0, [], by decide⟩ : Tensor Bool).rows, LeftPadded r) := by
  intro h
  have hrefused : assertLeftPaddedPrefixMask ⟨0, [], by decide⟩ = .error .noColumns := rfl
  have haccepted := h.mpr (by simp)
  rw [hrefused] at haccepted
  cases haccepted

end ExtpiRlsd
