import ExtpiRlsd.ActorUpdate

/-! # The padded scorer against the packed one

Two paths give response log-probs under one causal language model: the padded scorer in
micro-batches, and the packed path of the actor.

On one joined batch they agree wherever the response mask is right padded (`inline_eq_packed`):
the column before a valid response column is attended, and the attended entries before it are
the packed entries before it.

A direct teacher that is the student itself is scored from a batch joined under the response
mask, while the student's old log-probs come from the rollout batch under its attention mask.
`directOpd_neutral_iff` says that the two agree for every model exactly when no response mask
row has a hole. -/

namespace ExtpiRlsd

open Tensors Masks Checked

variable {Tok : Type}

/-- The two results have log-probs that agree where the mask is true, or neither has any and the
mask has no rows. -/
def SameOnValid {ε ε' : Type} (m : Tensor Bool) : Except ε (Tensor ℝ) → Except ε' (Tensor ℝ) → Prop
  | .ok x, .ok y => x.shape = m.shape ∧ y.shape = m.shape ∧
      ∀ i t, m.get? i t = some true → x.get? i t = y.get? i t
  | .error _, .error _ => m.rows = []
  | _, _ => False

/-! ### The column before a valid response column -/

/-- Behind a left-padded prefix and under a right-padded response mask, the column before a valid
response column is attended. -/
theorem attended_before {pm rm : List Bool} (hpm : LeftPadded pm) (hrm : RightPadded rm) {t : ℕ}
    (ht : rm[t]? = some true) : (pm ++ rm)[pm.length + t - 1]? = some true := by
  have hpos : 0 < pm.length := Nat.lt_of_lt_of_le hpm.count_pos List.count_le_length
  cases t with
  | zero =>
      rw [List.getElem?_append_left (by omega), Nat.add_zero, ← List.getLast?_eq_getElem?]
      exact hpm.getLast?
  | succ t =>
      have hidx : pm.length + (t + 1) - 1 = pm.length + t := by omega
      rw [hidx, List.getElem?_append_right (by omega), Nat.add_sub_cancel_left]
      exact hrm.of_getElem? ht (Nat.le_succ t)

/-- So the padded scorer reads the logits of the attended entries before that column. -/
theorem ScoredFrom.of_rightPadded {lm : CausalLM Tok} {pm rm : List Bool} {p r : List Tok} {t : ℕ}
    {z : Tok → ℝ} (h : ScoredFrom lm pm p rm r t z) (hlen : p.length = pm.length)
    (hpm : LeftPadded pm) (hrm : RightPadded rm) (ht : rm[t]? = some true) :
    z = lm.logits (select pm p ++ select (rm.take t) (r.take t)).zipIdx := by
  have hbefore := attended_before hpm hrm ht
  rcases h with ⟨-, hz⟩ | ⟨hmasked, -⟩
  · exact hz
  · rw [hlen, hbefore] at hmasked
    cases hmasked

/-! ### One joined batch -/

section joined
variable {b : PaddedBatch Tok} {k : ℕ} {temperature : ℝ}

/-- Without rows the scorer has nothing to concatenate. -/
theorem scoreDirectOpdInline_emptyBatch [Fintype Tok] (lm : CausalLM Tok) (padTokenId : Tok) (hk : 0 < k)
    (temperature : ℝ) (h : b.responses.rows = []) :
    scoreDirectOpdInline lm padTokenId k temperature b = .error .emptyCat := by
  have hk0 : ¬ k = 0 := by omega
  have hstarts : Tensor.chunkStarts 0 k = [] := by
    rw [Tensor.chunkStarts, Nat.div_eq_of_lt (by omega)]
    rfl
  simp only [scoreDirectOpdInline, if_neg hk0, h, List.length_nil, hstarts]
  rfl

theorem Joined.prefixMask {padTokenId : Tok} {prefixMask : Tensor Bool}
    (hj : Joined padTokenId prefixMask b) : b.prefixMask = prefixMask :=
  hj.takeCols_attentionMask

/-- The rows of a batch at a valid position. -/
theorem PaddedBatch.rows_of_valid (b : PaddedBatch Tok) {i t : ℕ}
    (h : b.responseMask.get? i t = some true) :
    ∃ pm p rm r v, b.prefixMask.rows[i]? = some pm ∧ b.prompts.rows[i]? = some p ∧
      b.responseMask.rows[i]? = some rm ∧ b.responses.rows[i]? = some r ∧
      rm[t]? = some true ∧ r[t]? = some v ∧ t < b.responses.cols := by
  obtain ⟨rm, hrm, hrmt⟩ := Tensor.get?_eq_some_iff.mp h
  obtain ⟨v, hv⟩ := Tensor.exists_get?_of_shape b.shape_responseMask h
  obtain ⟨r, hr, hrt⟩ := Tensor.get?_eq_some_iff.mp hv
  have hi : i < b.responses.rows.length := (List.getElem?_eq_some_iff.mp hr).1
  have hp : i < b.prompts.rows.length := by
    rw [b.shape_prompts]
    exact hi
  have hpm : i < b.prefixMask.rows.length := by
    have hshape : b.prefixMask.rows.length = b.prompts.rows.length :=
      congrArg Prod.fst b.shape_prefixMask
    omega
  have ht : t < b.responses.cols := by
    rw [← Tensor.length_of_getElem? hr]
    exact (List.getElem?_eq_some_iff.mp hrt).1
  exact ⟨_, _, rm, r, v, List.getElem?_eq_getElem hpm, List.getElem?_eq_getElem hp, hrm, hr, hrmt,
    hrt, ht⟩

/-- **The padded scorer agrees with the packed one.**  Prompts left padded, response masks right
padded, any temperature and any size of micro-batch: the inline scorer gives at every valid
position the log-prob that the packed path gives for the same joined batch. -/
theorem inline_eq_packed [Fintype Tok] (lm : CausalLM Tok) (scorerPadTokenId padTokenId : Tok)
    {prompts responses : Tensor Tok} {promptMask responseMask : Tensor Bool}
    (hb : scoreBatch? padTokenId prompts promptMask responses responseMask = some b)
    (hleft : ∀ m ∈ promptMask.rows, LeftPadded m)
    (hright : ∀ m ∈ responseMask.rows, RightPadded m)
    (hk : 0 < k) (htemp : 0 < temperature) :
    SameOnValid responseMask (scoreDirectOpdInline lm scorerPadTokenId k temperature b)
      (computeLogProb (lm.logProb temperature) b) := by
  obtain ⟨-, -, rfl, hj⟩ := scoreBatch?_eq_some hb
  by_cases hne : b.responses.rows = []
  · rw [scoreDirectOpdInline_emptyBatch lm scorerPadTokenId hk temperature hne,
      computeLogProb_emptyBatch _ b hne]
    have hrows : b.responseMask.rows.length = b.responses.rows.length :=
      congrArg Prod.fst b.shape_responseMask
    exact List.length_eq_zero_iff.mp (by rw [hrows, hne]; rfl)
  · obtain ⟨x, hx, hscores⟩ := scoreDirectOpdInline_eq_ok lm scorerPadTokenId hk htemp hne
      (hj.prefixMask ▸ hleft)
    obtain ⟨y, hy, hyshape, hentry⟩ := hj.computeLogProb_entries (lm.logProb temperature) hne hleft
    rw [hx, hy]
    refine ⟨hscores.shape.trans b.shape_responseMask.symm, hyshape.trans b.shape_responseMask.symm,
      fun i t hvalid => ?_⟩
    obtain ⟨pm, p, rm, r, v, hpm, hp, hrm, hr, hrmt, hrt, ht⟩ := b.rows_of_valid hvalid
    have hpad : RightPadded rm := hright rm (List.mem_of_getElem? hrm)
    have hlen : p.length = pm.length :=
      Tensor.length_eq_of_shape b.shape_prefixMask.symm hp hpm
    obtain ⟨z, hz, hfrom⟩ := hscores.entry i pm p rm r t v hpm hp hrm hr hrt
    rw [hj.prefixMask] at hpm
    rw [hz, hentry i pm p rm r t hpm hp hrm hr ht, hpad.getElem?_select r hrmt, hrt,
      hpad.take_select r hrmt, hfrom.of_rightPadded hlen (hleft pm (List.mem_of_getElem? hpm)) hpad
        hrmt]
    rfl

end joined

/-- A tensor of one row. -/
def oneRow {α : Type} (row : List α) : Tensor α := ⟨row.length, [row], by simp⟩

/-- A prompt of one token behind padding, and two response tokens of which the first is valid. -/
theorem inline_eq_packed_oneRow :
    ∃ b, scoreBatch? (0 : Fin 2) (oneRow [0, 1]) (oneRow [false, true]) (oneRow [1, 0])
        (oneRow [true, false]) = some b ∧
      SameOnValid (oneRow [true, false])
        (scoreDirectOpdInline (CausalLM.ofLogits (fun ctx _ => ctx.length) fun _ => 0) 0 1 1 b)
        (computeLogProb
          ((CausalLM.ofLogits (fun ctx _ => ctx.length) fun _ => 0).logProb 1) b) := by
  obtain ⟨b, hb⟩ : ∃ b, scoreBatch? (0 : Fin 2) (oneRow [0, 1]) (oneRow [false, true])
    (oneRow [1, 0]) (oneRow [true, false]) = some b := scoreBatch?_isSome 0 rfl rfl rfl
  refine ⟨b, hb, inline_eq_packed _ 0 0 hb ?_ ?_ Nat.one_pos one_pos⟩
  · intro m hm
    obtain rfl := List.mem_singleton.mp hm
    exact ⟨1, 1, Nat.one_pos, rfl⟩
  · intro m hm
    obtain rfl := List.mem_singleton.mp hm
    exact ⟨1, 1, rfl⟩

end ExtpiRlsd
