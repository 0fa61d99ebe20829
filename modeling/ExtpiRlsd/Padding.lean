import ExtpiRlsd.Lib.Ragged
import ExtpiRlsd.Lib.Tensor

/-! # Packing a padded batch and back

`padding.py` and the two calls around the worker.  `leftRight2NoPadding` drops the padding of a
batch, the worker scores the packed rows, and `noPadding2Padding` cuts the response windows out
of the packed log-probs and pads them on the right.

The worker is a parameter: the log-prob of a label after the entries of its row that precede
it, each entry a token with its position id.  As in the worker, the labels are the packed ids
moved one place to the left.

`computeLogProb_eq_ok` describes the composition: row `i` of the result holds, from column 0 on,
the scores of the attended response entries of row `i` after its attended prompt entries, then
zeros. -/

namespace ExtpiRlsd

open Tensors Masks Ragged

variable {Tok α : Type}

/-- The tensors of a batch padded on both sides: prompts on the left, responses on the right. -/
structure PaddedBatch (Tok : Type) where
  prompts : Tensor Tok
  responses : Tensor Tok
  inputIds : Tensor Tok
  attentionMask : Tensor Bool
  positionIds : Tensor ℕ
  responseMask : Tensor Bool
  shape_prompts : prompts.rows.length = responses.rows.length
  shape_responseMask : responseMask.shape = responses.shape
  shape_inputIds : inputIds.shape = (responses.rows.length, prompts.cols + responses.cols)
  shape_attentionMask : attentionMask.shape = inputIds.shape
  shape_positionIds : positionIds.shape = inputIds.shape

/-- The failures of the two functions and of the tensor operations they call. -/
inductive PaddingError where
  | emptyBatch
  | packedLength
  | promptLen (promptLens : List ℕ)
  | stack
deriving DecidableEq

/-- The text of a failure; the assertion on the packed length has none. -/
def PaddingError.message : PaddingError → String
  | emptyBatch => "index -1 is out of bounds for dimension 0 with size 0"
  | packedLength => ""
  | promptLen promptLens =>
      "seq_offset - resp_len - 1 assumes prompt_len > 0. Got " ++ toString promptLens
  | stack => "stack expects each tensor to be equal size"

/-- The nested tensors of a batch without padding. -/
structure NoPaddingBatch (Tok : Type) where
  inputIds : Nested Tok
  positionIds : Nested ℕ
  lossMask : Tensor Bool
  maxSeqLen : ℕ
  maxResponseLen : ℕ

/-- `left_right_2_no_padding`: the ids through `unpad_input`, the position ids row by row. -/
def leftRight2NoPadding (b : PaddedBatch Tok) : NoPaddingBatch Tok where
  inputIds := unpad b.attentionMask.rows b.inputIds.rows
  positionIds := Nested.ofRows (List.zipWith select b.attentionMask.rows b.positionIds.rows)
  lossMask := b.responseMask
  maxSeqLen := b.inputIds.cols
  maxResponseLen := b.responseMask.cols

/-- The worker on packed rows: the log-prob of every next token after the entries of its row. -/
def packedLogProbs (logProb : List (Tok × ℕ) → Tok → α) (inputIds : Nested Tok)
    (positionIds : Nested ℕ) : Nested α where
  values := packedScores logProb (List.zipWith List.zip inputIds.rows positionIds.rows)
    (inputIds.values.rotate 1)
  offsets := inputIds.offsets

/-- `F.pad` on the right up to a width. -/
def padRight [Zero α] (width : ℕ) (xs : List α) : List α :=
  xs ++ List.replicate (width - xs.length) 0

/-- `no_padding_2_padding` of packed values; the lengths come from the attention mask. -/
def noPadding2Padding [Zero α] (values : List α) (b : PaddedBatch Tok) :
    Except PaddingError (Tensor α) :=
  let promptLens := (b.attentionMask.takeCols b.prompts.cols).rows.map (List.count true)
  let responseLens := (b.attentionMask.dropCols b.prompts.cols).rows.map (List.count true)
  let maxResponseLen := b.responses.cols
  let sequenceOffsets := cumsum 0 (List.zipWith (· + ·) promptLens responseLens)
  match sequenceOffsets.getLast? with
  | none => .error .emptyBatch
  | some last =>
      if last ≠ values.length then .error .packedLength
      else if 0 ∈ promptLens then .error (.promptLen promptLens)
      else
        -- one place to the left: a value at a position scores the token after it
        let responseList := List.zipWith (fun respLen seqOffset =>
          padRight maxResponseLen (slice (seqOffset - respLen - 1) (seqOffset - 1) values))
          responseLens sequenceOffsets
        match Tensor.ofRows? maxResponseLen responseList with
        | none => .error .stack
        | some output => .ok output

/-- The log-probs of a padded batch: packed, scored by the worker, padded again. -/
def computeLogProb [Zero α] (logProb : List (Tok × ℕ) → Tok → α) (b : PaddedBatch Tok) :
    Except PaddingError (Tensor α) :=
  let batchTd := leftRight2NoPadding b
  noPadding2Padding (packedLogProbs logProb batchTd.inputIds batchTd.positionIds).values b

/-! ### Rows in two parts -/

namespace PaddedBatch

/-- The entries of the rows, tokens with their position ids. -/
def entries (b : PaddedBatch Tok) : List (List (Tok × ℕ)) :=
  List.zipWith List.zip b.inputIds.rows b.positionIds.rows

/-- The attended entries of every row, prompt and response apart. -/
def parts (b : PaddedBatch Tok) : List (List (Tok × ℕ) × List (Tok × ℕ)) :=
  List.zipWith (fun m xs => (select (m.take b.prompts.cols) (xs.take b.prompts.cols),
    select (m.drop b.prompts.cols) (xs.drop b.prompts.cols))) b.attentionMask.rows b.entries

variable (b : PaddedBatch Tok)

theorem forall₂_attention_ids : List.Forall₂ (fun m xs => m.length = xs.length)
    b.attentionMask.rows b.inputIds.rows := Tensor.forall₂_length b.shape_attentionMask

theorem forall₂_attention_entries : List.Forall₂ (fun m xs => m.length = xs.length)
    b.attentionMask.rows b.entries := by
  have hids := b.forall₂_attention_ids
  have hpos := Tensor.forall₂_length (b.shape_attentionMask.trans b.shape_positionIds.symm)
  rw [entries]
  generalize b.attentionMask.rows = ms at hids hpos ⊢
  generalize b.inputIds.rows = xs at hids ⊢
  generalize b.positionIds.rows = ps at hpos ⊢
  induction hids generalizing ps with
  | nil => exact .nil
  | cons hx _ ih => cases hpos with
    | cons hp hps =>
        refine .cons ?_ (ih _ hps)
        rw [List.length_zip, ← hx, ← hp, Nat.min_self]

/-- The attended entries of a row are those of its prompt, then those of its response. -/
theorem parts_append : (b.parts.map fun p => p.1 ++ p.2) =
    List.zipWith select b.attentionMask.rows b.entries := by
  simp only [parts, List.map_zipWith, select_take_append_drop]

theorem map_length_parts_snd : (b.parts.map fun p => p.2.length) =
    (b.attentionMask.dropCols b.prompts.cols).rows.map (List.count true) := by
  have h := b.forall₂_attention_entries
  simp only [parts, Tensor.dropCols, List.map_map, List.map_zipWith]
  generalize b.attentionMask.rows = ms at h ⊢
  generalize b.entries = xs at h ⊢
  induction h with
  | nil => rfl
  | @cons m xs _ _ hl _ ih =>
      have hm : (m.drop b.prompts.cols).length = (xs.drop b.prompts.cols).length := by simp [hl]
      rw [List.zipWith_cons_cons, ih, length_select hm]
      rfl

theorem map_length_parts_fst : (b.parts.map fun p => p.1.length) =
    (b.attentionMask.takeCols b.prompts.cols).rows.map (List.count true) := by
  have h := b.forall₂_attention_entries
  simp only [parts, Tensor.takeCols, List.map_map, List.map_zipWith]
  generalize b.attentionMask.rows = ms at h ⊢
  generalize b.entries = xs at h ⊢
  induction h with
  | nil => rfl
  | @cons m xs _ _ hl _ ih =>
      have hm : (m.take b.prompts.cols).length = (xs.take b.prompts.cols).length := by simp [hl]
      rw [List.zipWith_cons_cons, ih, length_select hm]
      rfl

theorem length_parts : b.parts.length = b.responses.rows.length := by
  have hlen : b.attentionMask.rows.length = b.responses.rows.length :=
    congrArg Prod.fst (b.shape_attentionMask.trans b.shape_inputIds)
  rw [parts, List.length_zipWith, ← b.forall₂_attention_entries.length_eq, Nat.min_self, hlen]

/-- No response part is longer than the responses are wide. -/
theorem length_parts_snd_le : ∀ p ∈ b.parts, p.2.length ≤ b.responses.cols := by
  intro p hp
  have hmem : p.2.length ∈ b.parts.map fun p => p.2.length := List.mem_map_of_mem hp
  rw [map_length_parts_snd] at hmem
  obtain ⟨m, hm, hcount⟩ := List.mem_map.mp hmem
  have hwidth : (b.attentionMask.dropCols b.prompts.cols).cols = b.responses.cols := by
    have h := congrArg Prod.snd (b.shape_attentionMask.trans b.shape_inputIds)
    have h : b.attentionMask.cols = b.prompts.cols + b.responses.cols := h
    show b.attentionMask.cols - b.prompts.cols = b.responses.cols
    omega
  rw [← hcount, ← hwidth, ← (b.attentionMask.dropCols b.prompts.cols).rect m hm]
  exact List.count_le_length

end PaddedBatch

/-! ### The log-probs of a padded batch -/

@[simp] theorem length_padRight [Zero α] {width : ℕ} {xs : List α} (h : xs.length ≤ width) :
    (padRight width xs).length = width := by
  simp [padRight]
  omega

theorem getElem?_padRight [Zero α] {width : ℕ} {xs : List α} {t : ℕ} (ht : t < width) :
    (padRight width xs)[t]? = some (xs[t]?.getD 0) := by
  rw [padRight, List.getElem?_append]
  by_cases h : t < xs.length
  · rw [if_pos h, List.getElem?_eq_getElem h, Option.getD_some]
  · rw [if_neg h, List.getElem?_replicate, if_pos (by omega), List.getElem?_eq_none (by omega)]
    rfl

/-- The packed ids and positions, row by row. -/
theorem leftRight2NoPadding_rows (b : PaddedBatch Tok) :
    List.zipWith List.zip (leftRight2NoPadding b).inputIds.rows
      (leftRight2NoPadding b).positionIds.rows = b.parts.map fun p => p.1 ++ p.2 := by
  rw [b.parts_append, leftRight2NoPadding, unpad_eq_ofRows b.forall₂_attention_ids, rows_ofRows,
    rows_ofRows, PaddedBatch.entries]
  generalize b.attentionMask.rows = ms
  generalize b.inputIds.rows = xs
  generalize b.positionIds.rows = ps
  induction ms generalizing xs ps with
  | nil => rfl
  | cons m ms ih => cases xs with
    | nil => rfl
    | cons x xs => cases ps with
      | nil => rfl
      | cons p ps =>
          simp only [List.zipWith_cons_cons, ih, select_zip]

/-- The packed ids are the first components of the packed entries. -/
theorem leftRight2NoPadding_values (b : PaddedBatch Tok) :
    (leftRight2NoPadding b).inputIds.values =
      (b.parts.map fun p => p.1 ++ p.2).flatten.map Prod.fst := by
  have hids := b.forall₂_attention_ids
  have hpos := Tensor.forall₂_length b.shape_positionIds.symm
  rw [b.parts_append, leftRight2NoPadding, unpad_eq_ofRows hids, Nested.ofRows, PaddedBatch.entries,
    List.map_flatten]
  refine congrArg List.flatten ?_
  generalize b.attentionMask.rows = ms at hids ⊢
  generalize b.inputIds.rows = xs at hids hpos ⊢
  generalize b.positionIds.rows = ps at hpos ⊢
  induction hids generalizing ps with
  | nil => rfl
  | @cons m x _ _ _ _ ih => cases hpos with
    | @cons _ p _ _ hp hps =>
        rw [List.zipWith_cons_cons, List.zipWith_cons_cons, List.zipWith_cons_cons, List.map_cons,
          ih _ hps, ← select_map, List.map_fst_zip (Nat.le_of_eq hp)]

theorem packedLogProbs_values (logProb : List (Tok × ℕ) → Tok → α) (b : PaddedBatch Tok) :
    (packedLogProbs logProb (leftRight2NoPadding b).inputIds
      (leftRight2NoPadding b).positionIds).values =
    packedScores (fun ctx x => logProb ctx x.1) (b.parts.map fun p => p.1 ++ p.2)
      ((b.parts.map fun p => p.1 ++ p.2).flatten.rotate 1) := by
  rw [packedLogProbs, leftRight2NoPadding_rows, leftRight2NoPadding_values, ← List.map_rotate,
    packedScores, packedScores, List.zipWith_map_right]

/-- **The log-probs of a padded batch.**  Every row holds the scores of its attended response
entries after its attended prompt entries, from column 0 on, and zeros behind them. -/
theorem computeLogProb_eq_ok [Zero α] (logProb : List (Tok × ℕ) → Tok → α) (b : PaddedBatch Tok)
    (hne : b.responses.rows ≠ []) (hprompt : ∀ p ∈ b.parts, p.1 ≠ []) :
    ∃ T, computeLogProb logProb b = .ok T ∧ T.cols = b.responses.cols ∧
      T.rows = b.parts.map fun p =>
        padRight b.responses.cols (scores (fun ctx x => logProb ctx x.1) p.1 p.2) := by
  have hrows : ∀ r ∈ b.parts.map (fun p =>
      padRight b.responses.cols (scores (fun ctx x => logProb ctx x.1) p.1 p.2)),
      r.length = b.responses.cols := by
    intro r hr
    obtain ⟨p, hp, rfl⟩ := List.mem_map.mp hr
    refine length_padRight ?_
    rw [length_scores]
    exact b.length_parts_snd_le p hp
  refine ⟨⟨_, _, hrows⟩, ?_, rfl, rfl⟩
  -- the running lengths of the two halves are those of the packed rows
  have hlens : List.zipWith (· + ·)
      ((b.attentionMask.takeCols b.prompts.cols).rows.map (List.count true))
      ((b.attentionMask.dropCols b.prompts.cols).rows.map (List.count true)) =
      (b.parts.map fun p => p.1 ++ p.2).map List.length := by
    rw [← b.map_length_parts_fst, ← b.map_length_parts_snd, List.zipWith_map]
    simp
  have hparts : b.parts ≠ [] := by
    intro h
    rw [← List.length_eq_zero_iff, b.length_parts, List.length_eq_zero_iff] at h
    exact hne h
  have hrowlens : (b.parts.map fun p => p.1 ++ p.2).map List.length ≠ [] := by simpa using hparts
  have hlast := getLast?_cumsum 0 hrowlens
  have hzero : 0 ∉ (b.attentionMask.takeCols b.prompts.cols).rows.map (List.count true) := by
    rw [← b.map_length_parts_fst, List.mem_map]
    rintro ⟨p, hp, h⟩
    exact hprompt p hp (List.length_eq_zero_iff.mp h)
  have hlength : (packedScores (fun ctx x => logProb ctx x.1) (b.parts.map fun p => p.1 ++ p.2)
      ((b.parts.map fun p => p.1 ++ p.2).flatten.rotate 1)).length =
      0 + ((b.parts.map fun p => p.1 ++ p.2).map List.length).sum := by
    rw [length_packedScores _ _ _ (List.length_rotate _ _), List.length_flatten, Nat.zero_add]
  have hwin := windows_packedScores (fun ctx x => logProb ctx x.1) b.parts hprompt rfl
  have hlist : List.zipWith (fun respLen seqOffset => padRight b.responses.cols
      (slice (seqOffset - respLen - 1) (seqOffset - 1)
        (packedScores (fun ctx x => logProb ctx x.1) (b.parts.map fun p => p.1 ++ p.2)
          ((b.parts.map fun p => p.1 ++ p.2).flatten.rotate 1))))
      (b.parts.map fun p => p.2.length)
      (cumsum 0 ((b.parts.map fun p => p.1 ++ p.2).map List.length)) =
      b.parts.map fun p =>
        padRight b.responses.cols (scores (fun ctx x => logProb ctx x.1) p.1 p.2) := by
    have h := congrArg (List.map (padRight b.responses.cols)) hwin
    rw [List.map_zipWith] at h
    exact h.trans List.map_map
  simp only [computeLogProb, noPadding2Padding, packedLogProbs_values, hlens, hlast]
  rw [if_neg (by rw [hlength]; simp), if_neg hzero, ← b.map_length_parts_snd, hlist,
    Tensor.ofRows?_eq_some hrows]

/-- The position ids count the attended positions of every row. -/
def CountsAttended (b : PaddedBatch Tok) : Prop :=
  b.positionIds = b.attentionMask.mapRows (ranks 0) length_positions

/-- With counted positions the two parts of a row are its selected ids, numbered through. -/
theorem getElem?_parts {b : PaddedBatch Tok} (hpos : CountsAttended b) {i : ℕ}
    {pm am : List Bool} {p x : List Tok} (ha : b.attentionMask.rows[i]? = some (pm ++ am))
    (hpm : pm.length = b.prompts.cols) (hx : b.inputIds.rows[i]? = some (p ++ x))
    (hp : p.length = b.prompts.cols) :
    b.parts[i]? = some ((select pm p).zipIdx, (select am x).zipIdx (pm.count true)) := by
  have hlen : (pm ++ am).length = (p ++ x).length :=
    Tensor.length_eq_of_shape b.shape_attentionMask ha hx
  have hax : am.length = x.length := by
    simp only [List.length_append] at hlen
    omega
  have hposrow : b.positionIds.rows[i]? = some (ranks 0 (pm ++ am)) := by
    rw [hpos]
    show (b.attentionMask.rows.map (ranks 0))[i]? = _
    rw [List.getElem?_map, ha, Option.map_some]
  rw [PaddedBatch.parts, List.getElem?_zipWith, ha, PaddedBatch.entries, List.getElem?_zipWith, hx,
    hposrow]
  -- the entries split at the prompt width as the mask does
  have hzip : (p ++ x).zip (ranks 0 (pm ++ am)) =
      p.zip (ranks 0 pm) ++ x.zip (ranks (pm.count true) am) := by
    rw [ranks_append, List.zip_append (by rw [length_ranks]; omega), Nat.zero_add]
  have hzlen : (p.zip (ranks 0 pm)).length = b.prompts.cols := by
    rw [List.length_zip, length_ranks]
    omega
  simp only [hzip]
  rw [← hpm, List.take_left, List.drop_left, hpm, ← hzlen, List.take_left, List.drop_left,
    select_zip_ranks 0 (by omega), select_zip_ranks _ hax]

/-- **The log-probs entry by entry.**  Column `t` of row `i` scores the `t`-th attended response
entry after the attended prompt entries and the attended response entries before it; behind the
attended entries there are zeros. -/
theorem computeLogProb_entries [Zero α] (logProb : List (Tok × ℕ) → Tok → α) {b : PaddedBatch Tok}
    (hne : b.responses.rows ≠ []) (hpos : CountsAttended b)
    (hprompt : ∀ m ∈ (b.attentionMask.takeCols b.prompts.cols).rows, 0 < m.count true) :
    ∃ T, computeLogProb logProb b = .ok T ∧ T.shape = b.responses.shape ∧
      ∀ i pm am p x t, b.attentionMask.rows[i]? = some (pm ++ am) → pm.length = b.prompts.cols →
        b.inputIds.rows[i]? = some (p ++ x) → p.length = b.prompts.cols → t < b.responses.cols →
        T.get? i t = some (((select am x)[t]?.map
          (logProb ((select pm p ++ (select am x).take t).zipIdx))).getD 0) := by
  have hparts : ∀ q ∈ b.parts, q.1 ≠ [] := by
    intro q hq hnil
    have hmem : q.1.length ∈ b.parts.map fun q => q.1.length := List.mem_map_of_mem hq
    rw [b.map_length_parts_fst, hnil] at hmem
    obtain ⟨m, hm, hzero⟩ := List.mem_map.mp hmem
    have hpos := hprompt m hm
    rw [hzero] at hpos
    exact absurd hpos (Nat.lt_irrefl 0)
  obtain ⟨T, hT, hcols, hrows⟩ := computeLogProb_eq_ok logProb b hne hparts
  refine ⟨T, hT, ?_, ?_⟩
  · rw [Tensor.shape, Tensor.shape, hcols, hrows, List.length_map, b.length_parts]
  · intro i pm am p x t ha hpm hx hp ht
    have hlen : (select pm p).length = pm.count true := length_select (hpm.trans hp.symm)
    rw [Tensor.get?, hrows, List.getElem?_map, getElem?_parts hpos ha hpm hx hp, Option.map_some,
      Option.bind_some, getElem?_padRight ht, getElem?_scores, List.getElem?_zipIdx,
      List.zipIdx_append, hlen, Nat.zero_add, Option.map_map, take_zipIdx]
    rfl

/-- Without rows there is no last offset to read. -/
theorem computeLogProb_emptyBatch [Zero α] (logProb : List (Tok × ℕ) → Tok → α)
    (b : PaddedBatch Tok) (h : b.responses.rows = []) :
    computeLogProb logProb b = .error .emptyBatch := by
  have hlen : b.attentionMask.rows.length = b.responses.rows.length :=
    congrArg Prod.fst (b.shape_attentionMask.trans b.shape_inputIds)
  have hrows : b.attentionMask.rows = [] := by
    rw [← List.length_eq_zero_iff, hlen, h]
    rfl
  simp [computeLogProb, noPadding2Padding, Tensor.takeCols, Tensor.dropCols, hrows, cumsum]

end ExtpiRlsd
