import ExtpiRlsd.Lib.Checked
import ExtpiRlsd.Padding
import Mathlib

/-! # The padded teacher scorer

`scorer.py`: the prefix-mask guard, the joined input of a prefix and a response
(`joinPrefix`, the expressions that the score-batch builders share), the gather of response
log-probs and the scorer itself.

The language model is `CausalLM`: on padded tensors its logits at an attended position are those
of the attended entries up to that position, tokens with their position ids; at a masked
position they may be anything.

The guard accepts the left-padded masks only (`assertLeftPaddedPrefixMask_accepts_iff`), and then
column `prefixWidth - 1 + t` of the joined row precedes response column `t`: where it is
attended, the scorer returns the log-prob of response token `t` after the attended entries before
it (`score_eq_ok`). -/

namespace ExtpiRlsd

open Tensors Masks Ragged

variable {Tok : Type}

/-- The errors of `scorer.py`, with those of the indexing it does. -/
inductive ScorerError where
  | prefixShapes
  | responseShapes
  | batchSizes
  | emptyPrefix
  | noColumns
  | lastColumn
  | nonContiguous
  | temperature
  | gatherShapes
  | gatherIndex
deriving DecidableEq

def ScorerError.message : ScorerError → String
  | prefixShapes => "prefix_input_ids and prefix_attention_mask shapes differ"
  | responseShapes => "response_ids and response_mask shapes differ"
  | batchSizes => "prefix and response batch sizes differ"
  | emptyPrefix => "Teacher scorer found an empty prompt prefix"
  | noColumns => "index -1 is out of bounds for dimension 1 with size 0"
  | lastColumn =>
      "Teacher scorer requires left-padded prompt prefixes with a real token at prefix_width-1. " ++
        "Found right-padded or non-contiguous prompt prefix."
  | nonContiguous =>
      "Teacher scorer requires contiguous left-padded prompt prefixes. " ++
        "Found right-padded or non-contiguous prompt prefix."
  | temperature => "temperature must be positive"
  | gatherShapes => "response_ids and response_logit_positions shapes differ"
  | gatherIndex => "index is out of bounds"

/-! ### Joined inputs -/

def assertLeftPaddedPrefixMask (mask : Tensor Bool) : Except ScorerError Unit :=
  let tokenCounts := mask.rows.map (List.count true)
  if 0 ∈ tokenCounts then .error .emptyPrefix
  else if mask.cols = 0 then .error .noColumns
  else if ¬ ∀ r ∈ mask.rows, r.getLast? = some true then .error .lastColumn
  else if ¬ ∀ r ∈ mask.rows,
      r = (List.range mask.cols).map fun c => decide (mask.cols - r.count true ≤ c) then
    .error .nonContiguous
  else .ok ()

/-- A prefix and a response side by side. -/
structure JoinedInputs (Tok : Type) where
  inputIds : Tensor Tok
  attentionMask : Tensor Bool
  positionIds : Tensor ℕ

/-- The masked-filled response behind the prefix, the masks joined, and the running count of
attended positions less one, at least zero. -/
def joinPrefix (padTokenId : Tok) (prefixIds : Tensor Tok) (prefixMask : Tensor Bool)
    (responses : Tensor Tok) (responseMask : Tensor Bool) : JoinedInputs Tok :=
  let responseInputIds := Tensor.map₂ (fun b v => if b then v else padTokenId) responseMask responses
  let attentionMask := prefixMask.catCols responseMask
  { inputIds := prefixIds.catCols responseInputIds
    attentionMask
    positionIds := attentionMask.mapRows (ranks 0) length_positions }

/-- The dictionary that `build_causal_score_inputs` returns. -/
structure CausalScoreInputs (Tok : Type) extends JoinedInputs Tok where
  responseIds : Tensor Tok
  responseMask : Tensor Bool
  responseLogitPositions : Tensor ℕ

def buildCausalScoreInputs (prefixInputIds : Tensor Tok) (prefixAttentionMask : Tensor Bool)
    (responseIds : Tensor Tok) (responseMask : Tensor Bool) (padTokenId : Tok) :
    Except ScorerError (CausalScoreInputs Tok) := do
  if prefixInputIds.shape ≠ prefixAttentionMask.shape then throw .prefixShapes
  if responseIds.shape ≠ responseMask.shape then throw .responseShapes
  if prefixInputIds.shape.1 ≠ responseIds.shape.1 then throw .batchSizes
  assertLeftPaddedPrefixMask prefixAttentionMask
  let prefixWidth := prefixInputIds.cols
  let responseLen := responseIds.cols
  return {
    joinPrefix padTokenId prefixInputIds prefixAttentionMask responseIds responseMask with
    responseIds
    responseMask
    responseLogitPositions :=
      Tensor.expand responseIds.shape.1 (List.range' (prefixWidth - 1) responseLen) }

/-! ### Log-probs -/

section logprobs
variable [Fintype Tok]

/-- `log_softmax(logits / temperature)` at one token. -/
noncomputable def logSoftmax (temperature : ℝ) (logits : Tok → ℝ) (v : Tok) : ℝ :=
  logits v / temperature - Real.log (∑ u, Real.exp (logits u / temperature))

noncomputable def gatherResponseLogProbs (logits : Tensor (Tok → ℝ)) (responseIds : Tensor Tok)
    (responseLogitPositions : Tensor ℕ) (temperature : ℝ) : Except ScorerError (Tensor ℝ) :=
  if temperature ≤ 0 then .error .temperature
  else if responseIds.shape ≠ responseLogitPositions.shape then .error .gatherShapes
  else match logits.gatherCols? responseLogitPositions with
    | none => .error .gatherIndex
    | some selectedLogits => .ok (Tensor.map₂ (logSoftmax temperature) selectedLogits responseIds)

end logprobs

/-- The attended entries of row `i` up to column `j`, tokens with their position ids. -/
def attendedUpTo (ids : Tensor Tok) (mask : Tensor Bool) (pos : Tensor ℕ) (i j : ℕ) :
    List (Tok × ℕ) :=
  select ((mask.rows[i]?.getD []).take (j + 1))
    (((ids.rows[i]?.getD []).zip (pos.rows[i]?.getD [])).take (j + 1))

/-- A causal language model: its logits after a sequence of entries, and its forward pass on
padded tensors, which at an attended position depends on the attended entries up to it only. -/
structure CausalLM (Tok : Type) where
  logits : List (Tok × ℕ) → Tok → ℝ
  forward : Tensor Tok → Tensor Bool → Tensor ℕ → Tensor (Tok → ℝ)
  shape_forward : ∀ ids mask pos, (forward ids mask pos).shape = ids.shape
  forward_attended : ∀ ids mask pos i j, mask.shape = ids.shape → pos.shape = ids.shape →
    mask.get? i j = some true →
    (forward ids mask pos).get? i j = some (logits (attendedUpTo ids mask pos i j))

/-- The log-prob of a token after a sequence of entries. -/
noncomputable def CausalLM.logProb [Fintype Tok] (lm : CausalLM Tok) (temperature : ℝ)
    (ctx : List (Tok × ℕ)) (v : Tok) : ℝ := logSoftmax temperature (lm.logits ctx) v

/-- The model with given logits after a sequence of entries and given logits at every masked
position. -/
noncomputable def CausalLM.ofLogits (logits : List (Tok × ℕ) → Tok → ℝ) (masked : Tok → ℝ) :
    CausalLM Tok where
  logits := logits
  forward := fun ids mask pos => {
    cols := ids.cols
    rows := (List.range ids.rows.length).map fun i => (List.range ids.cols).map fun j =>
      if mask.get? i j = some true then logits (attendedUpTo ids mask pos i j) else masked
    rect := by
      intro r hr
      obtain ⟨i, -, rfl⟩ := List.mem_map.mp hr
      simp }
  shape_forward := fun ids mask pos => by simp [Tensor.shape]
  forward_attended := by
    intro ids mask pos i j hmask _ h
    have hsome : (mask.get? i j).isSome := by rw [h]; rfl
    obtain ⟨hi, hj⟩ := (Tensor.get?_isSome_iff mask i j).mp hsome
    have hrows : mask.rows.length = ids.rows.length := congrArg Prod.fst hmask
    have hcols : mask.cols = ids.cols := congrArg Prod.snd hmask
    rw [Tensor.get?, List.getElem?_map, List.getElem?_range (hrows ▸ hi), Option.map_some,
      Option.bind_some, List.getElem?_map, List.getElem?_range (hcols ▸ hj), Option.map_some,
      if_pos h]

structure TeacherScoreRequest (Tok : Type) where
  promptInputIds : Tensor Tok
  promptAttentionMask : Tensor Bool
  responseIds : Tensor Tok
  responseMask : Tensor Bool
  temperature : ℝ

structure TeacherScoreOutput where
  responseLogProbs : Tensor ℝ
  responseMask : Tensor Bool
  tokensScored : ℕ

/-- `InlineHFTeacherScorer.score`. -/
noncomputable def score [Fintype Tok] (lm : CausalLM Tok) (padTokenId : Tok)
    (request : TeacherScoreRequest Tok) : Except ScorerError TeacherScoreOutput := do
  let tensors ← buildCausalScoreInputs request.promptInputIds request.promptAttentionMask
    request.responseIds request.responseMask padTokenId
  let logits := lm.forward tensors.inputIds tensors.attentionMask tensors.positionIds
  let responseLogProbs ← gatherResponseLogProbs logits tensors.responseIds
    tensors.responseLogitPositions request.temperature
  return { responseLogProbs, responseMask := tensors.responseMask,
           tokensScored := tensors.responseMask.count }

/-! ### The guard -/

theorem range_map_decide_le {w k : ℕ} (h : k ≤ w) :
    (List.range w).map (fun c => decide (k ≤ c)) =
      List.replicate k false ++ List.replicate (w - k) true := by
  refine List.ext_getElem (by simp; omega) fun c hc _ => ?_
  rw [List.getElem_map, List.getElem_range, List.getElem_append]
  by_cases hck : c < k
  · simp [hck]
  · simp [hck, Nat.not_lt.mp hck]

/-- A row equals the mask that its count demands exactly when it is left padded. -/
theorem leftPadded_iff_expected {w : ℕ} {r : List Bool} (hr : r.length = w) (hpos : 0 < r.count true) :
    LeftPadded r ↔ r = (List.range w).map fun c => decide (w - r.count true ≤ c) := by
  have hle : r.count true ≤ w := hr ▸ List.count_le_length
  constructor
  · rintro ⟨a, b, hb, h⟩
    have hcount : r.count true = b := by simp [h, List.count_replicate]
    have hlen : a + b = w := by rw [← hr, h]; simp
    rw [range_map_decide_le (Nat.sub_le _ _), hcount, h]
    congr 2 <;> omega
  · intro h
    rw [range_map_decide_le (Nat.sub_le _ _)] at h
    exact ⟨w - r.count true, w - (w - r.count true), by omega, h⟩

/-- **The prefix guard.**  A mask with columns is accepted exactly when every row is left
padded. -/
theorem assertLeftPaddedPrefixMask_eq_ok_iff {mask : Tensor Bool} (hcols : mask.cols ≠ 0) :
    assertLeftPaddedPrefixMask mask = .ok () ↔ ∀ r ∈ mask.rows, LeftPadded r := by
  unfold assertLeftPaddedPrefixMask
  constructor
  · intro h r hr
    by_cases hzero : 0 ∈ mask.rows.map (List.count true)
    · simp [hzero] at h
    have hpos : 0 < r.count true :=
      Nat.pos_of_ne_zero fun h0 => hzero (List.mem_map.mpr ⟨r, hr, h0⟩)
    rw [leftPadded_iff_expected (mask.rect r hr) hpos]
    by_contra hne
    have hall : ¬ ∀ r ∈ mask.rows,
        r = (List.range mask.cols).map fun c => decide (mask.cols - r.count true ≤ c) :=
      fun hall => hne (hall r hr)
    simp only [hzero, hcols, hall, if_false, not_false_eq_true, if_true] at h
    split at h <;> cases h
  · intro h
    have hzero : 0 ∉ mask.rows.map (List.count true) := by
      rintro h0
      obtain ⟨r, hr, hcount⟩ := List.mem_map.mp h0
      have := (h r hr).count_pos
      omega
    have hlast : ∀ r ∈ mask.rows, r.getLast? = some true := fun r hr => (h r hr).getLast?
    have hall : ∀ r ∈ mask.rows,
        r = (List.range mask.cols).map fun c => decide (mask.cols - r.count true ≤ c) :=
      fun r hr => (leftPadded_iff_expected (mask.rect r hr) (h r hr).count_pos).mp (h r hr)
    rw [if_neg hzero, if_neg hcols, if_neg (not_not_intro hlast), if_neg (not_not_intro hall)]

/-- **The guard is exact.** -/
theorem assertLeftPaddedPrefixMask_accepts_iff (mask : Tensor Bool) :
    assertLeftPaddedPrefixMask mask = .ok () ↔ mask.cols ≠ 0 ∧ ∀ r ∈ mask.rows, LeftPadded r := by
  constructor
  · intro h
    have hcols : mask.cols ≠ 0 := by
      intro hzero
      simp only [assertLeftPaddedPrefixMask, if_pos hzero] at h
      split at h <;> cases h
    exact ⟨hcols, (assertLeftPaddedPrefixMask_eq_ok_iff hcols).mp h⟩
  · rintro ⟨hcols, hrows⟩
    exact (assertLeftPaddedPrefixMask_eq_ok_iff hcols).mpr hrows

/-- What `build_causal_score_inputs` has checked when it returns, and what it returns. -/
theorem buildCausalScoreInputs_eq_ok_iff {prefixIds responses : Tensor Tok}
    {prefixMask responseMask : Tensor Bool} {padTokenId : Tok} {out : CausalScoreInputs Tok} :
    buildCausalScoreInputs prefixIds prefixMask responses responseMask padTokenId = .ok out ↔
      prefixIds.shape = prefixMask.shape ∧ responses.shape = responseMask.shape ∧
      prefixIds.shape.1 = responses.shape.1 ∧ assertLeftPaddedPrefixMask prefixMask = .ok () ∧
      out = { joinPrefix padTokenId prefixIds prefixMask responses responseMask with
        responseIds := responses
        responseMask
        responseLogitPositions :=
          Tensor.expand responses.shape.1 (List.range' (prefixIds.cols - 1) responses.cols) } := by
  unfold buildCausalScoreInputs
  constructor
  · intro h
    obtain ⟨hpre, h⟩ := Checked.guard_eq_ok_iff.mp h
    obtain ⟨hresponse, h⟩ := Checked.guard_eq_ok_iff.mp h
    obtain ⟨hrows, h⟩ := Checked.guard_eq_ok_iff.mp h
    obtain ⟨⟨⟩, hguard, h⟩ := Checked.bind_eq_ok_iff.mp h
    cases h
    exact ⟨not_not.mp hpre, not_not.mp hresponse, not_not.mp hrows, hguard, rfl⟩
  · rintro ⟨hpre, hresponse, hrows, hguard, rfl⟩
    rw [if_neg (not_not_intro hpre), if_neg (not_not_intro hresponse),
      if_neg (not_not_intro hrows), hguard]
    rfl

/-! ### Rows of the joined inputs -/

section joined
variable {padTokenId : Tok} {prefixIds responses : Tensor Tok} {prefixMask responseMask : Tensor Bool}
  {i : ℕ} {p r : List Tok} {pm rm : List Bool}

theorem shape_joinPrefix_inputIds (hresp : responses.shape = responseMask.shape)
    (hrows : prefixIds.shape.1 = responses.shape.1) :
    (joinPrefix padTokenId prefixIds prefixMask responses responseMask).inputIds.shape =
      (responses.shape.1, prefixIds.cols + responses.cols) := by
  rw [joinPrefix, Tensor.shape_catCols, Tensor.shape_map₂, ← hresp, inf_idem, hrows, Nat.min_self]
  rfl

theorem shape_joinPrefix_attentionMask (hpre : prefixIds.shape = prefixMask.shape)
    (hresp : responses.shape = responseMask.shape) (hrows : prefixIds.shape.1 = responses.shape.1) :
    (joinPrefix padTokenId prefixIds prefixMask responses responseMask).attentionMask.shape =
      (joinPrefix padTokenId prefixIds prefixMask responses responseMask).inputIds.shape := by
  rw [shape_joinPrefix_inputIds hresp hrows, joinPrefix, Tensor.shape_catCols, ← hpre, ← hresp,
    hrows, Nat.min_self]
  rfl

theorem shape_joinPrefix_positionIds :
    (joinPrefix padTokenId prefixIds prefixMask responses responseMask).positionIds.shape =
      (joinPrefix padTokenId prefixIds prefixMask responses responseMask).attentionMask.shape :=
  Tensor.shape_mapRows _ length_positions _

theorem joinPrefix_attention (hpm : prefixMask.rows[i]? = some pm)
    (hrm : responseMask.rows[i]? = some rm) :
    (joinPrefix padTokenId prefixIds prefixMask responses responseMask).attentionMask.rows[i]? =
      some (pm ++ rm) := by
  simp [joinPrefix, Tensor.getElem?_catCols, hpm, hrm]

theorem joinPrefix_ids (hp : prefixIds.rows[i]? = some p) (hr : responses.rows[i]? = some r)
    (hrm : responseMask.rows[i]? = some rm) :
    (joinPrefix padTokenId prefixIds prefixMask responses responseMask).inputIds.rows[i]? =
      some (p ++ fill padTokenId rm r) := by
  simp [joinPrefix, Tensor.getElem?_catCols, Tensor.map₂, List.getElem?_zipWith, hp, hr, hrm, fill]

theorem joinPrefix_positions (hpm : prefixMask.rows[i]? = some pm)
    (hrm : responseMask.rows[i]? = some rm) :
    (joinPrefix padTokenId prefixIds prefixMask responses responseMask).positionIds.rows[i]? =
      some (ranks 0 (pm ++ rm)) := by
  have h : (joinPrefix padTokenId prefixIds prefixMask responses
      responseMask).attentionMask.rows[i]? = some (pm ++ rm) := joinPrefix_attention hpm hrm
  have hmap : (joinPrefix padTokenId prefixIds prefixMask responses responseMask).positionIds.rows =
      (joinPrefix padTokenId prefixIds prefixMask responses responseMask).attentionMask.rows.map
        (ranks 0) := rfl
  rw [hmap, List.getElem?_map, h, Option.map_some]

/-- The attended entries of a joined row before response column `t`: the attended prefix ids
and the valid response ids before that column, numbered through. -/
theorem select_joined (padTokenId : Tok) {w : ℕ} (hp : p.length = w) (hpm : pm.length = w)
    (hr : rm.length = r.length) (t : ℕ) :
    select ((pm ++ rm).take (w + t))
        (((p ++ fill padTokenId rm r).zip (ranks 0 (pm ++ rm))).take (w + t)) =
      (select pm p ++ select (rm.take t) (r.take t)).zipIdx := by
  have hm : (pm ++ rm).take (w + t) = pm ++ rm.take t := by
    rw [← hpm, List.take_length_add_append]
  have hids : (p ++ fill padTokenId rm r).take (w + t) = p ++ fill padTokenId (rm.take t) (r.take t) := by
    rw [← hp, List.take_length_add_append, fill_take]
  have hlen : (pm ++ rm.take t).length = (p ++ fill padTokenId (rm.take t) (r.take t)).length := by
    rw [List.length_append, List.length_append, length_fill, hp, hpm] <;> simp [hr]
  rw [List.zip, List.take_zipWith, hm, hids, ranks_take, hm]
  show select _ (List.zip _ _) = _
  rw [select_zip_ranks 0 hlen, select_append (hpm.trans hp.symm), select_fill]

end joined

/-! ### The scorer entry by entry -/

/-- Logits that the model may return at a masked position. -/
def CausalLM.MaskedLogits (lm : CausalLM Tok) (z : Tok → ℝ) : Prop :=
  ∃ ids mask pos i j, mask.get? i j = some false ∧ (lm.forward ids mask pos).get? i j = some z

theorem CausalLM.MaskedLogits.ofLogits {logits : List (Tok × ℕ) → Tok → ℝ} {masked z : Tok → ℝ}
    (h : (CausalLM.ofLogits logits masked).MaskedLogits z) : z = masked := by
  obtain ⟨ids, mask, pos, i, j, hmask, hz⟩ := h
  obtain ⟨row, hrow, hz⟩ := Tensor.get?_eq_some_iff.mp hz
  rw [CausalLM.ofLogits, List.getElem?_map] at hrow
  obtain ⟨i', hi', rfl⟩ := Option.map_eq_some_iff.mp hrow
  rw [List.getElem?_map] at hz
  obtain ⟨j', hj', rfl⟩ := Option.map_eq_some_iff.mp hz
  obtain rfl : i = i' := by
    have h := (List.getElem?_eq_some_iff.mp hi').2
    rwa [List.getElem_range] at h
  obtain rfl : j = j' := by
    have h := (List.getElem?_eq_some_iff.mp hj').2
    rwa [List.getElem_range] at h
  rw [hmask, if_neg (by simp)]

/-- What the scorer reads for response column `t` of a row: the logits of the column before it,
which are those of the attended entries before column `t` if that column is attended. -/
def ScoredFrom (lm : CausalLM Tok) (pm : List Bool) (p : List Tok) (rm : List Bool) (r : List Tok)
    (t : ℕ) (z : Tok → ℝ) : Prop :=
  ((pm ++ rm)[p.length + t - 1]? = some true ∧
      z = lm.logits (select pm p ++ select (rm.take t) (r.take t)).zipIdx) ∨
    ((pm ++ rm)[p.length + t - 1]? = some false ∧ lm.MaskedLogits z)

/-- The log-probs score every response token, masked or not, under the logits of the column
before it. -/
structure ScoresRows [Fintype Tok] (lm : CausalLM Tok) (temperature : ℝ) (prefixMask : Tensor Bool)
    (prefixIds : Tensor Tok) (responseMask : Tensor Bool) (responses : Tensor Tok)
    (logProbs : Tensor ℝ) : Prop where
  shape : logProbs.shape = responses.shape
  entry : ∀ i pm p rm r t v, prefixMask.rows[i]? = some pm → prefixIds.rows[i]? = some p →
    responseMask.rows[i]? = some rm → responses.rows[i]? = some r → r[t]? = some v →
    ∃ z, logProbs.get? i t = some (logSoftmax temperature z v) ∧ ScoredFrom lm pm p rm r t z

/-- A request that passes the checks of the scorer. -/
structure TeacherScoreRequest.WellFormed (request : TeacherScoreRequest Tok) : Prop where
  prompt : request.promptInputIds.shape = request.promptAttentionMask.shape
  response : request.responseIds.shape = request.responseMask.shape
  rows : request.promptInputIds.shape.1 = request.responseIds.shape.1
  columns : request.promptInputIds.cols ≠ 0
  leftPadded : ∀ m ∈ request.promptAttentionMask.rows, LeftPadded m
  temperature : 0 < request.temperature

/-- Every logit position is a column of the joined input, `P` columns before the response. -/
theorem exists_gatherPositions {logits : Tensor (Tok → ℝ)} {responseIds : Tensor Tok} {P : ℕ}
    (hP : P ≠ 0) (hshape : logits.shape = (responseIds.shape.1, P + responseIds.cols)) :
    ∃ S, (Tensor.expand responseIds.shape.1 (List.range' (P - 1) responseIds.cols)).shape =
        responseIds.shape ∧
      logits.gatherCols? (Tensor.expand responseIds.shape.1
        (List.range' (P - 1) responseIds.cols)) = some S ∧
      S.shape = responseIds.shape ∧
      ∀ i t, i < responseIds.rows.length → t < responseIds.cols →
        S.get? i t = logits.get? i (P + t - 1) := by
  have hidxshape : (Tensor.expand responseIds.shape.1
      (List.range' (P - 1) responseIds.cols)).shape = responseIds.shape := by
    simp [Tensor.shape, Tensor.expand]
  have hrows : logits.rows.length = (Tensor.expand responseIds.shape.1
      (List.range' (P - 1) responseIds.cols)).rows.length := by
    have h1 := congrArg Prod.fst hshape
    have h2 := congrArg Prod.fst hidxshape
    exact h1.trans h2.symm
  have hcolumns : ∀ js ∈ (Tensor.expand responseIds.shape.1
      (List.range' (P - 1) responseIds.cols)).rows, ∀ j ∈ js, j < logits.cols := by
    intro js hjs j hj
    have h1 : logits.cols = P + responseIds.cols := congrArg Prod.snd hshape
    obtain rfl := List.eq_of_mem_replicate hjs
    have hj := List.mem_range'_1.mp hj
    omega
  obtain ⟨S, hS, hSshape, hSget⟩ := Tensor.gatherCols?_eq_some hrows hcolumns
  refine ⟨S, hidxshape, hS, hSshape.trans hidxshape, ?_⟩
  intro i t hi ht
  have hadd : P - 1 + t = P + t - 1 := by omega
  rw [hSget, Tensor.get?_expand (n := responseIds.shape.1) hi, List.getElem?_range' ht, Nat.one_mul,
    hadd, Option.bind_some]

/-- **The padded scorer.**  A well-formed request is scored row by row. -/
theorem score_eq_ok [Fintype Tok] (lm : CausalLM Tok) (padTokenId : Tok)
    {request : TeacherScoreRequest Tok} (hw : request.WellFormed) :
    ∃ out, score lm padTokenId request = .ok out ∧
      ScoresRows lm request.temperature request.promptAttentionMask request.promptInputIds
        request.responseMask request.responseIds out.responseLogProbs := by
  obtain ⟨promptIds, promptMask, responseIds, responseMask, temperature⟩ := request
  obtain ⟨hprompt, hresp, hrows, hcols, hleft, htemp⟩ := hw
  simp only at hprompt hresp hrows hcols hleft htemp ⊢
  have hpcols : promptIds.cols = promptMask.cols := congrArg Prod.snd hprompt
  have hguard : assertLeftPaddedPrefixMask promptMask = .ok () :=
    (assertLeftPaddedPrefixMask_eq_ok_iff (hpcols ▸ hcols)).mpr hleft
  -- the joined tensors have one shape
  generalize hJ : joinPrefix padTokenId promptIds promptMask responseIds responseMask = J
  have hids : J.inputIds.shape = (responseIds.shape.1, promptIds.cols + responseIds.cols) := by
    rw [← hJ]
    exact shape_joinPrefix_inputIds hresp hrows
  have hmask : J.attentionMask.shape = J.inputIds.shape := by
    rw [← hJ]
    exact shape_joinPrefix_attentionMask hprompt hresp hrows
  have hpos : J.positionIds.shape = J.inputIds.shape := by
    rw [← hmask, ← hJ]
    exact shape_joinPrefix_positionIds
  have hfwd := lm.shape_forward J.inputIds J.attentionMask J.positionIds
  obtain ⟨S, hidxshape, hS, hSshape, hSget⟩ := exists_gatherPositions hcols (hfwd.trans hids)
  generalize hindex : Tensor.expand responseIds.shape.1
    (List.range' (promptIds.cols - 1) responseIds.cols) = index at hidxshape hS
  have hinputs : buildCausalScoreInputs promptIds promptMask responseIds responseMask padTokenId =
      .ok _ := buildCausalScoreInputs_eq_ok_iff.mpr ⟨hprompt, hresp, hrows, hguard, rfl⟩
  have hscore : score lm padTokenId
      ⟨promptIds, promptMask, responseIds, responseMask, temperature⟩ =
      .ok ⟨Tensor.map₂ (logSoftmax temperature) S responseIds, responseMask, responseMask.count⟩ := by
    simp only [score, hinputs, hJ, hindex, gatherResponseLogProbs, bind, Except.bind, hidxshape, hS,
      if_neg (not_le.mpr htemp), ne_eq, not_true_eq_false, if_false]
    rfl
  refine ⟨_, hscore, ?_, ?_⟩
  · rw [Tensor.shape_map₂, hSshape, inf_idem]
  · intro i pm p rm r t v hpm hp hrm hr hv
    have hi : i < responseIds.rows.length := (List.getElem?_eq_some_iff.mp hr).1
    have ht : t < responseIds.cols := by
      rw [← Tensor.length_of_getElem? hr]
      exact (List.getElem?_eq_some_iff.mp hv).1
    have hplen : p.length = promptIds.cols := Tensor.length_of_getElem? hp
    have hpmlen : pm.length = promptIds.cols := (Tensor.length_of_getElem? hpm).trans hpcols.symm
    have hrlen : rm.length = r.length :=
      Tensor.length_eq_of_shape hresp.symm hrm hr
    have hJm : J.attentionMask.rows[i]? = some (pm ++ rm) := by
      rw [← hJ]; exact joinPrefix_attention hpm hrm
    have hJi : J.inputIds.rows[i]? = some (p ++ fill padTokenId rm r) := by
      rw [← hJ]; exact joinPrefix_ids hp hr hrm
    have hJp : J.positionIds.rows[i]? = some (ranks 0 (pm ++ rm)) := by
      rw [← hJ]; exact joinPrefix_positions hpm hrm
    -- the column before response column `t`
    have hsome : ∃ b, (pm ++ rm)[p.length + t - 1]? = some b := by
      refine ⟨_, List.getElem?_eq_getElem ?_⟩
      rw [List.length_append, hpmlen, hrlen, Tensor.length_of_getElem? hr]
      omega
    obtain ⟨b, hb⟩ := hsome
    have hmaskget : J.attentionMask.get? i (promptIds.cols + t - 1) = some b := by
      rw [Tensor.get?, hJm, Option.bind_some, ← hplen, hb]
    obtain ⟨z, hz⟩ := Tensor.exists_get?_of_shape (hmask.trans hfwd.symm) hmaskget
    refine ⟨z, ?_, ?_⟩
    · rw [Tensor.get?_map₂, hSget i t hi ht, hz, Tensor.get?, hr, Option.bind_some, hv]
      rfl
    · cases b with
      | false => exact .inr ⟨hb, _, _, _, _, _, hmaskget, hz⟩
      | true =>
          refine .inl ⟨hb, ?_⟩
          have h := lm.forward_attended J.inputIds J.attentionMask J.positionIds i _ hmask hpos
            hmaskget
          rw [hz] at h
          have hadd : promptIds.cols + t - 1 + 1 = promptIds.cols + t := by omega
          rw [Option.some.inj h, attendedUpTo, hJm, hJi, hJp, hadd]
          exact congrArg lm.logits (select_joined padTokenId hplen hpmlen hrlen t)

end ExtpiRlsd
