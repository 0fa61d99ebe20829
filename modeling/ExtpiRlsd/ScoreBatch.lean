import ExtpiRlsd.Lib.Checked
import ExtpiRlsd.PromptAssembly
import ExtpiRlsd.Scorer
import Mathlib

/-! # Teacher score batches

The two batch builders of `trainer.py`.  `buildPiTeacherScoreBatch` puts the original responses
behind the tokenised privileged prompts, `buildDirectOpdTeacherScoreBatch` behind the student's
own prompts; both join prefix and response by `joinPrefix`, with the response mask as the
attention mask of the response.

`buildPiTeacherScoreBatch_eq_ok` says what is known of a batch that the first builder returns:
every row passed the leak guard and was counted, and the prefix rows are the tokenised prompts
of the rows, truncated and padded on the left. -/

namespace ExtpiRlsd

open Tensors Masks PyText Checked

variable {Tok : Type}

/-- The errors of the teacher path of the trainer, with those of the operations it uses. -/
inductive TrainerError where
  | missingKey (key : String)
  | missingExtraInfo (piTraceField : PyStr)
  | extraInfoType (typeRepr : PyStr)
  | missingProblem (sampleId : PyStr)
  | rawPromptIndex (rowIdx : ℕ)
  | leak (e : LeakError)
  | chatTemplate
  | missingTraces (piTraceField : PyStr) (ids : List PyStr)
  | promptTooLong (tokens maxLength : ℕ)
  | emptyPrefix
  | prefixRow
  | batchSize
  | catSizes
  | teacherThinking
  | attentionWidth (width promptCols : ℕ)
  | promptWidth (width maxPromptLength : ℕ)
  | microBatchSize
  | emptyCat
  | exclusiveModes
  | backend
  | lambdaWarmup
  | lambdaDecay
  | tokenMaskSpec (spec : PyStr)
  | teacherShape (name : String) (got mask : ℕ × ℕ)
  | scorer (e : ScorerError)
  | padding (e : PaddingError)
deriving DecidableEq

def TrainerError.message : TrainerError → String
  | missingKey key => "source batch is missing required tensor key '" ++ key ++ "'"
  | missingExtraInfo field =>
      "ExtPI-RLSD requires extra_info with problem and " ++ String.ofList field
  | extraInfoType typeRepr => "Expected extra_info dict, got " ++ String.ofList typeRepr
  | missingProblem sampleId =>
      "ExtPI-RLSD sample " ++ String.ofList sampleId ++ " is missing extra_info.problem"
  | rawPromptIndex rowIdx => "index " ++ toString rowIdx ++ " is out of bounds"
  | leak e => e.message
  | chatTemplate => "the chat template could not be applied"
  | missingTraces field ids =>
      "ExtPI-RLSD requires " ++ String.ofList field ++ " for every sample; missing ids: " ++
        String.ofList (join ", ".toList (ids.take 5))
  | promptTooLong tokens maxLength =>
      "PI teacher prompt has " ++ toString tokens ++
        " tokens, exceeding teacher_max_prompt_length=" ++ toString maxLength
  | emptyPrefix => "PI teacher prompt tokenized to an empty prefix"
  | prefixRow => "the prefix does not fit into the row"
  | batchSize => "PI prompt batch size does not match response batch size"
  | catSizes => "Sizes of tensors must match except in dimension 1"
  | teacherThinking =>
      "direct_opd_teacher_thinking=True is incompatible with exact student prompt reuse"
  | attentionWidth width promptCols =>
      "Direct OPD-PG requires attention_mask to include the prompt segment: " ++
        "attention width " ++ toString width ++ " < prompt width " ++ toString promptCols
  | promptWidth width maxPromptLength =>
      "Direct OPD-PG requires the exact student prompt prefix and cannot truncate it: " ++
        "prompt width " ++ toString width ++ " exceeds teacher_max_prompt_length=" ++
        toString maxPromptLength
  | microBatchSize => "range() arg 3 must not be zero"
  | emptyCat => "torch.cat(): expected a non-empty list of Tensors"
  | exclusiveModes => "RLSD and direct OPD-PG modes are mutually exclusive"
  | backend => "Direct OPD-PG MVP only supports direct_opd_teacher_backend=inline_external_hf"
  | lambdaWarmup => "actor.policy_loss.rlsd_lambda_warmup_steps must be non-negative"
  | lambdaDecay => "actor.policy_loss.rlsd_lambda_decay_steps must be non-negative"
  | tokenMaskSpec spec =>
      "actor.policy_loss.rlsd_token_mask must be one of all, all8k, 2k+ans, 4k+ans, or 6k+ans; " ++
        "got " ++ String.ofList (reprStr (fun _ => true) spec)
  | teacherShape name got mask =>
      name ++ " shape mismatch: " ++ toString got ++ " vs response_mask " ++ toString mask
  | scorer e => e.message
  | padding e => e.message

/-- An entry of `extra_info`: a Python value, or a scalar that converts by `as_py`. -/
inductive InfoItem where
  | value (v : PyVal)
  | scalar (asPy : PyVal)

/-- The keys of the source batch that the builders read.  All tensors and arrays of a batch have
one size along the batch dimension; the rollout gives responses and response mask one shape. -/
structure SourceBatch (Tok : Type) where
  batchSize : ℕ
  prompts : Option (Tensor Tok)
  responses : Option (Tensor Tok)
  attentionMask : Option (Tensor Bool)
  responseMask : Option (Tensor Bool)
  extraInfo : Option (List InfoItem)
  rawPrompt : Option (List PyVal)
  size_prompts : ∀ x ∈ prompts, x.rows.length = batchSize
  size_responses : ∀ x ∈ responses, x.rows.length = batchSize
  size_attentionMask : ∀ x ∈ attentionMask, x.rows.length = batchSize
  size_extraInfo : ∀ x ∈ extraInfo, x.length = batchSize
  size_rawPrompt : ∀ x ∈ rawPrompt, x.length = batchSize
  shape_responseMask : ∀ r ∈ responses, ∀ m ∈ responseMask, m.shape = r.shape

/-- The counts `privacy/student_prompt_pi_leak_checked_count` and `.._leak_count`. -/
structure PrivacyCounts where
  leakCheckedCount : ℕ
  leakCount : ℕ

/-- Metrics of a batch build; the privacy counts exist for privileged prompts only. -/
structure BuildMetrics where
  promptTruncatedCount : ℕ
  promptTokensMean : ℚ
  responseTokens : ℕ
  privacy : Option PrivacyCounts

structure PiTeacherBatchBuild (Tok : Type) where
  batch : PaddedBatch Tok
  metrics : BuildMetrics
  prompts : List PyStr

def asDict : InfoItem → Except TrainerError (List (PyStr × PyVal))
  | .value (.dict items) => .ok items
  | .scalar (.dict items) => .ok items
  | .value v => .error (.extraInfoType v.typeRepr)
  | .scalar v => .error (.extraInfoType v.typeRepr)

/-! ### Prefixes -/

/-- One tokenised prompt, cut to the maximal length if that is allowed. -/
def normalizeIds (maxLength : ℕ) (allowTruncation truncationLeft : Bool) (ids : List Tok) :
    Except TrainerError (List Tok) :=
  if ids.length ≤ maxLength then .ok ids
  else if !allowTruncation then .error (.promptTooLong ids.length maxLength)
  -- the slice `ids[-0:]` is the whole list
  else .ok (if truncationLeft && maxLength ≠ 0 then ids.drop (ids.length - maxLength)
    else if truncationLeft then ids else ids.take maxLength)

/-- `_tokenize_prefixes`: the padded ids, their mask and the number of truncated prompts. -/
def tokenizePrefixes (tokenizer : Tokenizer Tok) (prompts : List PyStr) (maxLength : ℕ)
    (padTokenId : Tok) (allowTruncation : Bool) :
    Except TrainerError (Tensor Tok × Tensor Bool × ℕ) := do
  let encoded := tokenizer.encode prompts
  let normalized ← encoded.mapM (normalizeIds maxLength allowTruncation tokenizer.truncationLeft)
  let truncated := encoded.countP fun ids => decide (maxLength < ids.length)
  if normalized.any List.isEmpty then throw .emptyPrefix
  let inputIds := Tensor.ofRows? maxLength
    (normalized.map fun ids => List.replicate (maxLength - ids.length) padTokenId ++ ids)
  let attentionMask := Tensor.ofRows? maxLength (normalized.map fun ids =>
    List.replicate (maxLength - ids.length) false ++ List.replicate ids.length true)
  match inputIds, attentionMask with
  | some inputIds, some attentionMask => return (inputIds, attentionMask, truncated)
  | _, _ => throw .prefixRow

/-- The joined batch; `none` when the sizes do not match. -/
def scoreBatch? (padTokenId : Tok) (prefixIds : Tensor Tok) (prefixMask : Tensor Bool)
    (responses : Tensor Tok) (responseMask : Tensor Bool) : Option (PaddedBatch Tok) :=
  if h : prefixIds.shape = prefixMask.shape ∧ responses.shape = responseMask.shape ∧
      prefixIds.rows.length = responses.rows.length then
    let joined := joinPrefix padTokenId prefixIds prefixMask responses responseMask
    some {
      prompts := prefixIds
      responses
      inputIds := joined.inputIds
      attentionMask := joined.attentionMask
      positionIds := joined.positionIds
      responseMask
      shape_prompts := h.2.2
      shape_responseMask := h.2.1.symm
      shape_inputIds := shape_joinPrefix_inputIds h.2.1 h.2.2
      shape_attentionMask := shape_joinPrefix_attentionMask h.1 h.2.1 h.2.2
      shape_positionIds := shape_joinPrefix_positionIds.trans
        (shape_joinPrefix_attentionMask h.1 h.2.1 h.2.2) }
  else none

/-- `pad_token_id`, else `eos_token_id or 0`. -/
def padId [Zero Tok] (tokenizer : Tokenizer Tok) : Tok :=
  tokenizer.padTokenId.getD (tokenizer.eosTokenId.getD 0)

/-- Mean number of attended tokens of a prefix row. -/
def promptTokensMean (prefixMask : Tensor Bool) : ℚ :=
  prefixMask.count / prefixMask.rows.length

/-! ### Privileged prompts -/

/-- The loop state of the scan over `extra_info`. -/
structure PromptScan where
  prompts : List PyStr
  missingTraceIds : List PyStr
  leakCheckedCount : ℕ
  leakCount : ℕ

section pi
variable (printable : Char → Bool) (tokenizer : Tokenizer Tok)

/-- The guard of one row; a leak raises, so the count of leaks never leaves the loop. -/
def checkStudentPrompt (rawPrompts : Option (List PyVal)) (rowIdx : ℕ) (trace : PyStr)
    (scan : PromptScan) : Except TrainerError PromptScan :=
  match rawPrompts with
  | none => .ok scan
  | some rawPrompts => match rawPrompts[rowIdx]? with
    | none => .error (.rawPromptIndex rowIdx)
    | some rawPrompt =>
        match assertNoPiInStudentPrompt ((rawPromptToText printable rawPrompt).getD []) trace with
        | .error e => .error (.leak e)
        | .ok _ => .ok { scan with leakCheckedCount := scan.leakCheckedCount + 1 }

/-- One row of the scan: the problem must be there, a missing trace is noted, and the prompt of
the student must pass the guard before the privileged prompt is built. -/
def scanRow (teacherThinking : Bool) (piTraceField : PyStr) (rawPrompts : Option (List PyVal))
    (scan : PromptScan) (row : List (PyStr × PyVal) × ℕ) : Except TrainerError PromptScan := do
  let (extra, rowIdx) := row
  let problem := (PyVal.get? "problem".toList extra).getD .none
  let trace := (PyVal.get? piTraceField extra).getD .none
  let sampleId := ((PyVal.get? "id".toList extra).getD (.int rowIdx)).toStr printable
  if !problem.truthy then throw (.missingProblem sampleId)
  if !trace.truthy then
    return { scan with missingTraceIds := scan.missingTraceIds ++ [sampleId] }
  let scan ← checkStudentPrompt printable rawPrompts rowIdx (trace.toStr printable) scan
  match buildPiTeacherPrompt tokenizer (problem.toStr printable) (trace.toStr printable)
      teacherThinking with
  | none => throw .chatTemplate
  | some prompt => return { scan with prompts := scan.prompts ++ [prompt] }

/-- `build_pi_teacher_score_batch`. -/
def buildPiTeacherScoreBatch [Zero Tok] (sourceBatch : SourceBatch Tok) (maxPromptLength : ℕ)
    (allowPromptTruncation teacherThinking : Bool) (piTraceField : PyStr) :
    Except TrainerError (PiTeacherBatchBuild Tok) := do
  let some responses := sourceBatch.responses | throw (.missingKey "responses")
  let some responseMask := sourceBatch.responseMask | throw (.missingKey "response_mask")
  let some extraInfo := sourceBatch.extraInfo | throw (.missingExtraInfo piTraceField)
  let extraInfos ← extraInfo.mapM asDict
  let scan ← extraInfos.zipIdx.foldlM
    (scanRow printable tokenizer teacherThinking piTraceField sourceBatch.rawPrompt) ⟨[], [], 0, 0⟩
  if scan.missingTraceIds ≠ [] then throw (.missingTraces piTraceField scan.missingTraceIds)
  let padTokenId := padId tokenizer
  let (prefixIds, prefixMask, truncated) ← tokenizePrefixes tokenizer scan.prompts maxPromptLength
    padTokenId allowPromptTruncation
  if prefixIds.rows.length ≠ responses.rows.length then throw .batchSize
  let some batch := scoreBatch? padTokenId prefixIds prefixMask responses responseMask
    | throw .catSizes
  return {
    batch
    metrics := {
      promptTruncatedCount := truncated
      promptTokensMean := promptTokensMean prefixMask
      responseTokens := responseMask.count
      privacy := some ⟨scan.leakCheckedCount, scan.leakCount⟩ }
    prompts := scan.prompts }

end pi

/-! ### Student prompts -/

/-- `build_direct_opd_teacher_score_batch`.  A truncation is refused whatever
`allow_prompt_truncation` says, which the function does not read. -/
def buildDirectOpdTeacherScoreBatch [Zero Tok] (sourceBatch : SourceBatch Tok)
    (tokenizer : Tokenizer Tok) (maxPromptLength : ℕ) (teacherThinking : Bool) :
    Except TrainerError (PiTeacherBatchBuild Tok) := do
  let some prefixIds := sourceBatch.prompts | throw (.missingKey "prompts")
  let some responses := sourceBatch.responses | throw (.missingKey "responses")
  let some fullAttentionMask := sourceBatch.attentionMask | throw (.missingKey "attention_mask")
  let some responseMask := sourceBatch.responseMask | throw (.missingKey "response_mask")
  if teacherThinking then throw .teacherThinking
  let padTokenId := padId tokenizer
  let prefixWidth := prefixIds.cols
  if fullAttentionMask.cols < prefixWidth then
    throw (.attentionWidth fullAttentionMask.cols prefixWidth)
  let prefixMask := fullAttentionMask.takeCols prefixWidth
  (assertLeftPaddedPrefixMask prefixMask).mapError .scorer
  if maxPromptLength < prefixWidth then throw (.promptWidth prefixWidth maxPromptLength)
  let some batch := scoreBatch? padTokenId prefixIds prefixMask responses responseMask
    | throw .catSizes
  return {
    batch
    metrics := {
      promptTruncatedCount := 0
      promptTokensMean := promptTokensMean prefixMask
      responseTokens := responseMask.count
      privacy := none }
    prompts := [] }

/-! ### Joined batches -/

/-- The batch is a prefix and its responses, joined under a prefix mask. -/
structure Joined (padTokenId : Tok) (prefixMask : Tensor Bool) (b : PaddedBatch Tok) : Prop where
  shape_prefixIds : b.prompts.shape = prefixMask.shape
  inputIds : b.inputIds =
    (joinPrefix padTokenId b.prompts prefixMask b.responses b.responseMask).inputIds
  attentionMask : b.attentionMask =
    (joinPrefix padTokenId b.prompts prefixMask b.responses b.responseMask).attentionMask
  positionIds : b.positionIds =
    (joinPrefix padTokenId b.prompts prefixMask b.responses b.responseMask).positionIds

section joined
variable {padTokenId : Tok} {prefixIds responses : Tensor Tok}
  {prefixMask responseMask : Tensor Bool} {b : PaddedBatch Tok}

theorem scoreBatch?_eq_some
    (h : scoreBatch? padTokenId prefixIds prefixMask responses responseMask = some b) :
    b.prompts = prefixIds ∧ b.responses = responses ∧ b.responseMask = responseMask ∧
      Joined padTokenId prefixMask b := by
  unfold scoreBatch? at h
  split at h
  · rename_i hsizes
    cases h
    exact ⟨rfl, rfl, rfl, hsizes.1, rfl, rfl, rfl⟩
  · cases h

theorem scoreBatch?_isSome (padTokenId : Tok) (hpre : prefixIds.shape = prefixMask.shape)
    (hresp : responses.shape = responseMask.shape)
    (hrows : prefixIds.rows.length = responses.rows.length) :
    ∃ b, scoreBatch? padTokenId prefixIds prefixMask responses responseMask = some b := by
  rw [scoreBatch?, dif_pos ⟨hpre, hresp, hrows⟩]
  exact ⟨_, rfl⟩

/-- The prefix columns of the joined attention mask are the prefix mask. -/
theorem Joined.takeCols_attentionMask (hj : Joined padTokenId prefixMask b) :
    b.attentionMask.takeCols b.prompts.cols = prefixMask := by
  have hrows : prefixMask.rows.length = b.responseMask.rows.length := by
    have h1 := congrArg Prod.fst hj.shape_prefixIds
    have h2 := congrArg Prod.fst b.shape_responseMask
    exact (h1.symm.trans b.shape_prompts).trans h2.symm
  have hcols : b.prompts.cols = prefixMask.cols := congrArg Prod.snd hj.shape_prefixIds
  rw [hj.attentionMask]
  refine Tensor.ext ?_ (List.ext_getElem? fun i => ?_)
  · show min b.prompts.cols (prefixMask.cols + b.responseMask.cols) = prefixMask.cols
    omega
  · rw [Tensor.getElem?_takeCols, joinPrefix, Tensor.getElem?_catCols]
    cases hpm : prefixMask.rows[i]? with
    | none => rfl
    | some pm =>
        obtain ⟨hi, -⟩ := List.getElem?_eq_some_iff.mp hpm
        rw [hrows] at hi
        rw [List.getElem?_eq_getElem hi]
        simp only [Option.map₂_some_some, Option.map_some]
        rw [hcols, ← Tensor.length_of_getElem? hpm, List.take_left]

/-- **Log-probs of a joined batch.**  Column `t` of a row scores its `t`-th valid response token
after its prefix ids and the valid response tokens before that one. -/
theorem Joined.computeLogProb_entries {α : Type} [Zero α] (hj : Joined padTokenId prefixMask b)
    (logProb : List (Tok × ℕ) → Tok → α) (hne : b.responses.rows ≠ [])
    (hleft : ∀ m ∈ prefixMask.rows, LeftPadded m) :
    ∃ T, computeLogProb logProb b = .ok T ∧ T.shape = b.responses.shape ∧
      ∀ i pm p rm r t, prefixMask.rows[i]? = some pm → b.prompts.rows[i]? = some p →
        b.responseMask.rows[i]? = some rm → b.responses.rows[i]? = some r →
        t < b.responses.cols →
        T.get? i t = some (((select rm r)[t]?.map
          (logProb ((select pm p ++ (select rm r).take t).zipIdx))).getD 0) := by
  have hcounts : CountsAttended b := by
    rw [CountsAttended, hj.positionIds, hj.attentionMask]
    rfl
  have hprompt : ∀ m ∈ (b.attentionMask.takeCols b.prompts.cols).rows, 0 < m.count true := by
    rw [hj.takeCols_attentionMask]
    exact fun m hm => (hleft m hm).count_pos
  obtain ⟨T, hT, hshape, hentry⟩ := ExtpiRlsd.computeLogProb_entries logProb hne hcounts hprompt
  refine ⟨T, hT, hshape, fun i pm p rm r t hpm hp hrm hr ht => ?_⟩
  have ha : b.attentionMask.rows[i]? = some (pm ++ rm) := by
    rw [hj.attentionMask]
    exact joinPrefix_attention hpm hrm
  have hx : b.inputIds.rows[i]? = some (p ++ fill padTokenId rm r) := by
    rw [hj.inputIds]
    exact joinPrefix_ids hp hr hrm
  have hpmlen : pm.length = b.prompts.cols := by
    rw [Tensor.length_of_getElem? hpm]
    exact (congrArg Prod.snd hj.shape_prefixIds).symm
  rw [hentry i pm rm p _ t ha hpmlen hx (Tensor.length_of_getElem? hp) ht, select_fill]

end joined

/-! ### What a build is made of -/

/-- The padded row of a tokenised prompt. -/
def paddedIds (width : ℕ) (padTokenId : Tok) (ids : List Tok) : List Tok :=
  List.replicate (width - ids.length) padTokenId ++ ids

/-- The mask of a tokenised prompt. -/
def paddedMask (width : ℕ) (ids : List Tok) : List Bool :=
  List.replicate (width - ids.length) false ++ List.replicate ids.length true

theorem leftPadded_paddedMask {width : ℕ} {ids : List Tok} (h : ids ≠ []) :
    LeftPadded (paddedMask width ids) :=
  ⟨_, _, List.length_pos_of_ne_nil h, rfl⟩

theorem select_paddedMask (width : ℕ) (padTokenId : Tok) (ids : List Tok) :
    select (paddedMask width ids) (paddedIds width padTokenId ids) = ids := by
  rw [paddedMask, paddedIds, select_append (by simp), select_replicate_false,
    select_replicate_true, List.take_length]
  rfl

theorem tokenizePrefixes_eq_ok {tokenizer : Tokenizer Tok} {prompts : List PyStr} {maxLength : ℕ}
    {padTokenId : Tok} {allowTruncation : Bool} {prefixIds : Tensor Tok}
    {prefixMask : Tensor Bool} {truncated : ℕ}
    (h : tokenizePrefixes tokenizer prompts maxLength padTokenId allowTruncation =
      .ok (prefixIds, prefixMask, truncated)) :
    ∃ normalized, List.Forall₂ (fun ids ns => normalizeIds maxLength allowTruncation
        tokenizer.truncationLeft ids = .ok ns) (tokenizer.encode prompts) normalized ∧
      (∀ ids ∈ normalized, ids ≠ []) ∧
      prefixIds.rows = normalized.map (paddedIds maxLength padTokenId) ∧
      prefixMask.rows = normalized.map (paddedMask maxLength) ∧
      prefixIds.cols = maxLength ∧ prefixMask.cols = maxLength ∧
      truncated = (tokenizer.encode prompts).countP fun ids => decide (maxLength < ids.length) := by
  unfold tokenizePrefixes at h
  obtain ⟨normalized, hn, h⟩ := bind_eq_ok_iff.mp h
  obtain ⟨hempty, h⟩ := guard_eq_ok_iff.mp h
  refine ⟨normalized, mapM_eq_ok_iff.mp hn, fun ids hids hnil => ?_, ?_⟩
  · refine hempty (List.any_eq_true.mpr ⟨ids, hids, ?_⟩)
    rw [hnil]
    rfl
  · cases hids : Tensor.ofRows? maxLength (normalized.map fun ids =>
        List.replicate (maxLength - ids.length) padTokenId ++ ids) with
    | none => simp [hids] at h
    | some x => cases hmask : Tensor.ofRows? maxLength (normalized.map fun ids =>
        List.replicate (maxLength - ids.length) false ++ List.replicate ids.length true) with
      | none => simp [hids, hmask] at h
      | some y =>
          simp only [hids, hmask] at h
          cases h
          obtain ⟨hx, hxc⟩ := Tensor.rows_of_ofRows? hids
          obtain ⟨hy, hyc⟩ := Tensor.rows_of_ofRows? hmask
          exact ⟨hx, hy, hxc, hyc, rfl⟩

/-- What is known of a batch of privileged prompts: the scan that produced its prompts, the
tokenised prompts that are its prefixes, and the responses joined to them. -/
structure PiBuilt [Zero Tok] (printable : Char → Bool) (tokenizer : Tokenizer Tok)
    (sourceBatch : SourceBatch Tok) (maxPromptLength : ℕ)
    (allowPromptTruncation teacherThinking : Bool) (piTraceField : PyStr)
    (build : PiTeacherBatchBuild Tok) (extraInfos : List (List (PyStr × PyVal)))
    (counts : PrivacyCounts) (normalized : List (List Tok)) (prefixMask : Tensor Bool) : Prop where
  infos : ∃ extraInfo, sourceBatch.extraInfo = some extraInfo ∧
    List.Forall₂ (fun item extra => asDict item = .ok extra) extraInfo extraInfos
  scan : extraInfos.zipIdx.foldlM
      (scanRow printable tokenizer teacherThinking piTraceField sourceBatch.rawPrompt)
      ⟨[], [], 0, 0⟩ = .ok ⟨build.prompts, [], counts.leakCheckedCount, counts.leakCount⟩
  privacy : build.metrics.privacy = some counts
  tokenized : List.Forall₂ (fun ids ns => normalizeIds maxPromptLength allowPromptTruncation
    tokenizer.truncationLeft ids = .ok ns) (tokenizer.encode build.prompts) normalized
  nonempty : ∀ ids ∈ normalized, ids ≠ []
  prefixRows : build.batch.prompts.rows =
    normalized.map (paddedIds maxPromptLength (padId tokenizer))
  maskRows : prefixMask.rows = normalized.map (paddedMask maxPromptLength)
  responses : sourceBatch.responses = some build.batch.responses
  responseMask : sourceBatch.responseMask = some build.batch.responseMask
  joined : Joined (padId tokenizer) prefixMask build.batch

theorem buildPiTeacherScoreBatch_eq_ok [Zero Tok] {printable : Char → Bool}
    {tokenizer : Tokenizer Tok} {sourceBatch : SourceBatch Tok} {maxPromptLength : ℕ}
    {allowPromptTruncation teacherThinking : Bool} {piTraceField : PyStr}
    {build : PiTeacherBatchBuild Tok}
    (h : buildPiTeacherScoreBatch printable tokenizer sourceBatch maxPromptLength
      allowPromptTruncation teacherThinking piTraceField = .ok build) :
    ∃ extraInfos counts normalized prefixMask, PiBuilt printable tokenizer sourceBatch
      maxPromptLength allowPromptTruncation teacherThinking piTraceField build extraInfos counts
      normalized prefixMask := by
  unfold buildPiTeacherScoreBatch at h
  cases hresponses : sourceBatch.responses with
  | none => simp [hresponses] at h
  | some responses => cases hmask : sourceBatch.responseMask with
    | none => simp [hresponses, hmask] at h
    | some responseMask => cases hinfo : sourceBatch.extraInfo with
      | none => simp [hresponses, hmask, hinfo] at h
      | some extraInfo =>
          simp only [hresponses, hmask, hinfo] at h
          obtain ⟨extraInfos, hdicts, h⟩ := bind_eq_ok_iff.mp h
          obtain ⟨⟨prompts, missing, checked, leaks⟩, hscan, h⟩ := bind_eq_ok_iff.mp h
          obtain ⟨hmissing, h⟩ := guard_eq_ok_iff.mp h
          obtain ⟨⟨prefixIds, prefixMask, truncated⟩, htok, h⟩ := bind_eq_ok_iff.mp h
          obtain ⟨hsize, h⟩ := guard_eq_ok_iff.mp h
          obtain rfl : missing = [] := not_not.mp hmissing
          cases hbatch : scoreBatch? (padId tokenizer) prefixIds prefixMask responses
              responseMask with
          | none => simp [hbatch] at h
          | some batch =>
              simp only [hbatch] at h
              obtain rfl := Except.ok.inj h
              obtain ⟨normalized, hforall, hne, hrows, hmrows, -, -, -⟩ :=
                tokenizePrefixes_eq_ok htok
              obtain ⟨hp, hr, hm, hjoined⟩ := scoreBatch?_eq_some hbatch
              refine ⟨extraInfos, ⟨checked, leaks⟩, normalized, prefixMask,
                ⟨extraInfo, hinfo, mapM_eq_ok_iff.mp hdicts⟩, hscan, rfl, hforall, hne, ?_, hmrows,
                ?_, ?_, hjoined⟩
              · rw [hp, hrows]
              · rw [hresponses, hr]
              · rw [hmask, hm]

end ExtpiRlsd
