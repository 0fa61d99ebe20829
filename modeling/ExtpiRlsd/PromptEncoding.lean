import ExtpiRlsd.Privacy

/-! # How a privileged score batch encodes its rows

`buildPiTeacherScoreBatch` on rows that all have a problem and a trace.  The scan then collects
the prompts of all rows in order (`foldlM_scanRow_of_ready`), and what remains to fail is the
tokenisation: a prompt without tokens, or a prompt that is too long and may not be cut
(`Encodable`).  Behind a returned batch the attended places of a row hold the
cut prompt of that row and its valid response tokens, numbered from zero.

The tokenizer comes from outside; of it is assumed that its chat template renders every user
message and that a batched call encodes every text by itself (`EncodesEach`). -/

namespace ExtpiRlsd

open Tensors Masks PyText Checked

variable {Tok : Type}

/-! ### One prompt -/

/-- The last or the first `maxLength` ids. -/
def cutIds (maxLength : ℕ) (truncationLeft : Bool) (ids : List Tok) : List Tok :=
  if truncationLeft then ids.drop (ids.length - maxLength) else ids.take maxLength

theorem length_cutIds (maxLength : ℕ) (truncationLeft : Bool) (ids : List Tok) :
    (cutIds maxLength truncationLeft ids).length = min ids.length maxLength := by
  cases truncationLeft with
  | false =>
      show (ids.take maxLength).length = _
      rw [List.length_take, Nat.min_comm]
  | true =>
      show (ids.drop (ids.length - maxLength)).length = _
      rw [List.length_drop]
      omega

theorem cutIds_eq_nil_iff {maxLength : ℕ} (hmax : 1 ≤ maxLength) (truncationLeft : Bool)
    {ids : List Tok} : cutIds maxLength truncationLeft ids = [] ↔ ids = [] := by
  rw [← List.length_eq_zero_iff, ← List.length_eq_zero_iff, length_cutIds]
  omega

theorem normalizeIds_eq_ok_iff {maxLength : ℕ} (hmax : 1 ≤ maxLength)
    {allowTruncation truncationLeft : Bool} {ids normalized : List Tok} :
    normalizeIds maxLength allowTruncation truncationLeft ids = .ok normalized ↔
      (allowTruncation = false → ids.length ≤ maxLength) ∧
        normalized = cutIds maxLength truncationLeft ids := by
  unfold normalizeIds
  by_cases hfits : ids.length ≤ maxLength
  · have hcut : cutIds maxLength truncationLeft ids = ids := by
      cases truncationLeft with
      | false => exact List.take_of_length_le hfits
      | true =>
          show ids.drop (ids.length - maxLength) = ids
          rw [Nat.sub_eq_zero_of_le hfits, List.drop_zero]
    rw [if_pos hfits, hcut]
    constructor
    · intro h
      exact ⟨fun _ => hfits, (Except.ok.inj h).symm⟩
    · rintro ⟨-, rfl⟩
      rfl
  · rw [if_neg hfits]
    cases allowTruncation with
    | false =>
        constructor
        · intro h
          cases h
        · rintro ⟨h, -⟩
          exact absurd (h rfl) hfits
    | true =>
        have hslice : (if (truncationLeft && decide (maxLength ≠ 0)) = true then
            ids.drop (ids.length - maxLength)
            else if truncationLeft = true then ids else ids.take maxLength) =
            cutIds maxLength truncationLeft ids := by
          have hne : maxLength ≠ 0 := by omega
          cases truncationLeft <;> simp [cutIds, hne]
        simp only [Bool.not_true, Bool.false_eq_true, if_false, hslice, Except.ok.injEq,
          reduceCtorEq, false_implies, true_and]
        exact eq_comm

/-! ### All prompts -/

/-- Every encoded prompt has a token and fits, or may be cut. -/
def Encodable (maxLength : ℕ) (allowTruncation : Bool) (encoded : List (List Tok)) : Prop :=
  ∀ ids ∈ encoded, ids ≠ [] ∧ (allowTruncation = false → ids.length ≤ maxLength)

section tokenize
variable {tokenizer : Tokenizer Tok} {prompts : List PyStr} {maxLength : ℕ} {padTokenId : Tok}
  {allowTruncation : Bool}

theorem length_paddedIds (padTokenId : Tok) {width : ℕ} {ids : List Tok} (h : ids.length ≤ width) :
    (paddedIds width padTokenId ids).length = width := by
  rw [paddedIds, List.length_append, List.length_replicate]
  omega

theorem length_paddedMask {width : ℕ} {ids : List Tok} (h : ids.length ≤ width) :
    (paddedMask width ids).length = width := by
  rw [paddedMask, List.length_append, List.length_replicate, List.length_replicate]
  omega

/-- Rows that an operation brings to one length form a tensor. -/
theorem exists_ofRows?_map {α β : Type} {f : α → List β} {width : ℕ} {xs : List α}
    (h : ∀ x ∈ xs, (f x).length = width) :
    ∃ x, Tensor.ofRows? width (xs.map f) = some x ∧ x.rows = xs.map f ∧ x.cols = width := by
  have hrows : ∀ r ∈ xs.map f, r.length = width := by
    intro r hr
    obtain ⟨x, hx, rfl⟩ := List.mem_map.mp hr
    exact h x hx
  exact ⟨_, Tensor.ofRows?_eq_some hrows, rfl, rfl⟩

theorem mapM_normalizeIds_of_encodable (hmax : 1 ≤ maxLength) {truncationLeft : Bool}
    {encoded : List (List Tok)} (h : Encodable maxLength allowTruncation encoded) :
    encoded.mapM (normalizeIds maxLength allowTruncation truncationLeft) =
      .ok (encoded.map (cutIds maxLength truncationLeft)) := by
  rw [mapM_eq_ok_iff, List.forall₂_map_right_iff, List.forall₂_same]
  intro ids hids
  exact (normalizeIds_eq_ok_iff hmax).mpr ⟨(h ids hids).2, rfl⟩

theorem any_isEmpty_of_encodable (hmax : 1 ≤ maxLength) {truncationLeft : Bool}
    {encoded : List (List Tok)} (h : Encodable maxLength allowTruncation encoded) :
    (encoded.map (cutIds maxLength truncationLeft)).any List.isEmpty = false := by
  rw [List.any_eq_false, List.forall_mem_map]
  intro ids hids
  rw [List.isEmpty_iff, cutIds_eq_nil_iff hmax]
  exact (h ids hids).1

/-- Encodable prompts are cut and padded on the left. -/
theorem tokenizePrefixes_of_encodable (padTokenId : Tok) (hmax : 1 ≤ maxLength)
    (h : Encodable maxLength allowTruncation (tokenizer.encode prompts)) :
    ∃ prefixIds prefixMask, tokenizePrefixes tokenizer prompts maxLength padTokenId
        allowTruncation = .ok (prefixIds, prefixMask,
          (tokenizer.encode prompts).countP fun ids => decide (maxLength < ids.length)) ∧
      prefixIds.rows = (tokenizer.encode prompts).map (fun ids =>
        paddedIds maxLength padTokenId (cutIds maxLength tokenizer.truncationLeft ids)) ∧
      prefixMask.rows = (tokenizer.encode prompts).map (fun ids =>
        paddedMask maxLength (cutIds maxLength tokenizer.truncationLeft ids)) ∧
      prefixIds.cols = maxLength ∧ prefixMask.cols = maxLength := by
  have hfits : ∀ cut ∈ (tokenizer.encode prompts).map (cutIds maxLength tokenizer.truncationLeft),
      cut.length ≤ maxLength := by
    rw [List.forall_mem_map]
    intro ids _
    rw [length_cutIds]
    exact Nat.min_le_right _ _
  obtain ⟨prefixIds, hids, hidsRows, hidsCols⟩ := exists_ofRows?_map fun cut hcut =>
    length_paddedIds padTokenId (hfits cut hcut)
  obtain ⟨prefixMask, hmask, hmaskRows, hmaskCols⟩ := exists_ofRows?_map fun cut hcut =>
    length_paddedMask (hfits cut hcut)
  refine ⟨prefixIds, prefixMask, ?_, ?_, ?_, hidsCols, hmaskCols⟩
  · unfold paddedIds at hids
    unfold paddedMask at hmask
    rw [tokenizePrefixes, mapM_normalizeIds_of_encodable hmax h]
    simp only [bind, Except.bind, any_isEmpty_of_encodable hmax h, Bool.false_eq_true, if_false,
      hids, hmask]
    rfl
  · rw [hidsRows, List.map_map]
    rfl
  · rw [hmaskRows, List.map_map]
    rfl

/-- Prompts that were cut to non-empty rows were encodable. -/
theorem encodable_of_normalized (hmax : 1 ≤ maxLength) {truncationLeft : Bool}
    {encoded normalized : List (List Tok)} (hforall : List.Forall₂ (fun ids ns =>
      normalizeIds maxLength allowTruncation truncationLeft ids = .ok ns) encoded normalized)
    (hne : ∀ ids ∈ normalized, ids ≠ []) : Encodable maxLength allowTruncation encoded := by
  intro ids hids
  obtain ⟨ns, hns, hcut⟩ := exists_of_forall₂ hforall hids
  rw [normalizeIds_eq_ok_iff hmax] at hcut
  refine ⟨?_, hcut.1⟩
  intro hnil
  apply hne ns hns
  rw [hcut.2, hnil, cutIds_eq_nil_iff hmax]

end tokenize

/-! ### The scan -/

/-- What is relied on of the tokenizer: its chat template renders every user message, and a
batched call encodes every text by itself. -/
structure EncodesEach (tokenizer : Tokenizer Tok) (teacherThinking : Bool)
    (encodeOne : PyStr → List Tok) : Prop where
  rendered : ∀ userText, ∃ prompt, renderChat tokenizer userText teacherThinking = some prompt
  encoded : ∀ prompts, tokenizer.encode prompts = prompts.map encodeOne

section scan
variable (printable : Char → Bool) (tokenizer : Tokenizer Tok) (teacherThinking : Bool)
  (piTraceField : PyStr)

/-- The privileged prompt of a row of `extra_info`. -/
def rowPrompt (extra : List (PyStr × PyVal)) : PyStr :=
  (buildPiTeacherPrompt tokenizer
    (((PyVal.get? "problem".toList extra).getD .none).toStr printable)
    (traceOf printable piTraceField extra) teacherThinking).getD []

/-- A row with a problem and a trace; its student prompt, if there is one, passes the guard. -/
structure RowReady (rawPrompts : Option (List PyVal)) (row : List (PyStr × PyVal) × ℕ) :
    Prop where
  problem : ((PyVal.get? "problem".toList row.1).getD .none).truthy = true
  trace : ((PyVal.get? piTraceField row.1).getD .none).truthy = true
  checked : ∀ raws, rawPrompts = some raws → RowChecked printable piTraceField raws row

variable {printable tokenizer teacherThinking piTraceField}
  {rawPrompts : Option (List PyVal)} {encodeOne : PyStr → List Tok}

theorem checkStudentPrompt_of_checked {extra : List (PyStr × PyVal)} {rowIdx : ℕ}
    (h : ∀ raws, rawPrompts = some raws →
      RowChecked printable piTraceField raws (extra, rowIdx)) (scan : PromptScan) :
    ∃ count, checkStudentPrompt printable rawPrompts rowIdx (traceOf printable piTraceField extra)
      scan = .ok { scan with leakCheckedCount := count } := by
  cases rawPrompts with
  | none => exact ⟨scan.leakCheckedCount, rfl⟩
  | some raws =>
      obtain ⟨rawPrompt, hidx, hguard⟩ := h raws rfl
      refine ⟨scan.leakCheckedCount + 1, ?_⟩
      simp only [checkStudentPrompt, hidx, hguard]

/-- A row that is ready adds its prompt. -/
theorem scanRow_of_ready (ht : EncodesEach tokenizer teacherThinking encodeOne)
    {row : List (PyStr × PyVal) × ℕ} (h : RowReady printable piTraceField rawPrompts row)
    (scan : PromptScan) :
    ∃ count, scanRow printable tokenizer teacherThinking piTraceField rawPrompts scan row =
      .ok { scan with
        prompts := scan.prompts ++ [rowPrompt printable tokenizer teacherThinking piTraceField row.1]
        leakCheckedCount := count } := by
  obtain ⟨extra, rowIdx⟩ := row
  obtain ⟨count, hcheck⟩ := checkStudentPrompt_of_checked h.checked scan
  obtain ⟨prompt, hprompt⟩ := ht.rendered (piTeacherUserTemplate
    (((PyVal.get? "problem".toList extra).getD .none).toStr printable)
    (traceOf printable piTraceField extra))
  refine ⟨count, ?_⟩
  have hproblem := h.problem
  have htrace := h.trace
  simp only at hproblem htrace
  rw [rowPrompt, buildPiTeacherPrompt, hprompt]
  rw [traceOf] at hcheck hprompt
  simp only [scanRow, hproblem, htrace, Bool.not_true, Bool.false_eq_true, if_false, hcheck, bind,
    Except.bind, buildPiTeacherPrompt, hprompt]
  rfl

/-- **The scan of ready rows** collects their prompts in order. -/
theorem foldlM_scanRow_of_ready (ht : EncodesEach tokenizer teacherThinking encodeOne)
    {rows : List (List (PyStr × PyVal) × ℕ)}
    (h : ∀ row ∈ rows, RowReady printable piTraceField rawPrompts row) (scan : PromptScan) :
    ∃ count, rows.foldlM (scanRow printable tokenizer teacherThinking piTraceField rawPrompts) scan =
      .ok { scan with
        prompts := scan.prompts ++ rows.map fun row =>
          rowPrompt printable tokenizer teacherThinking piTraceField row.1
        leakCheckedCount := count } := by
  induction rows generalizing scan with
  | nil =>
      refine ⟨scan.leakCheckedCount, ?_⟩
      rw [List.map_nil, List.append_nil]
      rfl
  | cons row rows ih =>
      obtain ⟨count, hrow⟩ := scanRow_of_ready ht (h row List.mem_cons_self) scan
      obtain ⟨total, hrows⟩ := ih (fun row' hmem => h row' (List.mem_cons_of_mem _ hmem))
        { scan with
          prompts := scan.prompts ++
            [rowPrompt printable tokenizer teacherThinking piTraceField row.1]
          leakCheckedCount := count }
      refine ⟨total, ?_⟩
      rw [List.foldlM_cons, hrow]
      refine hrows.trans ?_
      rw [List.map_cons, List.append_assoc, List.singleton_append]

end scan

/-! ### The batch -/

section batch
variable {printable : Char → Bool} {tokenizer : Tokenizer Tok}
  {sourceBatch : SourceBatch Tok} {maxPromptLength : ℕ}
  {allowPromptTruncation teacherThinking : Bool} {piTraceField : PyStr}

/-- A source batch whose rows are dictionaries that are ready for the scan. -/
structure BatchReady (printable : Char → Bool) (piTraceField : PyStr)
    (sourceBatch : SourceBatch Tok) (extras : List (List (PyStr × PyVal))) (responses : Tensor Tok)
    (responseMask : Tensor Bool) : Prop where
  responses : sourceBatch.responses = some responses
  responseMask : sourceBatch.responseMask = some responseMask
  infos : ∃ extraInfo, sourceBatch.extraInfo = some extraInfo ∧ extraInfo.mapM asDict = .ok extras
  rows : ∀ row ∈ extras.zipIdx, RowReady printable piTraceField sourceBatch.rawPrompt row

variable {extras : List (List (PyStr × PyVal))} {responses : Tensor Tok}
  {responseMask : Tensor Bool} {encodeOne : PyStr → List Tok}

/-- The token ids of the prompt of a row. -/
def rowIds (printable : Char → Bool) (tokenizer : Tokenizer Tok) (teacherThinking : Bool)
    (piTraceField : PyStr) (encodeOne : PyStr → List Tok) (extra : List (PyStr × PyVal)) :
    List Tok :=
  encodeOne (rowPrompt printable tokenizer teacherThinking piTraceField extra)

/-- The attended places of a row hold its cut prompt and its valid response tokens, numbered
from zero. -/
structure RowEncoded (build : PiTeacherBatchBuild Tok) (i : ℕ) (promptIds responseIds : List Tok) :
    Prop where
  ids : ∃ mask inputs, build.batch.attentionMask.rows[i]? = some mask ∧
    build.batch.inputIds.rows[i]? = some inputs ∧ select mask inputs = promptIds ++ responseIds
  positions : ∃ mask positions, build.batch.attentionMask.rows[i]? = some mask ∧
    build.batch.positionIds.rows[i]? = some positions ∧
      select mask positions = List.range (promptIds ++ responseIds).length

/-- A batch that encodes every row without loss. -/
structure EncodesRows (maxPromptLength : ℕ) (truncationLeft : Bool) (encoded : List (List Tok))
    (responses : Tensor Tok) (responseMask : Tensor Bool) (build : PiTeacherBatchBuild Tok) :
    Prop where
  size : build.batch.inputIds.rows.length = encoded.length
  rows : ∀ i ids r m, encoded[i]? = some ids → responses.rows[i]? = some r →
    responseMask.rows[i]? = some m →
      RowEncoded build i (cutIds maxPromptLength truncationLeft ids) (select m r)
  prefixMask : assertLeftPaddedPrefixMask
    (build.batch.attentionMask.takeCols build.batch.prompts.cols) = .ok ()
  truncatedCount : build.metrics.promptTruncatedCount =
    encoded.countP fun ids => decide (maxPromptLength < ids.length)

/-- The rows of a joined batch whose prefixes are padded prompts. -/
theorem RowEncoded.of_joined {build : PiTeacherBatchBuild Tok} {padTokenId : Tok}
    {prefixMask : Tensor Bool} (hj : Joined padTokenId prefixMask build.batch) {width i : ℕ}
    {cut r : List Tok} {m : List Bool}
    (hprompt : build.batch.prompts.rows[i]? = some (paddedIds width padTokenId cut))
    (hmask : prefixMask.rows[i]? = some (paddedMask width cut))
    (hr : build.batch.responses.rows[i]? = some r)
    (hm : build.batch.responseMask.rows[i]? = some m) : RowEncoded build i cut (select m r) := by
  have hattention : build.batch.attentionMask.rows[i]? = some (paddedMask width cut ++ m) := by
    rw [hj.attentionMask]
    exact joinPrefix_attention hmask hm
  have hinputs : build.batch.inputIds.rows[i]? =
      some (paddedIds width padTokenId cut ++ fill padTokenId m r) := by
    rw [hj.inputIds]
    exact joinPrefix_ids hprompt hr hm
  have hpositions : build.batch.positionIds.rows[i]? =
      some (ranks 0 (paddedMask width cut ++ m)) := by
    rw [hj.positionIds]
    exact joinPrefix_positions hmask hm
  have hlength : (paddedMask width cut).length = (paddedIds width padTokenId cut).length := by
    rw [paddedMask, paddedIds]
    simp
  have hresponse : m.length = r.length :=
    Tensor.length_eq_of_shape build.batch.shape_responseMask hm hr
  have hselect : select (paddedMask width cut ++ m)
      (paddedIds width padTokenId cut ++ fill padTokenId m r) = cut ++ select m r := by
    rw [select_append hlength, select_paddedMask, select_fill]
  have hcount : (paddedMask width cut ++ m).count true = (cut ++ select m r).length := by
    rw [← hselect, length_select]
    rw [List.length_append, List.length_append, hlength, length_fill padTokenId hresponse,
      hresponse]
  refine ⟨⟨_, _, hattention, hinputs, hselect⟩, ⟨_, _, hattention, hpositions, ?_⟩⟩
  rw [select_ranks, hcount, List.range_eq_range']

/-- The scan of a batch that is ready. -/
theorem BatchReady.scan (hb : BatchReady printable piTraceField sourceBatch extras responses
      responseMask) (ht : EncodesEach tokenizer teacherThinking encodeOne) :
    ∃ count, extras.zipIdx.foldlM
      (scanRow printable tokenizer teacherThinking piTraceField sourceBatch.rawPrompt)
      ⟨[], [], 0, 0⟩ =
        .ok ⟨extras.map (rowPrompt printable tokenizer teacherThinking piTraceField), [], count,
          0⟩ := by
  obtain ⟨count, hscan⟩ := foldlM_scanRow_of_ready ht hb.rows ⟨[], [], 0, 0⟩
  refine ⟨count, ?_⟩
  have hprompts : extras.zipIdx.map (fun row =>
      rowPrompt printable tokenizer teacherThinking piTraceField row.1) =
      extras.map (rowPrompt printable tokenizer teacherThinking piTraceField) := by
    conv => rhs; rw [← List.zipIdx_map_fst 0 extras, List.map_map]
    rfl
  rw [hscan, hprompts, List.nil_append]

/-- A batch whose prefixes are the cut and padded prompts encodes its rows. -/
theorem EncodesRows.of_prefixes {width : ℕ} (hmax : 1 ≤ width) {truncationLeft : Bool}
    {encoded : List (List Tok)} (hne : ∀ ids ∈ encoded, ids ≠ [])
    {build : PiTeacherBatchBuild Tok} {padTokenId : Tok} {prefixMask : Tensor Bool}
    (hjoined : Joined padTokenId prefixMask build.batch)
    (hresponses : build.batch.responses = responses)
    (hresponseMask : build.batch.responseMask = responseMask)
    (hprompts : build.batch.prompts.rows = encoded.map fun ids =>
      paddedIds width padTokenId (cutIds width truncationLeft ids))
    (hmask : prefixMask.rows = encoded.map fun ids =>
      paddedMask width (cutIds width truncationLeft ids)) (hcols : prefixMask.cols = width)
    (hcount : build.metrics.promptTruncatedCount =
      encoded.countP fun ids => decide (width < ids.length)) :
    EncodesRows width truncationLeft encoded responses responseMask build := by
  subst hresponses hresponseMask
  refine ⟨?_, ?_, ?_, hcount⟩
  · have hinputs := congrArg Prod.fst build.batch.shape_inputIds
    have hsize := build.batch.shape_prompts
    rw [hprompts, List.length_map] at hsize
    exact hinputs.trans hsize.symm
  · intro i ids r m hids hr hm
    have hpadded : build.batch.prompts.rows[i]? =
        some (paddedIds width padTokenId (cutIds width truncationLeft ids)) := by
      rw [hprompts, List.getElem?_map, hids]
      rfl
    apply RowEncoded.of_joined hjoined hpadded _ hr hm
    rw [hmask, List.getElem?_map, hids]
    rfl
  · rw [hjoined.takeCols_attentionMask, assertLeftPaddedPrefixMask_eq_ok_iff (by omega), hmask,
      List.forall_mem_map]
    intro ids hids
    apply leftPadded_paddedMask
    rw [ne_eq, cutIds_eq_nil_iff hmax]
    exact hne ids hids

variable [Zero Tok]

/-- A batch that is ready and encodable is built. -/
theorem BatchReady.build_of_encodable (hmax : 1 ≤ maxPromptLength)
    (hb : BatchReady printable piTraceField sourceBatch extras responses responseMask)
    (ht : EncodesEach tokenizer teacherThinking encodeOne)
    (h : Encodable maxPromptLength allowPromptTruncation
      (extras.map (rowIds printable tokenizer teacherThinking piTraceField encodeOne))) :
    ∃ build, buildPiTeacherScoreBatch printable tokenizer sourceBatch maxPromptLength
        allowPromptTruncation teacherThinking piTraceField = .ok build ∧
      EncodesRows maxPromptLength tokenizer.truncationLeft
        (extras.map (rowIds printable tokenizer teacherThinking piTraceField encodeOne)) responses
        responseMask build := by
  obtain ⟨count, hscan⟩ := hb.scan ht
  obtain ⟨extraInfo, hinfo, hdicts⟩ := hb.infos
  have hencoded : tokenizer.encode
      (extras.map (rowPrompt printable tokenizer teacherThinking piTraceField)) =
      extras.map (rowIds printable tokenizer teacherThinking piTraceField encodeOne) := by
    rw [ht.encoded, List.map_map]
    rfl
  obtain ⟨prefixIds, prefixMask, htokenize, hidsRows, hmaskRows, hidsCols, hmaskCols⟩ :=
    tokenizePrefixes_of_encodable (padId tokenizer) hmax (hencoded ▸ h)
  rw [hencoded] at htokenize hidsRows hmaskRows
  have hsize : prefixIds.rows.length = responses.rows.length := by
    rw [hidsRows, List.length_map, List.length_map, sourceBatch.size_responses _ hb.responses,
      ← (mapM_eq_ok_iff.mp hdicts).length_eq]
    exact sourceBatch.size_extraInfo _ hinfo
  have hshape : prefixIds.shape = prefixMask.shape := by
    rw [Tensor.shape, Tensor.shape, hidsRows, hmaskRows, hidsCols, hmaskCols]
    simp
  obtain ⟨batch, hbatch⟩ := scoreBatch?_isSome (padId tokenizer) hshape
    (sourceBatch.shape_responseMask _ hb.responses _ hb.responseMask).symm hsize
  obtain ⟨hp, hr, hm, hjoined⟩ := scoreBatch?_eq_some hbatch
  refine ⟨{
    batch
    metrics := {
      promptTruncatedCount :=
        (extras.map (rowIds printable tokenizer teacherThinking piTraceField encodeOne)).countP
          fun ids => decide (maxPromptLength < ids.length)
      promptTokensMean := promptTokensMean prefixMask
      responseTokens := responseMask.count
      privacy := some ⟨count, 0⟩ }
    prompts := extras.map (rowPrompt printable tokenizer teacherThinking piTraceField) },
    ?_, ?_⟩
  · simp only [buildPiTeacherScoreBatch, hb.responses, hb.responseMask, hinfo, hdicts, hscan,
      htokenize, bind, Except.bind, ne_eq, not_true_eq_false, if_false, hsize, hbatch]
    rfl
  · refine EncodesRows.of_prefixes hmax (fun ids hids => (h ids hids).1) hjoined hr hm ?_ hmaskRows
      hmaskCols rfl
    rw [← hidsRows, ← hp]

/-- A batch that is built was encodable. -/
theorem BatchReady.encodable_of_build (hmax : 1 ≤ maxPromptLength)
    (hb : BatchReady printable piTraceField sourceBatch extras responses responseMask)
    (ht : EncodesEach tokenizer teacherThinking encodeOne) {build : PiTeacherBatchBuild Tok}
    (h : buildPiTeacherScoreBatch printable tokenizer sourceBatch maxPromptLength
      allowPromptTruncation teacherThinking piTraceField = .ok build) :
    Encodable maxPromptLength allowPromptTruncation
      (extras.map (rowIds printable tokenizer teacherThinking piTraceField encodeOne)) := by
  obtain ⟨count, hscan⟩ := hb.scan ht
  obtain ⟨extraInfo, hinfo, hdicts⟩ := hb.infos
  obtain ⟨extraInfos, counts, normalized, prefixMask, hbuilt⟩ := buildPiTeacherScoreBatch_eq_ok h
  obtain ⟨extraInfo', hinfo', hdicts'⟩ := hbuilt.infos
  obtain rfl : extraInfo = extraInfo' := Option.some.inj (hinfo.symm.trans hinfo')
  obtain rfl : extras = extraInfos :=
    Except.ok.inj (hdicts.symm.trans (mapM_eq_ok_iff.mpr hdicts'))
  have hprompts : build.prompts =
      extras.map (rowPrompt printable tokenizer teacherThinking piTraceField) :=
    congrArg PromptScan.prompts (Except.ok.inj (hbuilt.scan.symm.trans hscan))
  have hencodable := encodable_of_normalized hmax hbuilt.tokenized hbuilt.nonempty
  rw [hprompts, ht.encoded, List.map_map] at hencodable
  exact hencodable

/-- **Prompts and responses are encoded without loss.**  On rows that are ready the builder
fails exactly when a prompt has no token, or is too long and may not be cut; a batch it returns
encodes every row. -/
theorem buildPiTeacherScoreBatch_encodes (hmax : 1 ≤ maxPromptLength)
    (hb : BatchReady printable piTraceField sourceBatch extras responses responseMask)
    (ht : EncodesEach tokenizer teacherThinking encodeOne) :
    ((∃ e, buildPiTeacherScoreBatch printable tokenizer sourceBatch maxPromptLength
        allowPromptTruncation teacherThinking piTraceField = .error e) ↔
      ∃ extra ∈ extras,
        rowIds printable tokenizer teacherThinking piTraceField encodeOne extra = [] ∨
        (allowPromptTruncation = false ∧ maxPromptLength <
          (rowIds printable tokenizer teacherThinking piTraceField encodeOne extra).length)) ∧
    ∀ build, buildPiTeacherScoreBatch printable tokenizer sourceBatch maxPromptLength
        allowPromptTruncation teacherThinking piTraceField = .ok build →
      EncodesRows maxPromptLength tokenizer.truncationLeft
        (extras.map (rowIds printable tokenizer teacherThinking piTraceField encodeOne)) responses
        responseMask build := by
  have hfails : ¬ Encodable maxPromptLength allowPromptTruncation
      (extras.map (rowIds printable tokenizer teacherThinking piTraceField encodeOne)) ↔
      ∃ extra ∈ extras,
        rowIds printable tokenizer teacherThinking piTraceField encodeOne extra = [] ∨
        (allowPromptTruncation = false ∧ maxPromptLength <
          (rowIds printable tokenizer teacherThinking piTraceField encodeOne extra).length) := by
    simp only [Encodable, List.forall_mem_map, not_forall, exists_prop, not_and_or, not_not,
      not_le]
  rw [← hfails]
  refine ⟨⟨?_, ?_⟩, ?_⟩
  · rintro ⟨e, he⟩ hencodable
    obtain ⟨build, hbuild, -⟩ := hb.build_of_encodable hmax ht hencodable
    rw [he] at hbuild
    cases hbuild
  · intro hnot
    cases hbuild : buildPiTeacherScoreBatch printable tokenizer sourceBatch maxPromptLength
        allowPromptTruncation teacherThinking piTraceField with
    | error e => exact ⟨e, rfl⟩
    | ok build => exact absurd (hb.encodable_of_build hmax ht hbuild) hnot
  · intro build hbuild
    obtain ⟨build', hbuild', hencodes⟩ :=
      hb.build_of_encodable hmax ht (hb.encodable_of_build hmax ht hbuild)
    rw [hbuild] at hbuild'
    rw [Except.ok.inj hbuild']
    exact hencodes

end batch

/-- The batch of one row is encoded. -/
theorem buildPiTeacherScoreBatch_encodes_single :
    ∃ build, buildPiTeacherScoreBatch (fun _ => true) oneToken
        (singleRow (structuredPrompt ['q']) ['z']) 4 false false defaultPiTraceField = .ok build ∧
      EncodesRows 4 true [[1]] ⟨1, [[7]], by simp⟩ ⟨1, [[true]], by simp⟩ build := by
  have hready : BatchReady (fun _ => true) defaultPiTraceField
      (singleRow (structuredPrompt ['q']) ['z'])
      [[("problem".toList, .str ['p']), (defaultPiTraceField, .str ['z'])]] ⟨1, [[7]], by simp⟩
      ⟨1, [[true]], by simp⟩ := by
    refine ⟨rfl, rfl, ⟨_, rfl, rfl⟩, ?_⟩
    intro row hrow
    obtain rfl := List.mem_singleton.mp hrow
    refine ⟨by decide, by decide, ?_⟩
    intro raws hraw
    obtain rfl := Option.some.inj hraw
    refine ⟨structuredPrompt ['q'], rfl, ?_⟩
    decide +kernel
  have hencodes : EncodesEach oneToken false fun _ => [1] :=
    ⟨fun userText => ⟨userText, rfl⟩, fun _ => rfl⟩
  obtain ⟨hfails, hbuilt⟩ := buildPiTeacherScoreBatch_encodes
    (by decide : 1 ≤ 4) hready hencodes
  cases h : buildPiTeacherScoreBatch (fun _ => true) oneToken
      (singleRow (structuredPrompt ['q']) ['z']) 4 false false defaultPiTraceField with
  | ok build => exact ⟨build, rfl, hbuilt build h⟩
  | error e =>
      obtain ⟨extra, -, hnil | ⟨-, hlong⟩⟩ := hfails.mp ⟨e, h⟩
      · cases hnil
      · exact absurd hlong (Nat.not_lt.mpr (by decide : 1 ≤ 4))

end ExtpiRlsd
