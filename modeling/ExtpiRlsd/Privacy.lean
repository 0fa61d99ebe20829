import ExtpiRlsd.ScoreBatch

/-! # What a privileged score batch proves about the student prompts

The scan of `buildPiTeacherScoreBatch` stops at the first prompt that fails the guard.  So a
batch that is returned has had every prompt checked, and counts as many checks as rows and no
leak (`scan_checked`).

That is not the absence of leaks: the guard sees the `repr` of structured content, in which line
breaks, quotes and backslashes of a trace are escaped.  `buildPiTeacherScoreBatch_leakFree_iff`
says when the two agree, and `structured_leak` is a batch where they do not. -/

namespace ExtpiRlsd

open Tensors Masks PyText Checked

variable {Tok : Type} {printable : Char → Bool} {tokenizer : Tokenizer Tok}
  {teacherThinking : Bool} {piTraceField : PyStr} {rawPrompts : Option (List PyVal)}

/-- The privileged trace of a row of `extra_info`. -/
def traceOf (printable : Char → Bool) (piTraceField : PyStr) (extra : List (PyStr × PyVal)) :
    PyStr :=
  ((PyVal.get? piTraceField extra).getD .none).toStr printable

/-- Row `i` was checked: the guard passed its prompt with its trace. -/
def RowChecked (printable : Char → Bool) (piTraceField : PyStr) (rawPrompts : List PyVal)
    (row : List (PyStr × PyVal) × ℕ) : Prop :=
  ∃ rawPrompt, rawPrompts[row.2]? = some rawPrompt ∧
    assertNoPiInStudentPrompt ((rawPromptToText printable rawPrompt).getD [])
      (traceOf printable piTraceField row.1) = .ok ()

theorem checkStudentPrompt_eq_ok {scan scan' : PromptScan} {extra : List (PyStr × PyVal)}
    {rowIdx : ℕ} (h : checkStudentPrompt printable rawPrompts rowIdx
      (traceOf printable piTraceField extra) scan = .ok scan') :
    (rawPrompts = none ∧ scan' = scan) ∨
    (∃ raws, rawPrompts = some raws ∧ RowChecked printable piTraceField raws (extra, rowIdx) ∧
      scan' = { scan with leakCheckedCount := scan.leakCheckedCount + 1 }) := by
  cases hraw : rawPrompts with
  | none =>
      rw [hraw] at h
      exact .inl ⟨rfl, (Except.ok.inj h).symm⟩
  | some raws => cases hidx : raws[rowIdx]? with
    | none => simp [checkStudentPrompt, hraw, hidx] at h
    | some rawPrompt =>
        simp only [checkStudentPrompt, hraw, hidx] at h
        split at h
        · cases h
        · rename_i hguard
          exact .inr ⟨raws, rfl, ⟨rawPrompt, hidx, hguard⟩, (Except.ok.inj h).symm⟩

/-- What one row of the scan can do: note a missing trace, or check the prompt, if there is one,
and add the privileged prompt. -/
theorem scanRow_eq_ok {scan scan' : PromptScan} {row : List (PyStr × PyVal) × ℕ}
    (h : scanRow printable tokenizer teacherThinking piTraceField rawPrompts scan row = .ok scan') :
    (∃ sampleId, scan' =
      { scan with missingTraceIds := scan.missingTraceIds ++ [sampleId] }) ∨
    (∃ prompt, rawPrompts = none ∧ scan' = { scan with prompts := scan.prompts ++ [prompt] }) ∨
    (∃ raws prompt, rawPrompts = some raws ∧ RowChecked printable piTraceField raws row ∧
      scan' = { scan with prompts := scan.prompts ++ [prompt],
                          leakCheckedCount := scan.leakCheckedCount + 1 }) := by
  obtain ⟨extra, rowIdx⟩ := row
  unfold scanRow at h
  obtain ⟨-, h⟩ := guard_eq_ok_iff.mp h
  by_cases htrace : (!((PyVal.get? piTraceField extra).getD .none).truthy) = true
  · rw [if_pos htrace] at h
    exact .inl ⟨_, (Except.ok.inj h).symm⟩
  · rw [if_neg htrace] at h
    obtain ⟨checked, hcheck, h⟩ := bind_eq_ok_iff.mp h
    split at h
    · cases h
    · rename_i prompt _
      obtain rfl := Except.ok.inj h
      rcases checkStudentPrompt_eq_ok hcheck with ⟨hraw, rfl⟩ | ⟨raws, hraw, hrow, rfl⟩
      · exact .inr (.inl ⟨prompt, hraw, rfl⟩)
      · exact .inr (.inr ⟨raws, prompt, hraw, hrow, rfl⟩)

/-- The invariant of the scan: no leak is counted, and while no trace is missing every row
visited so far was checked and counted. -/
structure ScanInvariant (printable : Char → Bool) (piTraceField : PyStr)
    (rawPrompts : Option (List PyVal)) (rows : List (List (PyStr × PyVal) × ℕ))
    (scan : PromptScan) : Prop where
  leakCount : scan.leakCount = 0
  checked : scan.missingTraceIds = [] → ∀ raws, rawPrompts = some raws →
    scan.leakCheckedCount = rows.length ∧ ∀ row ∈ rows, RowChecked printable piTraceField raws row

theorem ScanInvariant.step {rows : List (List (PyStr × PyVal) × ℕ)} {scan scan' : PromptScan}
    {row : List (PyStr × PyVal) × ℕ} (hi : ScanInvariant printable piTraceField rawPrompts rows scan)
    (h : scanRow printable tokenizer teacherThinking piTraceField rawPrompts scan row = .ok scan') :
    ScanInvariant printable piTraceField rawPrompts (rows ++ [row]) scan' := by
  rcases scanRow_eq_ok h with ⟨sampleId, rfl⟩ | ⟨prompt, hnone, rfl⟩ | ⟨raws, prompt, hraw, hrow, rfl⟩
  · refine ⟨hi.leakCount, fun hmissing => ?_⟩
    simp at hmissing
  · refine ⟨hi.leakCount, fun _ raws hraw => ?_⟩
    rw [hnone] at hraw
    cases hraw
  · refine ⟨hi.leakCount, fun hmissing raws' hraw' => ?_⟩
    obtain rfl : raws = raws' := Option.some.inj (hraw.symm.trans hraw')
    obtain ⟨hcount, hrows⟩ := hi.checked hmissing raws hraw
    refine ⟨?_, fun r hr => ?_⟩
    · rw [List.length_append, List.length_singleton, ← hcount]
    · rcases List.mem_append.mp hr with hr | hr
      · exact hrows r hr
      · obtain rfl := List.mem_singleton.mp hr
        exact hrow

theorem scan_checked {rows : List (List (PyStr × PyVal) × ℕ)} {scan : PromptScan}
    (h : rows.foldlM (scanRow printable tokenizer teacherThinking piTraceField rawPrompts)
      ⟨[], [], 0, 0⟩ = .ok scan) :
    ScanInvariant printable piTraceField rawPrompts rows scan :=
  foldlM_invariant (ScanInvariant printable piTraceField rawPrompts)
    (fun _ _ _ _ hi hstep => hi.step hstep)
    ⟨rfl, fun _ _ _ => ⟨rfl, fun _ hr => nomatch hr⟩⟩ h

/-! ### Batches -/

/-- The dictionary of an entry of `extra_info`. -/
def infoDict : InfoItem → List (PyStr × PyVal)
  | .value (.dict items) => items
  | .scalar (.dict items) => items
  | _ => []

theorem asDict_eq_ok {item : InfoItem} {extra : List (PyStr × PyVal)} (h : asDict item = .ok extra) :
    infoDict item = extra := by
  unfold asDict at h
  split at h
  · exact Except.ok.inj h
  · exact Except.ok.inj h
  · cases h
  · cases h

/-- `P` holds of the student prompt and the trace of every row of the batch. -/
def ForAllRows (printable : Char → Bool) (piTraceField : PyStr) (sourceBatch : SourceBatch Tok)
    (P : PyVal → PyStr → Prop) : Prop :=
  ∀ extraInfo raws, sourceBatch.extraInfo = some extraInfo → sourceBatch.rawPrompt = some raws →
    ∀ (i : ℕ) (item : InfoItem) (rawPrompt : PyVal), extraInfo[i]? = some item →
      raws[i]? = some rawPrompt →
        P rawPrompt (traceOf printable piTraceField (infoDict item))

theorem ForAllRows.mp {sourceBatch : SourceBatch Tok} {P Q R : PyVal → PyStr → Prop}
    (hP : ForAllRows printable piTraceField sourceBatch P)
    (h : ∀ rawPrompt piTrace, P rawPrompt piTrace → Q rawPrompt piTrace → R rawPrompt piTrace)
    (hQ : ForAllRows printable piTraceField sourceBatch Q) :
    ForAllRows printable piTraceField sourceBatch R :=
  fun extraInfo raws hinfo hraw i item rawPrompt hitem hprompt =>
    h _ _ (hP extraInfo raws hinfo hraw i item rawPrompt hitem hprompt)
      (hQ extraInfo raws hinfo hraw i item rawPrompt hitem hprompt)

section batches
variable [Zero Tok] {sourceBatch : SourceBatch Tok} {maxPromptLength : ℕ}
  {allowPromptTruncation : Bool} {build : PiTeacherBatchBuild Tok}

/-- A returned batch has counted a check for every row and no leak, and the guard passed every
row. -/
theorem buildPiTeacherScoreBatch_checked {raws : List PyVal}
    (h : buildPiTeacherScoreBatch printable tokenizer sourceBatch maxPromptLength
      allowPromptTruncation teacherThinking piTraceField = .ok build)
    (hraw : sourceBatch.rawPrompt = some raws) :
    build.metrics.privacy = some ⟨sourceBatch.batchSize, 0⟩ ∧
      ForAllRows printable piTraceField sourceBatch fun rawPrompt piTrace =>
        assertNoPiInStudentPrompt ((rawPromptToText printable rawPrompt).getD []) piTrace =
          .ok () := by
  obtain ⟨extraInfos, ⟨checked, leaks⟩, normalized, prefixMask, hb⟩ :=
    buildPiTeacherScoreBatch_eq_ok h
  obtain ⟨extraInfo, hinfo, hdicts⟩ := hb.infos
  have hi := scan_checked hb.scan
  obtain ⟨hcount, hrows⟩ := hi.checked rfl raws hraw
  have hsize : extraInfos.length = sourceBatch.batchSize := by
    rw [← hdicts.length_eq]
    exact sourceBatch.size_extraInfo extraInfo hinfo
  constructor
  · have hleaks : leaks = 0 := hi.leakCount
    have hchecked : checked = sourceBatch.batchSize := by
      rw [List.length_zipIdx] at hcount
      exact hcount.trans hsize
    rw [hb.privacy, hleaks, hchecked]
  · intro extraInfo' raws' hinfo' hraw' i item rawPrompt hitem hprompt
    obtain rfl : extraInfo = extraInfo' := Option.some.inj (hinfo.symm.trans hinfo')
    obtain rfl : raws = raws' := Option.some.inj (hraw.symm.trans hraw')
    have hlt : i < extraInfo.length := (List.getElem?_eq_some_iff.mp hitem).1
    have hlt' : i < extraInfos.length := hdicts.length_eq ▸ hlt
    have hdict : asDict item = .ok extraInfos[i] :=
      of_forall₂_getElem? hdicts hitem (List.getElem?_eq_getElem hlt')
    have hmem : (extraInfos[i], i) ∈ extraInfos.zipIdx :=
      List.mem_of_getElem? (by rw [List.getElem?_zipIdx, List.getElem?_eq_getElem hlt']; simp)
    obtain ⟨rawPrompt', hprompt', hguard⟩ := hrows _ hmem
    obtain rfl : rawPrompt' = rawPrompt := Option.some.inj (hprompt'.symm.trans hprompt)
    rw [asDict_eq_ok hdict]
    exact hguard

/-- **When the privileged-text guard is complete.**  On every batch that is returned, no student
prompt shows a reference tag or its stripped trace and the counts say so, exactly when every
structured part that holds the trace also holds it in its `repr`. -/
theorem buildPiTeacherScoreBatch_leakFree_iff {raws : List PyVal}
    (h : buildPiTeacherScoreBatch printable tokenizer sourceBatch maxPromptLength
      allowPromptTruncation teacherThinking piTraceField = .ok build)
    (hraw : sourceBatch.rawPrompt = some raws) :
    (ForAllRows printable piTraceField sourceBatch (fun rawPrompt piTrace =>
        ¬ Leaks rawPrompt piTrace) ∧
      build.metrics.privacy = some ⟨sourceBatch.batchSize, 0⟩) ↔
    ForAllRows printable piTraceField sourceBatch (TraceSurvivesRepr printable) := by
  obtain ⟨hcounts, hguards⟩ := buildPiTeacherScoreBatch_checked h hraw
  constructor
  · rintro ⟨hclean, -⟩
    exact hguards.mp (fun _ _ hguard hleak => (not_leaks_iff_of_guard hguard).mp hleak) hclean
  · intro hsurvive
    refine ⟨?_, hcounts⟩
    exact hguards.mp (fun _ _ hguard hin => (not_leaks_iff_of_guard hguard).mpr hin) hsurvive

end batches

/-! ### One row -/

/-- A batch of one row with one valid response token. -/
def singleRow (rawPrompt : PyVal) (piTrace : PyStr) : SourceBatch ℕ where
  batchSize := 1
  prompts := none
  responses := some ⟨1, [[7]], by simp⟩
  attentionMask := none
  responseMask := some ⟨1, [[true]], by simp⟩
  extraInfo := some [.value (.dict [("problem".toList, .str ['p']),
    (defaultPiTraceField, .str piTrace)])]
  rawPrompt := some [rawPrompt]
  size_prompts := by simp
  size_responses := by simp
  size_attentionMask := by simp
  size_extraInfo := by simp
  size_rawPrompt := by simp
  shape_responseMask := by simp [Tensor.shape]

/-- A tokenizer that gives every prompt one token. -/
def oneToken : Tokenizer ℕ where
  applyChatTemplate := fun userText _ => some userText
  encode := fun prompts => prompts.map fun _ => [1]
  truncationLeft := true
  padTokenId := some 0
  eosTokenId := none

/-- One user message with one structured text part. -/
def structuredPrompt (text : PyStr) : PyVal :=
  .list [.dict [("role".toList, .str "user".toList),
    ("content".toList, .list [.dict [("type".toList, .str "text".toList),
      ("text".toList, .str text)]])]]

/-- The trace is one word, so the guard cannot miss it. -/
theorem buildPiTeacherScoreBatch_leakFree_plain :
    ∃ build, buildPiTeacherScoreBatch (fun _ => true) oneToken
        (singleRow (structuredPrompt ['q']) ['z']) 4 true false defaultPiTraceField = .ok build ∧
      ForAllRows (fun _ => true) defaultPiTraceField (singleRow (structuredPrompt ['q']) ['z'])
        (fun rawPrompt piTrace => ¬ Leaks rawPrompt piTrace) := by
  have hok : (buildPiTeacherScoreBatch (fun _ => true) oneToken
      (singleRow (structuredPrompt ['q']) ['z']) 4 true false defaultPiTraceField).toBool := by
    decide +kernel
  cases h : buildPiTeacherScoreBatch (fun _ => true) oneToken
      (singleRow (structuredPrompt ['q']) ['z']) 4 true false defaultPiTraceField with
  | error e =>
      rw [h] at hok
      cases hok
  | ok build =>
      refine ⟨build, rfl, ((buildPiTeacherScoreBatch_leakFree_iff h rfl).mpr ?_).1⟩
      intro extraInfo raws hinfo hraw i item rawPrompt hitem hprompt
      obtain rfl := Option.some.inj hinfo
      obtain rfl := Option.some.inj hraw
      refine TraceSurvivesRepr.of_plain ?_
      cases i with
      | zero =>
          obtain rfl := Option.some.inj hitem
          intro c hc
          obtain rfl := List.mem_singleton.mp hc
          decide
      | succ i => cases hitem

/-- **A leak the guard does not see.**  The trace stands in a structured text part; its line
break is escaped in the rendering, so the batch is returned with one check and no leak. -/
theorem structured_leak :
    ∃ build, buildPiTeacherScoreBatch (fun _ => true) oneToken
        (singleRow (structuredPrompt "a\nb".toList) "a\nb".toList) 4 true false
        defaultPiTraceField = .ok build ∧
      build.metrics.privacy = some ⟨1, 0⟩ ∧
      Leaks (structuredPrompt "a\nb".toList) "a\nb".toList := by
  have hok : (buildPiTeacherScoreBatch (fun _ => true) oneToken
      (singleRow (structuredPrompt "a\nb".toList) "a\nb".toList) 4 true false
      defaultPiTraceField).toBool := by
    decide +kernel
  cases h : buildPiTeacherScoreBatch (fun _ => true) oneToken
      (singleRow (structuredPrompt "a\nb".toList) "a\nb".toList) 4 true false
      defaultPiTraceField with
  | error e =>
      rw [h] at hok
      cases hok
  | ok build =>
      refine ⟨build, rfl, (buildPiTeacherScoreBatch_checked h rfl).1, "a\nb".toList, ?_, ?_⟩
      · decide +kernel
      · refine .inr (.inr ⟨?_, ?_⟩)
        · decide +kernel
        · decide +kernel

end ExtpiRlsd
