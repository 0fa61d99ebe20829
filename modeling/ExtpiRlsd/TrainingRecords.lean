import ExtpiRlsd.DataProvenance
import ExtpiRlsd.SftBuilders
import ExtpiRlsd.ShuffledPi

/-! # The records that are trained on

`jsonl_to_verl_parquet.py` writes a record for every row of a split: the student's prompt, the
ground truth, and the trace for the teacher.  Behind the pipeline of `DataProvenance.lean` the
records of a split are what the training takes them for (`trainingRecords_of_pipeline`): problems
that overlap with no evaluation problem, none of them in both parts, and traces that the reward
function scores in full.

The same holds of the conversations for the closed teacher (`closedConversations_of_pipeline`), and
the records of a shuffled control differ from those of its split in the traces alone
(`shuffledRecords`). -/

namespace ExtpiRlsd

open PyText PyData

/-! ### Records -/

/-- A dictionary display: a repeated key keeps its place and takes the last value. -/
def pyDict (items : List (PyStr × Json)) : Row :=
  items.foldl (fun row item => row.setItem item.1 item.2) []

structure RecordArgs where
  promptKey : PyStr
  piTraceField : PyStr
  printer : Json.Printer

/-- The student's prompt. -/
def recordPrompt (problem : PyStr) : Json := .arr [.obj [
  ("role".toList, .str "user".toList), ("content".toList, .str (studentUserTemplate problem))]]

section records
variable (args : RecordArgs)

def extraInfo (id problem : Json) (row : Row) : Row := pyDict [
  ("id".toList, id),
  ("problem".toList, problem),
  (args.piTraceField, row.get args.piTraceField),
  (verifiedField args.piTraceField, row.getD (verifiedField args.piTraceField) (.bool false)),
  ("qwen32b_pi_trace".toList, row.get "qwen32b_pi_trace".toList),
  ("qwen32b_pi_verified".toList, row.getD "qwen32b_pi_verified".toList (.bool false)),
  ("qwen8b_pi_trace".toList, row.get "qwen8b_pi_trace".toList),
  ("qwen8b_pi_verified".toList, row.getD "qwen8b_pi_verified".toList (.bool false)),
  ("pi_trace_field".toList, .str args.piTraceField)]

/-- The record of a row. -/
def verlRecord (row : Row) : Except PyError Row := do
  let problem ← row.getItem "problem".toList
  let gold ← row.getItem "gold_answer".toList
  let id ← row.getItem "id".toList
  return pyDict [
    (args.promptKey, recordPrompt (problem.toStr args.printer)),
    ("data_source".toList, .str "extpi_rlsd/math".toList),
    ("reward_model".toList, ruleReward gold),
    ("extra_info".toList, .obj (extraInfo args id problem row))]

/-- `main` of `jsonl_to_verl_parquet.py`, from the rows read to the records written. -/
def jsonlToVerlParquet (rows : List Row) : Except PyError (List Row) :=
  rows.mapM (verlRecord args)

end records

/-! ### The record of a row that descends from a clean one -/

/-- The trace fields that the tools fill. -/
def piTraceFields : List PyStr := ["qwen8b_pi_trace".toList, "qwen32b_pi_trace".toList]

/-- The prompt has a column of its own. -/
def OwnColumn (promptKey : PyStr) : Prop :=
  promptKey ∉ ["data_source".toList, "reward_model".toList, "extra_info".toList]

instance (promptKey : PyStr) : Decidable (OwnColumn promptKey) :=
  inferInstanceAs (Decidable (promptKey ∉ _))

/-- The columns of the record of a clean row, and what its extra information says of the row. -/
structure RecordOf (args : RecordArgs) (n : NormalizedRow) (row record : Row) : Prop where
  prompt : Row.get? args.promptKey record = some (recordPrompt n.problem)
  groundTruth : Row.get? "reward_model".toList record = some (ruleReward (.str n.goldAnswer))
  extra : Row.get? "extra_info".toList record =
    some (.obj (extraInfo args (.str n.id) (.str n.problem) row))

section recordOf
variable {args : RecordArgs} {v : Verifier} {n : NormalizedRow} {row record : Row}

theorem exists_verlRecord (hprompt : OwnColumn args.promptKey) (h : Descends v n row) :
    ∃ record, verlRecord args row = .ok record ∧ RecordOf args n row record := by
  obtain ⟨hsource, hreward, hextra⟩ : args.promptKey ≠ "data_source".toList ∧
      args.promptKey ≠ "reward_model".toList ∧ args.promptKey ≠ "extra_info".toList := by
    simpa [OwnColumn] using hprompt
  unfold verlRecord
  rw [Row.getItem_eq_ok_iff.mpr h.problem, Row.getItem_eq_ok_iff.mpr h.goldAnswer,
    Row.getItem_eq_ok_iff.mpr h.id]
  refine ⟨_, rfl, ?_, ?_, ?_⟩
  · simp only [pyDict, List.foldl_cons, List.foldl_nil, Row.get?_setItem]
    rw [if_neg hextra, if_neg hreward, if_neg hsource, if_true]
    rfl
  · simp only [pyDict, List.foldl_cons, List.foldl_nil, Row.get?_setItem]
    rfl
  · simp only [pyDict, List.foldl_cons, List.foldl_nil, Row.get?_setItem]
    rfl

/-- The extra information about a row, under each key. -/
theorem extraInfo_fields (hfield : args.piTraceField ∈ piTraceFields) (id problem : Json)
    (row : Row) :
    Row.get? "id".toList (extraInfo args id problem row) = some id ∧
    Row.get? "problem".toList (extraInfo args id problem row) = some problem ∧
    Row.get? args.piTraceField (extraInfo args id problem row) =
      some (row.get args.piTraceField) ∧
    Row.get? (verifiedField args.piTraceField) (extraInfo args id problem row) =
      some (row.getD (verifiedField args.piTraceField) (.bool false)) := by
  obtain ⟨promptKey, piTraceField, printer⟩ := args
  simp only [piTraceFields, List.mem_cons, List.not_mem_nil, or_false] at hfield
  rcases hfield with rfl | rfl
  · exact ⟨rfl, rfl, rfl, rfl⟩
  · exact ⟨rfl, rfl, rfl, rfl⟩

end recordOf

/-! ### Splits of a sound file -/

/-- Two parts that a tool cuts from a file, for training and for tests. -/
inductive Splits (piTraceField : PyStr) (rows : List Row) : List Row → List Row → Prop where
  | frontier {nums : PyNumbers} {args : FrontierArgs} {out : FrontierOutput} :
      args.piTraceField = piTraceField → buildFrontier nums args rows = .ok out →
      Splits piTraceField rows out.mvpTrain out.matchedDev
  | confirmation {nums : PyNumbers} {args : FrontierArgs} {out : FrontierOutput} :
      args.piTraceField = piTraceField → buildFrontier nums args rows = .ok out →
      Splits piTraceField rows out.confirmationTrain out.confirmationDev
  | common {args : SplitArgs} :
      args.piTraceField = piTraceField →
      Splits piTraceField rows (buildCommonVerifiedSplit args rows).train
        (buildCommonVerifiedSplit args rows).dev

/-- One of the two tests that ask whether the trace is verified. -/
def SaysVerified (piTraceField : PyStr) (row : Row) : Prop :=
  isVerified piTraceField row = true ∨
    (row.getD (verifiedField piTraceField) (.bool false)).truthy = true

section splits
variable {piTraceField : PyStr} {rows train dev : List Row}

theorem take_append_take_drop {α : Type*} (m n : ℕ) (xs : List α) :
    xs.take m ++ (xs.drop m).take n = xs.take (m + n) := (List.take_add).symm

/-- Both parts are pieces of a shuffle of rows that say they are verified. -/
theorem splits_cases (h : Splits piTraceField rows train dev) :
    (train ++ dev).Subperm rows ∧ ∀ row ∈ train ++ dev, SaysVerified piTraceField row := by
  cases h with
  | @frontier nums args out hfield h =>
      obtain ⟨p, frontier, pool, -, hfrontier, -, -, h₂, h₃, -⟩ := buildFrontier_eq_ok h
      have hpiece : (out.mvpTrain ++ out.matchedDev).Sublist frontier := by
        rw [h₂, h₃, take_append_take_drop]
        exact List.take_sublist _ _
      rw [hfrontier] at hpiece
      refine ⟨subperm_of_shuffle_filter hpiece, ?_⟩
      intro row hrow
      obtain ⟨-, heligible⟩ := mem_filter_of_mem_shuffle (hpiece.subset hrow)
      have hok := Checked.passes_eq_true_iff.mp heligible
      obtain ⟨pPlain, pPi, hplain, hpi⟩ := hasRates_of_eligibleFrontier hok
      rw [eligibleFrontier_eq hplain hpi, Except.ok.injEq] at hok
      simp only [Bool.and_eq_true] at hok
      rw [← hfield]
      exact .inl hok.1.1.1
  | @confirmation nums args out hfield h =>
      obtain ⟨p, frontier, pool, hp, -, hpool, -, -, -, h₄, h₅⟩ := buildFrontier_eq_ok h
      have hpiece : (out.confirmationTrain ++ out.confirmationDev).Sublist pool := by
        rw [h₄, h₅, take_append_take_drop]
        exact List.take_sublist _ _
      rw [hpool] at hpiece
      refine ⟨subperm_of_shuffle_filter hpiece, ?_⟩
      intro row hrow
      obtain ⟨hmem, hpass⟩ := mem_filter_of_mem_shuffle (hpiece.subset hrow)
      rw [← hfield]
      exact .inl ((hp row hmem).mp hpass).1.1
  | @common args hfield =>
      have hpiece : ((buildCommonVerifiedSplit args rows).train ++
          (buildCommonVerifiedSplit args rows).dev).Sublist
            (shuffle args.shuffleRows (rows.filter (inCommonSplit args.piTraceField))) := by
        unfold buildCommonVerifiedSplit
        rw [take_append_take_drop]
        exact List.take_sublist _ _
      refine ⟨subperm_of_shuffle_filter hpiece, ?_⟩
      intro row hrow
      obtain ⟨-, hpass⟩ := mem_filter_of_mem_shuffle (hpiece.subset hrow)
      rw [← hfield]
      exact .inr ((Bool.and_eq_true _ _).mp hpass).1

end splits

/-! ### Verified traces -/

section verified
variable {v : Verifier} {n : NormalizedRow} {row : Row}

/-- A text that solves the problem gets the full reward. -/
theorem score_of_solves {gold text : PyStr} (h : Solves v gold text) :
    (computeScore v text (.str gold)).score = 1 := by
  have hcorrect : v.verifyAnswer (extractBoxedAnswer text)
      (.str (Json.toStr v.printer (.str gold))) = true := h
  unfold computeScore
  dsimp only
  rw [if_pos hcorrect]

/-- A row that says it is verified has a trace that solves its problem. -/
theorem exists_trace {piTraceField : PyStr} (hfield : piTraceField ∈ piTraceFields)
    (h : Descends v n row) (hverified : SaysVerified piTraceField row) :
    ∃ text, Row.get? piTraceField row = some (.str text) ∧
      Row.get? (verifiedField piTraceField) row = some (.bool true) ∧
      Solves v n.goldAnswer text := by
  have hpair : ∀ field ∈ piTraceFields, (field, verifiedField field) ∈ generatedFields := by decide
  obtain ⟨verified, hflag, hsolves⟩ := h.honest _ (hpair _ hfield)
  have htrue : verified = true := by
    rcases hverified with hverified | hverified
    · unfold isVerified at hverified
      rw [Row.getD_of_get? hflag] at hverified
      exact hverified
    · rw [Row.getD_of_get? hflag] at hverified
      exact hverified
  obtain ⟨text, htext, hsolves⟩ := hsolves htrue
  rw [htrue] at hflag
  exact ⟨text, htext, hflag, hsolves⟩

/-- The record of a clean problem: the student sees the problem, and the teacher a trace that gets
the full reward. -/
structure TrainingRecord (v : Verifier) (args : RecordArgs) (n : NormalizedRow) (record : Row) :
    Prop where
  prompt : Row.get? args.promptKey record = some (recordPrompt n.problem)
  groundTruth : Row.get? "reward_model".toList record = some (ruleReward (.str n.goldAnswer))
  teacher : ∃ extra trace, Row.get? "extra_info".toList record = some (.obj extra) ∧
    Row.get? "id".toList extra = some (.str n.id) ∧
    Row.get? "problem".toList extra = some (.str n.problem) ∧
    Row.get? args.piTraceField extra = some (.str trace) ∧
    Row.get? (verifiedField args.piTraceField) extra = some (.bool true) ∧
    (computeScore v trace (.str n.goldAnswer)).score = 1

theorem exists_trainingRecord {args : RecordArgs} (hprompt : OwnColumn args.promptKey)
    (hfield : args.piTraceField ∈ piTraceFields) (h : Descends v n row)
    (hverified : SaysVerified args.piTraceField row) :
    ∃ record, verlRecord args row = .ok record ∧ TrainingRecord v args n record := by
  obtain ⟨record, hrecord, hof⟩ := exists_verlRecord hprompt h
  obtain ⟨trace, htrace, hflag, hsolves⟩ := exists_trace hfield h hverified
  obtain ⟨hid, hproblem, htraceField, hverifiedField⟩ :=
    extraInfo_fields hfield (.str n.id) (.str n.problem) row
  rw [Row.get_of_get? htrace] at htraceField
  rw [Row.getD_of_get? hflag] at hverifiedField
  exact ⟨record, hrecord, hof.prompt, hof.groundTruth, _, trace, hof.extra, hid, hproblem,
    htraceField, hverifiedField, score_of_solves hsolves⟩

end verified

/-! ### Two sums -/

/-- The digest of a text is the text behind a mark. -/
def markedEnv : TextEnv := { asciiEnv with digest := fun text => .ok ('h' :: text) }

theorem digestNonempty_markedEnv : DigestNonempty markedEnv := by
  intro text d h
  rw [← Except.ok.inj h]
  exact List.cons_ne_nil _ _

def sumSources : List Row := [sourceRow "2 + 2" "4", sourceRow "3 + 1" "4", sourceRow "2 +  2" "4"]

def sumTraces : TraceArgs := ⟨none, "model".toList, [], twoWorkers.verifier⟩

def plainTokenizer : Tokenizer ℕ := ⟨fun text _ => some text, fun texts => texts.map fun _ => [],
  false, none, none⟩

/-- One wrong and one right attempt at every problem. -/
def sumAttempts (prompts : List PyStr) : List (List Candidate) :=
  prompts.map fun _ => [⟨"so 5".toList, .null, 1⟩, ⟨"so \\boxed\x7b4\x7d".toList, .null, 3⟩]

def sumSplit : SplitArgs := ⟨1, 1, "qwen8b_pi_trace".toList, fun _ => 1⟩

def sumRecords : RecordArgs :=
  ⟨"prompt".toList, "qwen8b_pi_trace".toList, twoWorkers.verifier.printer⟩

/-- Both problems with the traces of the local model. -/
def sumTraced : Except PyError (List Row) :=
  generateTeacherTraces sumTraces plainTokenizer sumAttempts (fun _ => "now".toList)
    (cleanFile markedEnv strictArgs [] sumSources)

/-- The local model and then the closed teacher solve both problems. -/
theorem produced_sums : ∃ rows,
    Produced twoWorkers.verifier markedEnv strictArgs [] sumSources rows ∧
    (buildCommonVerifiedSplit sumSplit rows).train.length = 1 ∧
    (buildCommonVerifiedSplit sumSplit rows).dev.length = 1 ∧
    (rows.filter fun row =>
      (row.getD "closed_teacher_verified".toList (.bool false)).truthy).length = 2 := by
  have htraces : sumTraced = .ok (sumTraced.toOption.getD []) := rfl
  have hclosed : generateClosedTeacherData stubbornClient closedSums (fun _ => "later".toList)
      (sumTraced.toOption.getD []) = .ok (_, _) := rfl
  exact ⟨_, .tail (.single (.traces rfl htraces)) (.closedTeacher rfl hclosed), rfl, rfl, rfl⟩

/-! ### The split of a file of the pipeline -/

section pipeline
variable {v : Verifier} {env : TextEnv} {args : PrepareArgs} {evalProblems : List PyStr}
  {sourceRows rows : List Row}

/-- The clean row of a source row, the first with its id, that overlaps with no evaluation
problem. -/
def CleanRow (env : TextEnv) (args : PrepareArgs) (evalProblems : List PyStr)
    (sourceRows : List Row) (n : NormalizedRow) : Prop :=
  FirstWithId env sourceRows n ∧ isContaminated env args evalProblems n.problem = false

/-- The clean rows behind the rows of a sound file, one for each. -/
theorem SoundFile.exists_clean {clean : List NormalizedRow} (h : SoundFile v clean rows) :
    ∃ ns, List.Forall₂ (fun n row => n ∈ clean ∧ Descends v n row) ns rows ∧
      (ns.map NormalizedRow.id).Nodup := by
  obtain ⟨ns, hns⟩ := Checked.exists_forall₂ (R := fun n row => n ∈ clean ∧ Descends v n row)
    h.descends
  refine ⟨ns, hns, ?_⟩
  have hdistinct := h.distinct
  have hids : rows.map rowId = (ns.map NormalizedRow.id).map fun id => .ok (.str id) := by
    clear h hdistinct
    induction hns with
    | nil => rfl
    | cons hrow _ ih => rw [List.map_cons, List.map_cons, List.map_cons, hrow.2.rowId_eq, ih]
  rw [hids] at hdistinct
  exact hdistinct.of_map

/-- Clean rows with distinct ids have problems with distinct normal forms. -/
theorem nodup_normalizeProblem {ns : List NormalizedRow}
    (hclean : ∀ n ∈ ns, ∃ row, normalizeRow env row = .ok n)
    (hids : (ns.map NormalizedRow.id).Nodup) :
    (ns.map fun n => normalizeProblem env.table n.problem).Nodup := by
  refine nodup_map_of_nodup_map hids ?_
  intro n hn m hm heq
  obtain ⟨row, hrow⟩ := hclean n hn
  obtain ⟨row', hrow'⟩ := hclean m hm
  have hid := normalizeRow_id hrow
  have hid' := normalizeRow_id hrow'
  unfold stableProblemId at hid hid'
  rw [heq, hid'] at hid
  exact (Except.ok.inj hid).symm

/-- Behind the rows that a tool picks from a file of the pipeline stand clean rows, one for each,
whose problems have distinct normal forms. -/
theorem exists_cleanRows (hdigest : DigestNonempty env)
    (h : Produced v env args evalProblems sourceRows rows) {picked : List Row}
    (hsub : picked.Subperm rows) :
    ∃ ns, List.Forall₂ (Descends v) ns picked ∧
      (∀ n ∈ ns, CleanRow env args evalProblems sourceRows n) ∧
      (ns.map fun n => normalizeProblem env.table n.problem).Nodup := by
  obtain ⟨ns, hns, hids⟩ := ((soundFile_of_produced hdigest h).of_subperm hsub).exists_clean
  have hclean : ∀ n ∈ ns, CleanRow env args evalProblems sourceRows n := by
    intro n hn
    obtain ⟨row, -, hrow, -⟩ := Checked.exists_of_forall₂ hns hn
    exact mem_clean_iff.mp hrow
  refine ⟨ns, hns.imp fun _ _ hrow => hrow.2, hclean, nodup_normalizeProblem ?_ hids⟩
  intro n hn
  obtain ⟨row, -, hrow⟩ := (hclean n hn).1.exists_row
  exact ⟨row, hrow⟩

theorem forall₂_and_of_forall {α β : Type*} {R : α → β → Prop} {P : β → Prop} {xs : List α}
    {ys : List β} (h : List.Forall₂ R xs ys) (hP : ∀ y ∈ ys, P y) :
    List.Forall₂ (fun x y => P y ∧ R x y) xs ys :=
  ((List.forall₂_and_left ys xs).mpr ⟨hP, h.flip⟩).flip

/-- **The records of a split are clean, disjoint and solved.**  Whatever tools made the file, in
whatever order, and whichever tool splits it: both parts are written; every record is that of a
clean row and holds a trace with the full reward; and no two records of the parts, in one of them
or across, have problems with one normal form. -/
theorem trainingRecords_of_pipeline (hdigest : DigestNonempty env)
    (h : Produced v env args evalProblems sourceRows rows) (recordArgs : RecordArgs)
    (hprompt : OwnColumn recordArgs.promptKey) (hfield : recordArgs.piTraceField ∈ piTraceFields)
    {train dev : List Row} (hsplit : Splits recordArgs.piTraceField rows train dev) :
    ∃ trainRecords devRecords, jsonlToVerlParquet recordArgs train = .ok trainRecords ∧
      jsonlToVerlParquet recordArgs dev = .ok devRecords ∧
      ∃ trainRows devRows, List.Forall₂ (TrainingRecord v recordArgs) trainRows trainRecords ∧
        List.Forall₂ (TrainingRecord v recordArgs) devRows devRecords ∧
        (∀ n ∈ trainRows ++ devRows, CleanRow env args evalProblems sourceRows n) ∧
        ((trainRows ++ devRows).map fun n => normalizeProblem env.table n.problem).Nodup := by
  obtain ⟨hsub, hverified⟩ := splits_cases hsplit
  obtain ⟨ns, hns, hclean, hnodup⟩ := exists_cleanRows hdigest h hsub
  have hall := forall₂_and_of_forall hns hverified
  have hrecord : ∀ n row, SaysVerified recordArgs.piTraceField row ∧ Descends v n row →
      ∃ record, verlRecord recordArgs row = .ok record ∧ TrainingRecord v recordArgs n record :=
    fun n row hrow => exists_trainingRecord hprompt hfield hrow.2 hrow.1
  obtain ⟨trainRecords, htrain, htrainRecords⟩ :=
    Checked.exists_mapM_of_forall₂ (List.forall₂_take_append ns train dev hall) hrecord
  obtain ⟨devRecords, hdev, hdevRecords⟩ :=
    Checked.exists_mapM_of_forall₂ (List.forall₂_drop_append ns train dev hall) hrecord
  refine ⟨trainRecords, devRecords, htrain, hdev, _, _, htrainRecords, hdevRecords, ?_⟩
  rw [List.take_append_drop]
  exact ⟨hclean, hnodup⟩

/-- One record in either part. -/
theorem trainingRecords_of_sums : ∃ trainRecords devRecords trainRows devRows,
    trainRecords.length = 1 ∧ devRecords.length = 1 ∧
    List.Forall₂ (TrainingRecord twoWorkers.verifier sumRecords) trainRows trainRecords ∧
    List.Forall₂ (TrainingRecord twoWorkers.verifier sumRecords) devRows devRecords ∧
    ((trainRows ++ devRows).map fun n => normalizeProblem markedEnv.table n.problem).Nodup := by
  obtain ⟨rows, hproduced, htrain, hdev, -⟩ := produced_sums
  have hsplit : Splits sumRecords.piTraceField rows (buildCommonVerifiedSplit sumSplit rows).train
      (buildCommonVerifiedSplit sumSplit rows).dev := .common rfl
  obtain ⟨trainRecords, devRecords, htrainRecords, hdevRecords, trainRows, devRows, h, h', -, hn⟩ :=
    trainingRecords_of_pipeline digestNonempty_markedEnv hproduced sumRecords (by decide)
      (by decide) hsplit
  refine ⟨trainRecords, devRecords, trainRows, devRows, ?_, ?_, h, h', hn⟩
  · rw [← (Checked.mapM_eq_ok_iff.mp htrainRecords).length_eq, htrain]
  · rw [← (Checked.mapM_eq_ok_iff.mp hdevRecords).length_eq, hdev]

theorem atMost_sublist {α : Type*} (limit : Option ℕ) (xs : List α) :
    (EarlyExit.atMost limit xs).Sublist xs := by
  cases limit with
  | none => exact List.Sublist.refl xs
  | some k => exact List.take_sublist k xs

/-- A text without a box has no answer to verify, so a text that solves something is not empty. -/
theorem ne_nil_of_solves {gold text : PyStr} (h : Solves v gold text) : text ≠ [] := by
  rintro rfl
  cases h

/-- The conversation about a clean problem, with a response that gets the full reward. -/
structure ClosedConversation (v : Verifier) (n : NormalizedRow) (conversation : Row) : Prop where
  messages : ∃ response, Row.get? "messages".toList conversation =
      some (sftMessages n.problem response) ∧
    (computeScore v response (.str n.goldAnswer)).score = 1
  groundTruth : Row.get? "reward_model".toList conversation =
    some (ruleReward (.str n.goldAnswer))
  extra : ∃ extra, Row.get? "extra_info".toList conversation = some (.obj extra) ∧
    Row.get? "id".toList extra = some (.str n.id) ∧
    Row.get? "problem".toList extra = some (.str n.problem)

/-- The closed teacher's response to a row, if the row says that it is verified. -/
theorem exists_closedResponse {n : NormalizedRow} {row : Row} (h : Descends v n row) :
    ∃ verified, Row.get? "closed_teacher_verified".toList row = some (.bool verified) ∧
      closedEligible row = verified ∧ (verified = true → ∃ response,
        Row.get? "closed_teacher_output".toList row = some (.str response) ∧
          Solves v n.goldAnswer response) := by
  obtain ⟨verified, hflag, hsolves⟩ := h.honest
    ("closed_teacher_output".toList, "closed_teacher_verified".toList) (by simp [generatedFields])
  refine ⟨verified, hflag, ?_, hsolves⟩
  unfold closedEligible
  rw [Row.getD_of_get? hflag]
  cases verified with
  | false => rfl
  | true =>
      obtain ⟨response, hresponse, hsolves⟩ := hsolves rfl
      rw [Row.get_of_get? hresponse]
      cases response with
      | nil => exact absurd rfl (ne_nil_of_solves hsolves)
      | cons c response => rfl

theorem exists_closedTeacherModel {row : Row} (h : ObjectMetadata row) :
    ∃ model, closedTeacherModel row = .ok model := by
  obtain ⟨fields, hfields, hclosed⟩ := h
  have hget : row.get "metadata".toList = .obj fields := Row.get_of_get? hfields
  unfold closedTeacherModel
  rw [hget]
  dsimp only
  cases hgeneration : Row.get? closedGenerationKey fields with
  | none =>
      have hdefault : Row.getD "closed_teacher_generation".toList (.obj []) fields = .obj [] :=
        Row.getD_of_absent hgeneration
      rw [hdefault]
      exact ⟨_, rfl⟩
  | some value =>
      obtain ⟨generation, rfl⟩ := hclosed value hgeneration
      have hvalue : Row.getD "closed_teacher_generation".toList (.obj []) fields =
          .obj generation := Row.getD_of_get? hgeneration
      rw [hvalue]
      exact ⟨_, rfl⟩

theorem exists_closedConversation {n : NormalizedRow} {row : Row} (p : Json.Printer)
    (h : Descends v n row) (heligible : closedEligible row = true) :
    ∃ conversation, closedSftRow p row = .ok conversation ∧
      ClosedConversation v n conversation := by
  obtain ⟨verified, -, hverified, hresponse⟩ := exists_closedResponse h
  obtain ⟨response, hresponse, hsolves⟩ := hresponse (hverified.symm.trans heligible)
  obtain ⟨model, hmodel⟩ := exists_closedTeacherModel h.metadata
  unfold closedSftRow
  rw [Row.getItem_eq_ok_iff.mpr h.problem, Row.getItem_eq_ok_iff.mpr h.goldAnswer,
    Row.getItem_eq_ok_iff.mpr h.id, hmodel, Row.get_of_get? hresponse]
  exact ⟨_, rfl, ⟨response, rfl, score_of_solves hsolves⟩, rfl, _, rfl, rfl, rfl⟩

/-- **The conversations of the closed teacher are clean, distinct and solved.**  Of any file of the
pipeline the builder writes one for each of the first rows whose closed output is verified, up to
its limit, and no other; every response gets the full reward. -/
theorem closedConversations_of_pipeline (hdigest : DigestNonempty env)
    (h : Produced v env args evalProblems sourceRows rows) (p : Json.Printer)
    (maxRows : Option ℕ) (hlimit : maxRows ≠ some 0) :
    ∃ conversations rest, closedBuildRows p maxRows rows = .ok (conversations, rest) ∧
      ∃ ns, List.Forall₂ (ClosedConversation v) ns conversations ∧
        (∀ n ∈ ns, CleanRow env args evalProblems sourceRows n) ∧
        (ns.map fun n => normalizeProblem env.table n.problem).Nodup ∧
        List.Forall₂ (fun n row => Descends v n row) ns
          (EarlyExit.atMost maxRows (rows.filter fun row =>
            (row.getD "closed_teacher_verified".toList (.bool false)).truthy)) := by
  have hsound := soundFile_of_produced (v := v) hdigest h
  have hflag : rows.filter (fun row =>
      (row.getD "closed_teacher_verified".toList (.bool false)).truthy) =
        rows.filter closedEligible := by
    apply List.filter_congr
    intro row hrow
    obtain ⟨n, -, hn⟩ := hsound.descends row hrow
    obtain ⟨verified, hflag, hverified, -⟩ := exists_closedResponse hn
    rw [hverified, Row.getD_of_get? hflag]
    rfl
  rw [hflag]
  set picked := EarlyExit.atMost maxRows (rows.filter closedEligible) with hpicked
  have hsub : picked.Subperm rows := (atMost_sublist maxRows _).subperm.trans
    List.filter_sublist.subperm
  obtain ⟨ns, hns, hclean, hnodup⟩ := exists_cleanRows hdigest h hsub
  have heligible : ∀ row ∈ picked, closedEligible row = true := fun row hrow =>
    (List.mem_filter.mp (EarlyExit.mem_of_mem_atMost hrow)).2
  obtain ⟨conversations, hmap, hconversations⟩ :=
    Checked.exists_mapM_of_forall₂ (forall₂_and_of_forall hns heligible)
      fun n row hrow => exists_closedConversation p hrow.2 hrow.1
  have hbuild := Checked.mapM_eq_ok_iff.mp hmap
  obtain ⟨written, rest, hrun, haccounts⟩ :=
    (closedSftStep_collects.exists_accounts_iff rfl (fun _ _ => closedAccounts_iff) (by
      intro written rest haccounts row hrow
      obtain ⟨conversation, -, hrow⟩ := Checked.exists_of_forall₂ haccounts hrow
      exact ⟨conversation, hrow⟩)).mpr ⟨fun hzero => absurd hzero hlimit, by
      intro row hrow
      obtain ⟨conversation, -, hrow⟩ := Checked.exists_of_forall₂ hbuild hrow
      exact ⟨conversation, hrow⟩⟩
  have hwritten : picked.mapM (closedSftRow p) = .ok written :=
    Checked.mapM_eq_ok_iff.mpr haccounts
  obtain rfl := Except.ok.inj (hmap.symm.trans hwritten)
  exact ⟨conversations, rest, hrun, ns, hconversations, hclean, hnodup, hns⟩

/-- Two conversations. -/
theorem closedConversations_of_sums : ∃ conversations ns, conversations.length = 2 ∧
    List.Forall₂ (ClosedConversation twoWorkers.verifier) ns conversations := by
  obtain ⟨rows, hproduced, -, -, hclosed⟩ := produced_sums
  obtain ⟨conversations, rest, -, ns, hconversations, -, -, hns⟩ :=
    closedConversations_of_pipeline digestNonempty_markedEnv hproduced twoWorkers.verifier.printer
      none nofun
  refine ⟨conversations, ns, ?_, hconversations⟩
  rw [← hconversations.length_eq, hns.length_eq]
  exact hclosed

/-! ### The shuffled control -/

/-- The trace of a record. -/
def recordTrace (piTraceField : PyStr) (record : Row) : Json :=
  match Row.get? "extra_info".toList record with
  | some (.obj extra) => Row.get piTraceField extra
  | _ => .null

/-- The records differ in the trace alone. -/
structure SameButTrace (piTraceField : PyStr) (record record' : Row) : Prop where
  columns : ∀ key, key ≠ "extra_info".toList → Row.get? key record' = Row.get? key record
  extra : ∃ extra extra', Row.get? "extra_info".toList record = some (.obj extra) ∧
    Row.get? "extra_info".toList record' = some (.obj extra') ∧
    ∀ key, key ≠ piTraceField → Row.get? key extra' = Row.get? key extra

/-- The columns of a written record. -/
theorem verlRecord_eq_ok {recordArgs : RecordArgs} {row record : Row}
    (h : verlRecord recordArgs row = .ok record) :
    ∃ problem gold id, row.getItem "problem".toList = .ok problem ∧
      row.getItem "gold_answer".toList = .ok gold ∧ row.getItem "id".toList = .ok id ∧
      (∀ key, key ≠ "extra_info".toList → Row.get? key record = Row.get? key (pyDict [
        (recordArgs.promptKey, recordPrompt (problem.toStr recordArgs.printer)),
        ("data_source".toList, .str "extpi_rlsd/math".toList),
        ("reward_model".toList, ruleReward gold)])) ∧
      Row.get? "extra_info".toList record = some (.obj (extraInfo recordArgs id problem row)) := by
  obtain ⟨problem, hproblem, h⟩ := Checked.bind_eq_ok_iff.mp h
  obtain ⟨gold, hgold, h⟩ := Checked.bind_eq_ok_iff.mp h
  obtain ⟨id, hid, h⟩ := Checked.bind_eq_ok_iff.mp h
  obtain rfl := Except.ok.inj h
  refine ⟨problem, gold, id, hproblem, hgold, hid, ?_, ?_⟩
  · intro key hkey
    simp only [pyDict, List.foldl_cons, List.foldl_nil, Row.get?_setItem, if_neg hkey]
  · simp only [pyDict, List.foldl_cons, List.foldl_nil, Row.get?_setItem, if_true]

/-- Displays with the same keys and, under one of them, the same values. -/
theorem get?_pyDict_congr {key : PyStr} {items items' : List (PyStr × Json)}
    (h : List.Forall₂ (fun item item' => item'.1 = item.1 ∧ (item.1 = key → item'.2 = item.2))
      items items') : Row.get? key (pyDict items') = Row.get? key (pyDict items) := by
  have hgen : ∀ {items items' : List (PyStr × Json)} {row row' : Row},
      List.Forall₂ (fun item item' => item'.1 = item.1 ∧ (item.1 = key → item'.2 = item.2))
        items items' → Row.get? key row' = Row.get? key row →
      Row.get? key (items'.foldl (fun row item => row.setItem item.1 item.2) row') =
        Row.get? key (items.foldl (fun row item => row.setItem item.1 item.2) row) := by
    intro items items' row row' h
    induction h generalizing row row' with
    | nil => exact id
    | cons hitem _ ih =>
        intro hrow
        refine ih ?_
        rw [Row.get?_setItem, Row.get?_setItem, hitem.1, hrow]
        split
        · next heq => rw [hitem.2 heq.symm]
        · rfl
  exact hgen h rfl

/-- The extra information about two rows that differ in the trace. -/
theorem get?_extraInfo_congr {recordArgs : RecordArgs} {row row' : Row} {key : PyStr}
    (hfield : recordArgs.piTraceField ∈ piTraceFields)
    (hrow : ∀ key ∈ ["qwen8b_pi_trace".toList, "qwen8b_pi_verified".toList,
      "qwen32b_pi_trace".toList, "qwen32b_pi_verified".toList], key ≠ recordArgs.piTraceField →
        Row.get? key row' = Row.get? key row)
    (hkey : key ≠ recordArgs.piTraceField) (id problem : Json) :
    Row.get? key (extraInfo recordArgs id problem row') =
      Row.get? key (extraInfo recordArgs id problem row) := by
  have hverified : ∀ field ∈ piTraceFields, verifiedField field ∈ ["qwen8b_pi_trace".toList,
      "qwen8b_pi_verified".toList, "qwen32b_pi_trace".toList, "qwen32b_pi_verified".toList] := by
    decide
  have hget : ∀ k, k ∈ ["qwen8b_pi_trace".toList, "qwen8b_pi_verified".toList,
      "qwen32b_pi_trace".toList, "qwen32b_pi_verified".toList] → k = key →
        Row.get k row' = Row.get k row ∧ ∀ d, Row.getD k d row' = Row.getD k d row := by
    rintro k hk rfl
    unfold Row.get Row.getD
    rw [hrow k hk hkey]
    exact ⟨rfl, fun _ => rfl⟩
  refine get?_pyDict_congr ?_
  refine .cons ⟨rfl, fun _ => rfl⟩ (.cons ⟨rfl, fun _ => rfl⟩ (.cons ⟨rfl, ?_⟩ (.cons ⟨rfl, ?_⟩
    (.cons ⟨rfl, ?_⟩ (.cons ⟨rfl, ?_⟩ (.cons ⟨rfl, ?_⟩ (.cons ⟨rfl, ?_⟩
      (.cons ⟨rfl, fun _ => rfl⟩ .nil))))))))
  · exact fun heq => absurd heq.symm hkey
  · exact fun heq => (hget _ (hverified _ hfield) heq).2 _
  · exact fun heq => (hget _ (by simp) heq).1
  · exact fun heq => (hget _ (by simp) heq).2 _
  · exact fun heq => (hget _ (by simp) heq).1
  · exact fun heq => (hget _ (by simp) heq).2 _

theorem recordTrace_verlRecord {recordArgs : RecordArgs} {row record : Row}
    (hfield : recordArgs.piTraceField ∈ piTraceFields)
    (h : verlRecord recordArgs row = .ok record) :
    recordTrace recordArgs.piTraceField record = row.get recordArgs.piTraceField := by
  obtain ⟨problem, gold, id, -, -, -, -, hextra⟩ := verlRecord_eq_ok h
  unfold recordTrace
  rw [hextra]
  exact Row.get_of_get? (extraInfo_fields hfield id problem row).2.2.1

theorem map_recordTrace {recordArgs : RecordArgs} {rows records : List Row}
    (hfield : recordArgs.piTraceField ∈ piTraceFields)
    (h : List.Forall₂ (fun row record => verlRecord recordArgs row = .ok record) rows records) :
    records.map (recordTrace recordArgs.piTraceField) =
      rows.map (Row.get recordArgs.piTraceField) := by
  induction h with
  | nil => rfl
  | cons hrow _ ih => rw [List.map_cons, List.map_cons, ih, recordTrace_verlRecord hfield hrow]

theorem sameButTrace_verlRecord {recordArgs : RecordArgs} {row row' record : Row}
    (hfield : recordArgs.piTraceField ∈ piTraceFields)
    (hrow : ∀ key, key ≠ recordArgs.piTraceField → key ≠ metadataField →
      Row.get? key row' = Row.get? key row)
    (h : verlRecord recordArgs row = .ok record) :
    ∃ record', verlRecord recordArgs row' = .ok record' ∧
      SameButTrace recordArgs.piTraceField record record' := by
  obtain ⟨problem, gold, id, hproblem, hgold, hid, hcolumns, hextra⟩ := verlRecord_eq_ok h
  have hother : ∀ field ∈ piTraceFields, ∀ key ∈ problemFields,
      key ≠ field ∧ key ≠ metadataField := by decide
  have hitem : ∀ key ∈ problemFields, row'.getItem key = row.getItem key := by
    intro key hkey
    obtain ⟨htrace, hmetadata⟩ := hother _ hfield key hkey
    unfold Row.getItem
    rw [hrow key htrace hmetadata]
  obtain ⟨record', hrecord'⟩ : ∃ record', verlRecord recordArgs row' = .ok record' := by
    unfold verlRecord
    rw [hitem _ (by simp [problemFields]), hitem _ (by simp [problemFields]),
      hitem _ (by simp [problemFields]), hproblem, hgold, hid]
    exact ⟨_, rfl⟩
  obtain ⟨problem', gold', id', hproblem', hgold', hid', hcolumns', hextra'⟩ :=
    verlRecord_eq_ok hrecord'
  rw [hitem _ (by simp [problemFields])] at hproblem' hgold' hid'
  obtain rfl := Except.ok.inj (hproblem.symm.trans hproblem')
  obtain rfl := Except.ok.inj (hgold.symm.trans hgold')
  obtain rfl := Except.ok.inj (hid.symm.trans hid')
  refine ⟨record', hrecord', ?_, _, _, hextra, hextra', ?_⟩
  · intro key hkey
    rw [hcolumns key hkey, hcolumns' key hkey]
  · intro key hkey
    refine get?_extraInfo_congr hfield (fun key hmem hne => hrow key hne ?_) hkey id problem
    have hmetadata : metadataField ∉ ["qwen8b_pi_trace".toList, "qwen8b_pi_verified".toList,
        "qwen32b_pi_trace".toList, "qwen32b_pi_verified".toList] := by decide
    rintro rfl
    exact hmetadata hmem

/-- Two lists that were made of one. -/
theorem forall₂_beside {α β γ : Type*} {R : α → β → Prop} {S : α → γ → Prop} {xs : List α}
    {ys : List β} {zs : List γ} (h : List.Forall₂ R xs ys) (h' : List.Forall₂ S xs zs) :
    List.Forall₂ (fun y z => ∃ x, R x y ∧ S x z) ys zs := by
  induction h generalizing zs with
  | nil =>
      cases h'
      exact .nil
  | cons hxy _ ih =>
      cases h' with
      | cons hxz h' => exact .cons ⟨_, hxy, hxz⟩ (ih h')

/-- **The control differs from its split in the traces alone.**  For a split of a file of the
pipeline the shuffle is written and so are the records of both: in the same order, with the same
prompts, ground truths and flags, and with the shuffled traces of the split. -/
theorem shuffledRecords_of_pipeline (hdigest : DigestNonempty env)
    (h : Produced v env args evalProblems sourceRows rows) (recordArgs : RecordArgs)
    (hprompt : OwnColumn recordArgs.promptKey) (hfield : recordArgs.piTraceField ∈ piTraceFields)
    {train dev : List Row} (hsplit : Splits recordArgs.piTraceField rows train dev) (seed : ℤ)
    (source : PyStr) (σ : ∀ n, Equiv.Perm (Fin n)) :
    ∃ control records controlRecords,
      shuffledPi seed source recordArgs.piTraceField σ train = .ok control ∧
      jsonlToVerlParquet recordArgs train = .ok records ∧
      jsonlToVerlParquet recordArgs control = .ok controlRecords ∧
      List.Forall₂ (SameButTrace recordArgs.piTraceField) records controlRecords ∧
      controlRecords.map (recordTrace recordArgs.piTraceField) =
        shuffledTraces σ (records.map (recordTrace recordArgs.piTraceField)) := by
  obtain ⟨hsub, -⟩ := splits_cases hsplit
  have hsound := (soundFile_of_produced (v := v) hdigest h).of_subperm
    ((List.sublist_append_left train dev).subperm.trans hsub)
  have hfields : ∀ field ∈ piTraceFields, field ≠ metadataField := by decide
  have hmetadataField := hfields _ hfield
  have hobject : ∀ row ∈ train, HasMetadataObject row := by
    intro row hrow value hvalue
    obtain ⟨n, -, hn⟩ := hsound.descends row hrow
    obtain ⟨fields, hfields, -⟩ := hn.metadata
    exact ⟨fields, Option.some.inj (hvalue.symm.trans hfields)⟩
  obtain ⟨control, hcontrol⟩ := exists_shuffledPi hmetadataField hobject seed source σ
  obtain ⟨-, htraces, hothers⟩ := shuffledPi_eq_ok hmetadataField hcontrol
  obtain ⟨records, hrecords, -⟩ := Checked.exists_mapM_eq_ok (f := verlRecord recordArgs)
    (R := fun _ _ => True) fun row hrow => by
      obtain ⟨n, -, hn⟩ := hsound.descends row hrow
      obtain ⟨record, hrecord, -⟩ := exists_verlRecord hprompt hn
      exact ⟨record, hrecord, trivial⟩
  have hwritten := Checked.mapM_eq_ok_iff.mp hrecords
  obtain ⟨controlRecords, hcontrolRecords, hsame⟩ := Checked.exists_mapM_of_forall₂
    (S := SameButTrace recordArgs.piTraceField) (forall₂_beside hwritten hothers)
    fun record row' hrow => by
      obtain ⟨row, hrecord, hother⟩ := hrow
      exact sameButTrace_verlRecord hfield hother hrecord
  refine ⟨control, records, controlRecords, hcontrol, hrecords, hcontrolRecords, hsame, ?_⟩
  rw [map_recordTrace hfield (Checked.mapM_eq_ok_iff.mp hcontrolRecords),
    map_recordTrace hfield hwritten, htraces]

/-- The control of one row, which keeps its trace. -/
theorem shuffledRecords_of_sums : ∃ records controlRecords, records.length = 1 ∧
    List.Forall₂ (SameButTrace "qwen8b_pi_trace".toList) records controlRecords := by
  obtain ⟨rows, hproduced, htrain, -, -⟩ := produced_sums
  have hsplit : Splits sumRecords.piTraceField rows (buildCommonVerifiedSplit sumSplit rows).train
      (buildCommonVerifiedSplit sumSplit rows).dev := .common rfl
  obtain ⟨control, records, controlRecords, -, hrecords, -, hsame, -⟩ :=
    shuffledRecords_of_pipeline digestNonempty_markedEnv hproduced sumRecords (by decide)
      (by decide) hsplit 42 "train".toList fun _ => 1
  refine ⟨records, controlRecords, ?_, hsame⟩
  rw [← (Checked.mapM_eq_ok_iff.mp hrecords).length_eq, htrain]

end pipeline

end ExtpiRlsd
