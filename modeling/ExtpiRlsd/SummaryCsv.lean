import ExtpiRlsd.HparamMetrics
import ExtpiRlsd.Lib.KeyedStore

/-! # The summary CSV

`hparam_matrix.py`: the row that summarises a run at a checkpoint, and the CSV file that holds one
row for each run and step.  Every call of `writeSummaryCsv` reads the file, drops the rows with
its run and step, and writes all rows and its own.

The file is a keyed store (`holds_writeSummaryCsv`): each call is an upsert of the rendered row,
and `summaryCsv_upsert` says what the file holds after any sequence of calls. -/

namespace ExtpiRlsd

open PyText PyData KeyedStore

/-! ### The summary row -/

def summaryFields : List PyStr := ["run_id".toList, "step".toList, "avg@4".toList,
  "majority@4".toList, "pass@4".toList, "greedy".toList, "format".toList, "truncation".toList,
  "mean_len".toList, "ProxyScore".toList, "ranking_score".toList,
  "group_nonzero_std_ratio_mean".toList, "rlsd_weight_std_mean".toList,
  "rlsd_clip_total_mean".toList, "privacy_leak_count".toList, "pi_prompt_trunc_count".toList,
  "hard_gate_violation".toList, "selection_veto".toList, "baseline_missing".toList]

structure ProxyScore where
  proxyScore : PyFloat
  rankingScore : PyFloat
  selectionVeto : List PyStr
  baselineMissing : Bool

section build
variable (ops : FloatOps) (parse : PyStr → Option PyFloat)

/-- `float(payload.get(key, 0.0))`. -/
def floatField (payload : Row) (key : String) : Except PyError PyFloat :=
  (payload.getD key.toList (.float (.fin 0))).toFloat ops.fmt parse

/-- The penalty for a changed length, and the vetoes, against the baseline. -/
def againstBaseline (fmt truncation meanLen : PyFloat) :
    Option Row → Except PyError (PyFloat × List PyStr)
  | none => .ok (.fin 0, [])
  | some baseline => do
      let baseLen ← floatField ops parse baseline "mean_response_length"
      let lengthPenalty := if (PyFloat.fin 0).lt baseLen then
        (meanLen.sub ops.fmt baseLen).abs.div ops.fmt baseLen else .fin 0
      let baseFormat ← floatField ops parse baseline "format_rate"
      let baseTruncation ← floatField ops parse baseline "truncation_rate"
      let formatDrop := fmt.lt (baseFormat.sub ops.fmt (ops.fmt.round (2 / 100)))
      let truncationIncrease := (baseTruncation.add ops.fmt (ops.fmt.round (5 / 100))).lt truncation
      return (lengthPenalty, (if formatDrop then ["format_drop".toList] else []) ++
        if truncationIncrease then ["truncation_increase".toList] else [])

/-- `proxy_score`. -/
def proxyScore (evalPayload : Row) (baselinePayload : Option Row) : Except PyError ProxyScore := do
  let avg ← floatField ops parse evalPayload "avg"
  let majority ← floatField ops parse evalPayload "majority"
  let passAt ← floatField ops parse evalPayload "pass"
  let greedy ← floatField ops parse evalPayload "greedy_accuracy"
  let fmt ← floatField ops parse evalPayload "format_rate"
  let truncation ← floatField ops parse evalPayload "truncation_rate"
  let meanLen ← floatField ops parse evalPayload "mean_response_length"
  let (lengthPenalty, selectionVeto) ←
    againstBaseline ops parse fmt truncation meanLen baselinePayload
  let weighted (w : ℚ) (x : PyFloat) := (ops.fmt.round w).mul ops.fmt x
  let score := weighted (40 / 100) avg |>.add ops.fmt (weighted (25 / 100) majority)
    |>.add ops.fmt (weighted (20 / 100) passAt) |>.add ops.fmt (weighted (10 / 100) greedy)
    |>.add ops.fmt (weighted (5 / 100) fmt) |>.sub ops.fmt (weighted (10 / 100) truncation)
    |>.sub ops.fmt (weighted (3 / 100) lengthPenalty)
  return {
    proxyScore := score
    rankingScore := score.sub ops.fmt (.fin (if selectionVeto.isEmpty then 0 else 1))
    selectionVeto
    baselineMissing := baselinePayload.isNone }

/-- `_checkpoint_step`. -/
def checkpointStep (checkpoint : PyStr) : PyStr :=
  if "step_".toList.isPrefixOf checkpoint then replace "step_".toList [] checkpoint else checkpoint

/-- `build_summary_row` of the payloads and the metric file read. -/
def buildSummaryRow (p : Json.Printer) {Line : Type} (codec : LineCodec Line) (runId : PyStr)
    (metricsFile : Option (List Line)) (evalPayload : Row) (baselinePayload : Option Row) :
    Except PyError Row := do
  let records ← loadMetricRecords codec metricsFile
  let metrics ← summarizeMetrics ops records
  let score ← proxyScore ops parse evalPayload baselinePayload
  let avg ← floatField ops parse evalPayload "avg"
  let majority ← floatField ops parse evalPayload "majority"
  let passAt ← floatField ops parse evalPayload "pass"
  let greedy ← floatField ops parse evalPayload "greedy_accuracy"
  let fmt ← floatField ops parse evalPayload "format_rate"
  let truncation ← floatField ops parse evalPayload "truncation_rate"
  let meanLen ← floatField ops parse evalPayload "mean_response_length"
  let step := checkpointStep ((evalPayload.getD "checkpoint".toList (.str [])).toStr p)
  return [
    ("run_id".toList, .str runId),
    ("step".toList, .str step),
    ("avg@4".toList, .float avg),
    ("majority@4".toList, .float majority),
    ("pass@4".toList, .float passAt),
    ("greedy".toList, .float greedy),
    ("format".toList, .float fmt),
    ("truncation".toList, .float truncation),
    ("mean_len".toList, .float meanLen),
    ("ProxyScore".toList, .float score.proxyScore),
    ("ranking_score".toList, .float score.rankingScore),
    ("selection_veto".toList, .str (join [';'] score.selectionVeto)),
    ("baseline_missing".toList, .bool score.baselineMissing),
    ("group_nonzero_std_ratio_mean".toList, .float metrics.groupNonzeroStdRatioMean),
    ("rlsd_weight_std_mean".toList, .float metrics.rlsdWeightStdMean),
    ("rlsd_clip_total_mean".toList, .float metrics.rlsdClipTotalMean),
    ("privacy_leak_count".toList, .float metrics.privacyLeakCount),
    ("pi_prompt_trunc_count".toList, .float metrics.piPromptTruncCount),
    ("hard_gate_violation".toList, .str metrics.hardGateViolation)]

end build

/-! ### The file -/

/-- The `csv` module: the text of a table of strings, and the table of a text. -/
structure CsvCodec (Text : Type) where
  write : List (List PyStr) → Text
  read : Text → List (List PyStr)
  read_write : ∀ table, read (write table) = table

/-- The text of a cell: `None` is written as nothing. -/
def cellText (p : Json.Printer) : Json → PyStr
  | .null => []
  | v => v.toStr p

/-- `csv.DictReader` on rows as long as the header. -/
def dictReader : List (List PyStr) → List Row
  | [] => []
  | header :: rows => rows.map fun cells => header.zip (cells.map Json.str)

/-- The cells that `csv.DictWriter` writes for a row. -/
def dictWriterCells (p : Json.Printer) (fields : List PyStr) (row : Row) :
    Except PyError (List PyStr) :=
  if row.all fun item => fields.contains item.1 then
    .ok (fields.map fun field => cellText p (row.getD field (.str [])))
  else .error .valueError

def runIdField : PyStr := "run_id".toList

def stepField : PyStr := "step".toList

section file
variable {Text : Type} (codec : CsvCodec Text) (p : Json.Printer)

/-- The row of the file is not of the run and step of the new row. -/
def isOtherRow (row old : Row) : Except PyError Bool := do
  let runId ← row.getItem runIdField
  if (old.get runIdField).pyEq (.str (runId.toStr p)) then
    let step ← row.getItem stepField
    return !(old.get stepField).pyEq (.str (step.toStr p))
  return true

/-- The rows of the file that a call keeps. -/
def keptRows (row : Row) : Option Text → Except PyError (List Row)
  | none => .ok []
  | some text => Checked.keep (isOtherRow p row) (dictReader (codec.read text))

/-- `write_summary_csv`. -/
def writeSummaryCsv (file : Option Text) (row : Row) : Except PyError (Option Text) := do
  let rows ← keptRows codec p row file
  let newRow := summaryFields.map fun field => (field, row.getD field (.str []))
  let table ← (rows ++ [newRow]).mapM (dictWriterCells p summaryFields)
  return some (codec.write (summaryFields :: table))

/-- Calls on one file, at first absent. -/
def writeCalls (calls : List Row) : Except PyError (Option Text) :=
  calls.foldlM (writeSummaryCsv codec p) none

/-- The rows of the file under the header. -/
def storedRows : Option Text → List (List PyStr)
  | none => []
  | some text => (codec.read text).tail

end file

/-! ### The file as a keyed store -/

/-- Run and step of the cells of a row. -/
def rowKey (cells : List PyStr) : PyStr × PyStr := (cells.getD 0 [], cells.getD 1 [])

section store
variable {Text : Type} {codec : CsvCodec Text} {p : Json.Printer}

/-- Run and step of a call. -/
def callKey (p : Json.Printer) (row : Row) : PyStr × PyStr :=
  ((row.get runIdField).toStr p, (row.get stepField).toStr p)

/-- The texts of the fields of a call. -/
def render (p : Json.Printer) (row : Row) : List PyStr :=
  summaryFields.map fun field => cellText p (row.getD field (.str []))

/-- The row names its run and its step. -/
structure HasKeys (row : Row) : Prop where
  runId : ∃ v, Row.get? runIdField row = some v ∧ v ≠ .null
  step : ∃ v, Row.get? stepField row = some v ∧ v ≠ .null

/-- The run, the step and the ranking score of a summary row. -/
theorem get?_buildSummaryRow {ops : FloatOps} {parse : PyStr → Option PyFloat} {Line : Type}
    {lines : LineCodec Line} {runId : PyStr} {metricsFile : Option (List Line)}
    {evalPayload : Row} {baselinePayload : Option Row} {row : Row}
    (h : buildSummaryRow ops parse p lines runId metricsFile evalPayload baselinePayload =
      .ok row) :
    Row.get? runIdField row = some (.str runId) ∧
      (∃ step, Row.get? stepField row = some (.str step)) ∧
      ∃ x, Row.get? "ranking_score".toList row = some (.float x) := by
  obtain ⟨_, -, h⟩ := Checked.bind_eq_ok_iff.mp h
  obtain ⟨_, -, h⟩ := Checked.bind_eq_ok_iff.mp h
  obtain ⟨score, -, h⟩ := Checked.bind_eq_ok_iff.mp h
  -- the seven rates of the row
  obtain ⟨_, -, h⟩ := Checked.bind_eq_ok_iff.mp h
  obtain ⟨_, -, h⟩ := Checked.bind_eq_ok_iff.mp h
  obtain ⟨_, -, h⟩ := Checked.bind_eq_ok_iff.mp h
  obtain ⟨_, -, h⟩ := Checked.bind_eq_ok_iff.mp h
  obtain ⟨_, -, h⟩ := Checked.bind_eq_ok_iff.mp h
  obtain ⟨_, -, h⟩ := Checked.bind_eq_ok_iff.mp h
  obtain ⟨_, -, h⟩ := Checked.bind_eq_ok_iff.mp h
  rw [← Except.ok.inj h]
  exact ⟨rfl, ⟨_, rfl⟩, ⟨score.rankingScore, rfl⟩⟩

/-- `build_summary_row` names both. -/
theorem hasKeys_buildSummaryRow {ops : FloatOps} {parse : PyStr → Option PyFloat} {Line : Type}
    {lines : LineCodec Line} {runId : PyStr} {metricsFile : Option (List Line)}
    {evalPayload : Row} {baselinePayload : Option Row} {row : Row}
    (h : buildSummaryRow ops parse p lines runId metricsFile evalPayload baselinePayload =
      .ok row) : HasKeys row := by
  obtain ⟨hrun, ⟨step, hstep⟩, -⟩ := get?_buildSummaryRow h
  exact ⟨⟨_, hrun, nofun⟩, ⟨_, hstep, nofun⟩⟩

theorem cellText_of_ne_null {v : Json} (h : v ≠ .null) : cellText p v = v.toStr p := by
  cases v with
  | null => exact absurd rfl h
  | _ => rfl

theorem rowKey_render {row : Row} (h : HasKeys row) : rowKey (render p row) = callKey p row := by
  obtain ⟨⟨r, hr, hrnull⟩, ⟨s, hs, hsnull⟩⟩ := h
  have hrun : row.getD runIdField (.str []) = r := Row.getD_of_get? hr
  have hstep : row.getD stepField (.str []) = s := Row.getD_of_get? hs
  show (cellText p (row.getD runIdField (.str [])), cellText p (row.getD stepField (.str []))) = _
  rw [hrun, hstep, cellText_of_ne_null hrnull, cellText_of_ne_null hsnull, callKey, Row.get,
    Row.get, hr, hs]
  rfl

theorem nodup_summaryFields : summaryFields.Nodup := by decide

/-- A row of cells is read back under its header, field by field. -/
theorem map_getD_zip {fields : List PyStr} (hnodup : fields.Nodup) {vs : List Json}
    (hlength : vs.length = fields.length) (d : Json) :
    fields.map (fun field => Row.getD field d (fields.zip vs)) = vs := by
  induction fields generalizing vs with
  | nil => rw [List.eq_nil_of_length_eq_zero hlength]; rfl
  | cons field fields ih => cases vs with
    | nil => cases hlength
    | cons v vs =>
        obtain ⟨hnotMem, hnodup⟩ := List.nodup_cons.mp hnodup
        have hrest := ih hnodup (Nat.succ.inj hlength)
        rw [List.map_cons]
        congr 1
        · simp [Row.getD, Row.get?]
        · conv => rhs; rw [← hrest]
          apply List.map_congr_left
          intro other hother
          have hne : field ≠ other := fun heq => hnotMem (heq ▸ hother)
          simp [Row.getD, Row.get?, hne]

/-- Values under the header are written in its order. -/
theorem dictWriterCells_zip {vs : List Json} (hlength : vs.length = summaryFields.length) :
    dictWriterCells p summaryFields (summaryFields.zip vs) = .ok (vs.map (cellText p)) := by
  have hall : (summaryFields.zip vs).all
      (fun item => summaryFields.contains item.1) = true := by
    apply List.all_eq_true.mpr
    rintro ⟨field, v⟩ hmem
    exact List.contains_iff_mem.mpr (List.of_mem_zip hmem).1
  rw [dictWriterCells, if_pos hall]
  congr 1
  conv => rhs; rw [← map_getD_zip nodup_summaryFields hlength (.str [])]
  rw [List.map_map]
  rfl

/-- A stored row is written again as it was. -/
theorem dictWriterCells_stored {cells : List PyStr}
    (hlength : cells.length = summaryFields.length) :
    dictWriterCells p summaryFields (summaryFields.zip (cells.map Json.str)) = .ok cells := by
  rw [dictWriterCells_zip (by rw [List.length_map, hlength]), List.map_map]
  congr 1
  conv => rhs; rw [← List.map_id cells]
  apply List.map_congr_left
  intro s _
  exact Json.toStr_str p s

theorem dictWriterCells_new (row : Row) :
    dictWriterCells p summaryFields
      (summaryFields.map fun field => (field, row.getD field (.str []))) = .ok (render p row) := by
  rw [List.map_prod_left_eq_zip, dictWriterCells_zip (List.length_map _), List.map_map]
  rfl

/-- The cells are one row of the file. -/
def IsStored (cells : List PyStr) : Prop := cells.length = summaryFields.length

theorem isStored_render (row : Row) : IsStored (render p row) := List.length_map _

/-- The file holds these rows under the header, or is absent and holds none. -/
def Holds (codec : CsvCodec Text) (file : Option Text) (rows : List (List PyStr)) : Prop :=
  (∀ cells ∈ rows, IsStored cells) ∧
    ((file = none ∧ rows = []) ∨ file = some (codec.write (summaryFields :: rows)))

theorem Holds.storedRows_eq {file : Option Text} {rows : List (List PyStr)}
    (h : Holds codec file rows) : storedRows codec file = rows := by
  rcases h.2 with ⟨rfl, rfl⟩ | rfl
  · rfl
  · rw [storedRows, codec.read_write]
    rfl

theorem pyEq_str (a b : PyStr) : (Json.str a).pyEq (.str b) = decide (a = b) := by
  rw [Json.pyEq, Bool.eq_iff_iff, beq_iff_eq, decide_eq_true_iff]

theorem isOtherRow_stored {row : Row} (hrow : HasKeys row) {cells : List PyStr}
    (hcells : IsStored cells) :
    isOtherRow p row (summaryFields.zip (cells.map Json.str)) =
      .ok (decide (rowKey cells ≠ rowKey (render p row))) := by
  have hkey := rowKey_render (p := p) hrow
  obtain ⟨⟨r, hr, -⟩, ⟨s, hs, -⟩⟩ := hrow
  obtain ⟨a, b, rest, rfl⟩ : ∃ a b rest, cells = a :: b :: rest := by
    match cells, hcells with
    | a :: b :: rest, _ => exact ⟨a, b, rest, rfl⟩
  have hold : Row.get runIdField (summaryFields.zip ((a :: b :: rest).map Json.str)) = .str a := rfl
  have holdStep : Row.get stepField (summaryFields.zip ((a :: b :: rest).map Json.str)) =
      .str b := rfl
  have hrun : Row.getItem runIdField row = .ok r := Row.getItem_eq_ok_iff.mpr hr
  have hstep : Row.getItem stepField row = .ok s := Row.getItem_eq_ok_iff.mpr hs
  have hcall : callKey p row = (r.toStr p, s.toStr p) := by
    rw [callKey, Row.get_of_get? hr, Row.get_of_get? hs]
  have hstored : rowKey (a :: b :: rest) = (a, b) := rfl
  rw [hkey, hcall, hstored]
  unfold isOtherRow
  rw [hrun, hstep, hold, holdStep]
  simp only [bind, Except.bind, pyEq_str]
  by_cases ha : a = r.toStr p
  · by_cases hb : b = s.toStr p
    · simp [ha, hb, pure, Except.pure]
    · simp [ha, hb, pure, Except.pure]
  · simp [ha, pure, Except.pure]

/-- One call is an upsert of the rendered row. -/
theorem holds_writeSummaryCsv {file : Option Text} {rows : List (List PyStr)}
    (hfile : Holds codec file rows) {row : Row} (hrow : HasKeys row) :
    ∃ file', writeSummaryCsv codec p file row = .ok file' ∧
      Holds codec file' (upsert rowKey rows (render p row)) := by
  obtain ⟨hstored, hcases⟩ := hfile
  have hkept : keptRows codec p row file = .ok ((rows.filter fun cells =>
      decide (rowKey cells ≠ rowKey (render p row))).map
        fun cells => summaryFields.zip (cells.map Json.str)) := by
    rcases hcases with ⟨rfl, rfl⟩ | rfl
    · rfl
    · rw [keptRows, codec.read_write, dictReader, Checked.keep_eq_ok_iff]
      constructor
      · intro old hold
        obtain ⟨cells, hcells, rfl⟩ := List.mem_map.mp hold
        exact ⟨_, isOtherRow_stored hrow (hstored cells hcells)⟩
      · rw [List.filter_map]
        congr 1
        apply List.filter_congr
        intro cells hcells
        rw [Function.comp_apply, Checked.Passes, isOtherRow_stored hrow (hstored cells hcells)]
  have htable : ((rows.filter fun cells =>
      decide (rowKey cells ≠ rowKey (render p row))).map
        (fun cells => summaryFields.zip (cells.map Json.str)) ++
      [summaryFields.map fun field => (field, row.getD field (.str []))]).mapM
        (dictWriterCells p summaryFields) = .ok (upsert rowKey rows (render p row)) := by
    rw [Checked.mapM_eq_ok_iff, upsert]
    refine List.rel_append ?_ (.cons (dictWriterCells_new row) .nil)
    rw [List.forall₂_map_left_iff, List.forall₂_same]
    intro cells hcells
    exact dictWriterCells_stored (hstored cells (List.mem_filter.mp hcells).1)
  refine ⟨some (codec.write (summaryFields :: upsert rowKey rows (render p row))), ?_, ?_, .inr rfl⟩
  · unfold writeSummaryCsv
    rw [hkept]
    simp only [bind, Except.bind]
    rw [htable]
    rfl
  · intro cells hcells
    rcases List.mem_append.mp hcells with hcells | hcells
    · exact hstored cells (List.mem_filter.mp hcells).1
    · rw [List.mem_singleton.mp hcells]
      exact isStored_render row

/-- Any number of calls is as many upserts. -/
theorem holds_writeCalls (codec : CsvCodec Text) {calls : List Row} (hkeys : ∀ row ∈ calls, HasKeys row) :
    ∃ file, writeCalls codec p calls = .ok file ∧
      Holds codec file ((calls.map (render p)).foldl (upsert rowKey) []) := by
  induction calls using List.reverseRecOn with
  | nil => exact ⟨none, rfl, fun _ h => absurd h List.not_mem_nil, .inl ⟨rfl, rfl⟩⟩
  | append_singleton calls row ih =>
      obtain ⟨file, hfile, hholds⟩ := ih fun r hr => hkeys r (List.mem_append_left _ hr)
      have hrow := hkeys row (List.mem_append_right _ List.mem_cons_self)
      obtain ⟨file', hfile', hholds'⟩ := holds_writeSummaryCsv hholds hrow
      refine ⟨file', ?_, ?_⟩
      · unfold writeCalls at hfile ⊢
        rw [List.foldlM_append, hfile]
        show List.foldlM (writeSummaryCsv codec p) file [row] = _
        rw [List.foldlM_cons, hfile']
        rfl
      · rw [List.map_append, List.foldl_append]
        exact hholds'

theorem lastWith_render {calls : List Row} (hkeys : ∀ row ∈ calls, HasKeys row)
    (pair : PyStr × PyStr) :
    lastWith rowKey pair (calls.map (render p)) =
      (lastWith (callKey p) pair calls).map (render p) := by
  have hrows : rowsWith rowKey pair (calls.map (render p)) =
      (rowsWith (callKey p) pair calls).map (render p) := by
    rw [rowsWith, List.filter_map, rowsWith]
    congr 1
    apply List.filter_congr
    intro row hrow
    rw [Function.comp_apply, rowKey_render (hkeys row hrow)]
  rw [lastWith, hrows, List.getLast?_map, lastWith]

end store

/-- **The summary CSV is a faithful upsert store.**  After any calls the file holds for each run
and step that were written one row, the rendering of the last call with them, and no other row;
and each call leaves the rows of every other run and step as they were. -/
theorem summaryCsv_upsert {Text : Type} (codec : CsvCodec Text) (p : Json.Printer)
    {calls : List Row} (hkeys : ∀ row ∈ calls, HasKeys row) :
    ∃ file, writeCalls codec p calls = .ok file ∧
      (∀ pair, rowsWith rowKey pair (storedRows codec file) =
        ((lastWith (callKey p) pair calls).map (render p)).toList) ∧
      ∀ done row rest, calls = done ++ row :: rest → ∃ before after,
        writeCalls codec p done = .ok before ∧ writeSummaryCsv codec p before row = .ok after ∧
        ∀ pair, pair ≠ callKey p row → rowsWith rowKey pair (storedRows codec after) =
          rowsWith rowKey pair (storedRows codec before) := by
  obtain ⟨file, hfile, hholds⟩ := holds_writeCalls codec hkeys
  refine ⟨file, hfile, ?_, ?_⟩
  · intro pair
    rw [hholds.storedRows_eq, filter_foldl_upsert, lastWith_render hkeys]
  · rintro done row rest rfl
    have hdone : ∀ r ∈ done, HasKeys r := fun r hr => hkeys r (List.mem_append_left _ hr)
    have hrow := hkeys row (List.mem_append_right _ List.mem_cons_self)
    obtain ⟨before, hbefore, hbeforeHolds⟩ := holds_writeCalls codec hdone
    obtain ⟨after, hafter, hafterHolds⟩ := holds_writeSummaryCsv hbeforeHolds hrow
    refine ⟨before, after, hbefore, hafter, ?_⟩
    intro pair hpair
    rw [hafterHolds.storedRows_eq, hbeforeHolds.storedRows_eq]
    apply filter_upsert_of_ne
    rw [rowKey_render hrow]
    exact hpair

/-- A run that is summarised twice at one step, and once at another. -/
theorem summaryCsv_upsert_twice :
    let codec : CsvCodec (List (List PyStr)) := ⟨id, id, fun _ => rfl⟩
    let p : Json.Printer := ⟨fun _ => true, fun _ => []⟩
    let row (step : ℤ) (veto : String) : Row := [(runIdField, .str "R1".toList),
      (stepField, .int step), ("selection_veto".toList, .str veto.toList)]
    ∃ file, writeCalls codec p [row 25 "", row 50 "", row 25 "format_drop"] = .ok file ∧
      rowsWith rowKey ("R1".toList, "25".toList) (storedRows codec file) =
        [render p (row 25 "format_drop")] := by
  intro codec p row
  obtain ⟨file, hfile, hrows, -⟩ := summaryCsv_upsert codec p (show
    ∀ r ∈ [row 25 "", row 50 "", row 25 "format_drop"], HasKeys r by
      intro r hr
      simp only [List.mem_cons, List.not_mem_nil, or_false] at hr
      rcases hr with rfl | rfl | rfl <;> exact ⟨⟨_, rfl, nofun⟩, ⟨_, rfl, nofun⟩⟩)
  exact ⟨file, hfile, hrows ("R1".toList, "25".toList)⟩

end ExtpiRlsd
