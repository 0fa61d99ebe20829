import ExtpiRlsd.Decontamination
import ExtpiRlsd.Lib.EarlyExit
import ExtpiRlsd.PromptAssembly

/-! # Building the SFT tables

`build_teacher_sft_parquet.py` and `build_closed_sft_parquet.py`: one conversation for every source
row that has a response, up to `max_rows`.  Both loops test the limit after a row is appended, so
both write a row under the limit zero, which `sftBuilders_account_iff` shows to be the only case in
which a returned table is not the first `max_rows` eligible rows. -/

namespace ExtpiRlsd

open PyText PyData Checked EarlyExit

/-- `messages` of a problem and its response. -/
def sftMessages (problem response : PyStr) : Json := .arr [
  .obj [("role".toList, .str "user".toList), ("content".toList, .str (studentUserTemplate problem))],
  .obj [("role".toList, .str "assistant".toList), ("content".toList, .str response)]]

/-- `reward_model` of a ground truth. -/
def ruleReward (groundTruth : Json) : Json :=
  .obj [("style".toList, .str "rule".toList), ("ground_truth".toList, groundTruth)]

/-! ### Teacher responses -/

/-- `DEFAULT_RESPONSE_FIELDS`. -/
def defaultResponseFields : List PyStr := ["closed_teacher_output".toList,
  "teacher_output".toList, "response".toList, "solution".toList, "assistant".toList]

structure TeacherSftArgs where
  problemField : PyStr := "problem".toList
  responseField : Option PyStr := none
  answerField : PyStr := "gold_answer".toList
  verifiedField : PyStr := "verified".toList
  requireVerified : Bool := false
  enableThinking : Bool := false
  dataSource : PyStr := "extpi_rlsd/offpolicy_sft".toList
  maxRows : Option ℕ := none

/-- The fields that `_pick_response` looks at. -/
def TeacherSftArgs.fields (args : TeacherSftArgs) : List PyStr :=
  match args.responseField with
  | some field => if field.isEmpty then defaultResponseFields else [field]
  | none => defaultResponseFields

/-- The value is not `None` and prints to more than whitespace. -/
def nonBlank (p : Json.Printer) : Json → Bool
  | .null => false
  | value => !(strip (value.toStr p)).isEmpty

/-- The loop of `_pick_response`. -/
def pickFrom (p : Json.Printer) (row : Row) : List PyStr → Option (PyStr × PyStr)
  | [] => none
  | field :: fields =>
      if nonBlank p (row.get field) then some ((row.get field).toStr p, field)
      else pickFrom p row fields

/-- `response_field_counts[k] += 1`. -/
def countField (k : PyStr) : List (PyStr × ℕ) → List (PyStr × ℕ)
  | [] => [(k, 1)]
  | (k', n) :: counts => if k' = k then (k', n + 1) :: counts else (k', n) :: countField k counts

structure TeacherSftState where
  rows : List Row
  responseFieldCounts : List (PyStr × ℕ)
  droppedCount : ℕ

section teacher
variable (env : TextEnv) (args : TeacherSftArgs)

/-- `bool(source_row.get(verified_field, False))`. -/
def sourceVerified (row : Row) : Bool := (row.getD args.verifiedField (.bool false)).truthy

/-- `source_row.get("id") or stable_problem_id(problem_text)`, as a text. -/
def sourceRowId (row : Row) (problemText : PyStr) : Except PyStr PyStr :=
  let id := row.get "id".toList
  if id.truthy then .ok (id.toStr env.printer) else stableProblemId env problemText

/-- The row that is written for a source row. -/
def teacherSftRow (row : Row) (response usedField : PyStr) : Except PyStr Row := do
  let problemText := (row.get args.problemField).toStr env.printer
  let rowId ← sourceRowId env row problemText
  return [
    ("messages".toList, sftMessages problemText response),
    ("enable_thinking".toList, .bool args.enableThinking),
    ("data_source".toList, .str args.dataSource),
    ("reward_model".toList, ruleReward (row.get args.answerField)),
    ("extra_info".toList, .obj [
      ("id".toList, .str rowId),
      ("problem".toList, .str problemText),
      ("response_field".toList, .str usedField),
      ("verified".toList, .bool (sourceVerified args row))])]

/-- `dropped_count += 1`. -/
def TeacherSftState.dropRow (st : TeacherSftState) : TeacherSftState :=
  { st with droppedCount := st.droppedCount + 1 }

/-- The two statements that record a row. -/
def TeacherSftState.append (st : TeacherSftState) (newRow : Row × PyStr) : TeacherSftState :=
  { st with
    rows := st.rows ++ [newRow.1]
    responseFieldCounts := countField newRow.2 st.responseFieldCounts }

/-- One round of the loop of the teacher's `build_rows`. -/
def teacherSftStep (st : TeacherSftState) (row : Row) : Except PyStr (Flow TeacherSftState) :=
  if args.requireVerified && !sourceVerified args row then .ok (.next st.dropRow)
  else match pickFrom env.printer row args.fields with
    | none => .ok (.next st.dropRow)
    | some (response, usedField) =>
        if !nonBlank env.printer (row.get args.problemField) then .ok (.next st.dropRow)
        else do
          let newRow ← teacherSftRow env args row response usedField
          let st' := st.append (newRow, usedField)
          return if args.maxRows.any (· ≤ st'.rows.length) then .stop st' else .next st'

/-- The teacher's `build_rows`, with the source rows that it did not read. -/
def teacherBuildRows (sourceRows : List Row) : Except PyStr (TeacherSftState × List Row) :=
  run (teacherSftStep env args) ⟨[], [], 0⟩ sourceRows

/-- The source row has a problem and a response, and is verified should that be required. -/
def teacherEligible (row : Row) : Bool :=
  (!args.requireVerified || sourceVerified args row) &&
    args.fields.any (fun field => nonBlank env.printer (row.get field)) &&
    nonBlank env.printer (row.get args.problemField)

/-- The written row and the field of its response, the first that is not blank. -/
def TeacherWrites (row : Row) (newRow : Row × PyStr) : Prop :=
  args.fields.find? (fun field => nonBlank env.printer (row.get field)) = some newRow.2 ∧
    teacherSftRow env args row ((row.get newRow.2).toStr env.printer) newRow.2 = .ok newRow.1

/-- The returned table and counters account for the source rows. -/
structure TeacherAccounts (sourceRows : List Row) (st : TeacherSftState) (rest : List Row) :
    Prop where
  rows : ∃ written, st.rows = written.map Prod.fst ∧ List.Forall₂ (TeacherWrites env args)
    (atMost args.maxRows (sourceRows.filter (teacherEligible env args))) written
  counts : (st.responseFieldCounts.map Prod.snd).sum = st.rows.length
  dropped : ∃ read, sourceRows = read ++ rest ∧
    st.droppedCount = read.countP (fun row => !teacherEligible env args row)

end teacher

section teacherProofs
variable {env : TextEnv} {args : TeacherSftArgs} {row : Row} {sourceRows : List Row}

theorem pickFrom_eq (p : Json.Printer) (row : Row) (fields : List PyStr) :
    pickFrom p row fields = (fields.find? fun field => nonBlank p (row.get field)).map
      fun field => ((row.get field).toStr p, field) := by
  induction fields with
  | nil => rfl
  | cons field fields ih =>
      rw [pickFrom, List.find?_cons]
      cases nonBlank p (row.get field) with
      | true => rfl
      | false => exact ih

theorem sum_countField (k : PyStr) (counts : List (PyStr × ℕ)) :
    ((countField k counts).map Prod.snd).sum = (counts.map Prod.snd).sum + 1 := by
  induction counts with
  | nil => rfl
  | cons c counts ih =>
      obtain ⟨k', n⟩ := c
      rw [countField]
      split_ifs
      · simp only [List.map_cons, List.sum_cons]
        omega
      · simp only [List.map_cons, List.sum_cons, ih]
        omega

/-- The row that is built for an eligible source row, with the field of its response. -/
def buildTeacherRow (env : TextEnv) (args : TeacherSftArgs) (row : Row) :
    Except PyStr (Row × PyStr) :=
  match pickFrom env.printer row args.fields with
  | none => .error []
  | some (response, usedField) => do
      let newRow ← teacherSftRow env args row response usedField
      return (newRow, usedField)

theorem buildTeacherRow_eq_ok_iff {newRow : Row × PyStr} :
    buildTeacherRow env args row = .ok newRow ↔ TeacherWrites env args row newRow := by
  unfold buildTeacherRow TeacherWrites
  rw [pickFrom_eq]
  cases hfind : args.fields.find? fun field => nonBlank env.printer (row.get field) with
  | none => simp
  | some field =>
      simp only [Option.map_some, Option.some.injEq]
      constructor
      · intro h
        obtain ⟨written, hrow, h⟩ := bind_eq_ok_iff.mp h
        rw [← Except.ok.inj h]
        exact ⟨rfl, hrow⟩
      · rintro ⟨rfl, hrow⟩
        rw [hrow]
        rfl

/-- An eligible row is built unless its id cannot be. -/
theorem exists_teacherWrites (heligible : teacherEligible env args row = true) :
    (∃ newRow, buildTeacherRow env args row = .ok newRow) ↔
      ∃ id, sourceRowId env row ((row.get args.problemField).toStr env.printer) = .ok id := by
  unfold teacherEligible at heligible
  rw [Bool.and_eq_true, Bool.and_eq_true, List.any_eq_true] at heligible
  obtain ⟨⟨-, field, hmem, hfield⟩, -⟩ := heligible
  have hsome : (args.fields.find? fun field => nonBlank env.printer (row.get field)).isSome :=
    List.find?_isSome.mpr ⟨field, hmem, hfield⟩
  obtain ⟨used, hused⟩ := Option.isSome_iff_exists.mp hsome
  constructor
  · rintro ⟨newRow, h⟩
    obtain ⟨-, hrow⟩ := buildTeacherRow_eq_ok_iff.mp h
    obtain ⟨id, hid, -⟩ := bind_eq_ok_iff.mp hrow
    exact ⟨id, hid⟩
  · rintro ⟨id, hid⟩
    obtain ⟨newRow, hrow⟩ : ∃ newRow, teacherSftRow env args row
        ((row.get used).toStr env.printer) used = .ok newRow :=
      ⟨_, bind_eq_ok_iff.mpr ⟨id, hid, rfl⟩⟩
    exact ⟨(newRow, used), buildTeacherRow_eq_ok_iff.mpr ⟨hused, hrow⟩⟩

theorem teacherSftStep_collects :
    Collects (teacherSftStep env args) (teacherEligible env args) (buildTeacherRow env args)
      args.maxRows (fun st => st.rows.length) TeacherSftState.dropRow TeacherSftState.append where
  skip_eq st row h := by
    unfold teacherSftStep
    by_cases hverified : (args.requireVerified && !sourceVerified args row) = true
    · rw [if_pos hverified]
    · rw [if_neg hverified, pickFrom_eq]
      cases hfind : args.fields.find? fun field => nonBlank env.printer (row.get field) with
      | none => rfl
      | some field =>
          have hany : args.fields.any (fun field => nonBlank env.printer (row.get field)) = true :=
            List.any_eq_true.mpr ⟨field, List.mem_of_find?_eq_some hfind,
              List.find?_some (p := fun field => nonBlank env.printer (row.get field)) hfind⟩
          have hpass : (!args.requireVerified || sourceVerified args row) = true := by
            revert hverified
            cases args.requireVerified <;> cases sourceVerified args row <;> simp
          rw [teacherEligible, hpass, hany, Bool.true_and, Bool.true_and] at h
          simp only [Option.map_some, h, Bool.not_false, if_true]
  keep_eq st row h := by
    unfold teacherEligible at h
    rw [Bool.and_eq_true, Bool.and_eq_true] at h
    obtain ⟨⟨hverified, hany⟩, hproblem⟩ := h
    have hpass : ¬ (args.requireVerified && !sourceVerified args row) = true := by
      revert hverified
      cases args.requireVerified <;> cases sourceVerified args row <;> simp
    unfold teacherSftStep buildTeacherRow
    rw [if_neg hpass, hproblem, pickFrom_eq]
    cases hfind : args.fields.find? fun field => nonBlank env.printer (row.get field) with
    | none =>
        obtain ⟨field, hmem, hfield⟩ := List.any_eq_true.mp hany
        exact absurd hfield (List.find?_eq_none.mp hfind field hmem)
    | some field =>
        simp only [Option.map_some, Bool.not_true, Bool.false_eq_true, if_false]
        cases teacherSftRow env args row ((row.get field).toStr env.printer) field <;> rfl
  size_skip _ := rfl
  size_keep st newRow := by
    rw [TeacherSftState.append, List.length_append, List.length_singleton]

/-- A returned table accounts for the source rows unless a row is written under the limit zero. -/
theorem teacherAccounts_iff {st : TeacherSftState} {rest : List Row}
    (h : teacherBuildRows env args sourceRows = .ok (st, rest)) :
    TeacherAccounts env args sourceRows st rest ↔
      (args.maxRows = some 0 → sourceRows.filter (teacherEligible env args) = []) := by
  have hrun := teacherSftStep_collects.run_eq_ok (fun read written (st : TeacherSftState) =>
    st.rows = written.map Prod.fst ∧
    (st.responseFieldCounts.map Prod.snd).sum = st.rows.length ∧
    st.droppedCount = read.countP fun row => !teacherEligible env args row) ?_ ?_
    ⟨rfl, rfl, rfl⟩ h
  · obtain ⟨read, written, hread, ⟨hrows, hcounts, hdropped⟩, hwritten⟩ := hrun
    have hforall : List.Forall₂ (TeacherWrites env args)
        (atMost (quota args.maxRows 0) (sourceRows.filter (teacherEligible env args))) written :=
      hwritten.imp fun _ _ hrow => buildTeacherRow_eq_ok_iff.mp hrow
    constructor
    · intro haccounts hzero
      obtain ⟨written', hrows', hwritten'⟩ := haccounts.rows
      rw [hzero, atMost_zero, List.forall₂_nil_left_iff] at hwritten'
      rw [hrows, hwritten', List.map_nil, List.map_eq_nil_iff] at hrows'
      rw [hrows', List.forall₂_nil_right_iff, hzero] at hforall
      exact eq_nil_of_atMost_quota_zero hforall
    · intro hlimit
      rw [atMost_quota_zero hlimit] at hforall
      exact ⟨⟨written, hrows, hforall⟩, hcounts, read, hread, hdropped⟩
  · rintro read written st row ⟨hrows, hcounts, hdropped⟩ hrow
    refine ⟨hrows, hcounts, ?_⟩
    rw [List.countP_append, ← hdropped, List.countP_singleton, hrow]
    rfl
  · rintro read written st row newRow ⟨hrows, hcounts, hdropped⟩ hrow -
    refine ⟨?_, ?_, ?_⟩
    · rw [TeacherSftState.append, hrows, List.map_append, List.map_singleton]
    · rw [TeacherSftState.append, sum_countField, hcounts, List.length_append,
        List.length_singleton]
    · rw [List.countP_append, ← hdropped, List.countP_singleton, hrow]
      rfl

end teacherProofs

/-! ### Closed teacher outputs -/

section closed
variable (p : Json.Printer) (maxRows : Option ℕ)

/-- `closed_teacher_model` of a row. -/
def closedTeacherModel (row : Row) : Except PyError Json :=
  match row.get "metadata".toList with
  | .obj metadata => match Row.getD "closed_teacher_generation".toList (.obj []) metadata with
    | .obj generation => .ok (Row.get "model".toList generation)
    | _ => .error .attributeError
  | _ => .ok .null

/-- The row that is written for a source row. -/
def closedSftRow (row : Row) : Except PyError Row := do
  let problem ← row.getItem "problem".toList
  let problemText := problem.toStr p
  let goldAnswer ← row.getItem "gold_answer".toList
  let id ← row.getItem "id".toList
  let model ← closedTeacherModel row
  return [
    ("messages".toList,
      sftMessages problemText ((row.get "closed_teacher_output".toList).toStr p)),
    ("enable_thinking".toList, .bool false),
    ("data_source".toList, .str "extpi_rlsd/closed_sft".toList),
    ("reward_model".toList, ruleReward goldAnswer),
    ("extra_info".toList, .obj [
      ("id".toList, id),
      ("problem".toList, .str problemText),
      ("closed_teacher_verified".toList, .bool true),
      ("closed_teacher_model".toList, model)])]

/-- One round of the loop of the closed teacher's `build_rows`. -/
def closedSftStep (rows : List Row) (row : Row) : Except PyError (Flow (List Row)) :=
  if !(row.getD "closed_teacher_verified".toList (.bool false)).truthy then .ok (.next rows)
  else if !(row.get "closed_teacher_output".toList).truthy then .ok (.next rows)
  else do
    let newRow ← closedSftRow p row
    let rows' := rows ++ [newRow]
    return if maxRows.any (· ≤ rows'.length) then .stop rows' else .next rows'

/-- The closed teacher's `build_rows`, with the source rows that it did not read. -/
def closedBuildRows (sourceRows : List Row) : Except PyError (List Row × List Row) :=
  run (closedSftStep p maxRows) [] sourceRows

/-- The source row has a verified response. -/
def closedEligible (row : Row) : Bool :=
  (row.getD "closed_teacher_verified".toList (.bool false)).truthy &&
    (row.get "closed_teacher_output".toList).truthy

/-- The row carries what the builder takes for granted. -/
def CarriesKeys (row : Row) : Prop :=
  ∀ k ∈ ["problem".toList, "gold_answer".toList, "id".toList], (Row.get? k row).isSome

/-- The returned table holds the first eligible rows. -/
def ClosedAccounts (sourceRows rows : List Row) : Prop :=
  List.Forall₂ (fun row newRow => closedSftRow p row = .ok newRow)
    (atMost maxRows (sourceRows.filter closedEligible)) rows

end closed

section closedProofs
variable {p : Json.Printer} {maxRows : Option ℕ} {row : Row} {sourceRows rows rest : List Row}

/-- A row with its keys is built unless its teacher's model cannot be looked up. -/
theorem exists_closedSftRow (h : CarriesKeys row) :
    (∃ newRow, closedSftRow p row = .ok newRow) ↔ ∃ m, closedTeacherModel row = .ok m := by
  have hitem : ∀ k ∈ ["problem".toList, "gold_answer".toList, "id".toList],
      ∃ value, row.getItem k = .ok value := by
    intro k hk
    obtain ⟨value, hvalue⟩ := Option.isSome_iff_exists.mp (h k hk)
    refine ⟨value, ?_⟩
    rw [Row.getItem, hvalue]
  obtain ⟨problem, hproblem⟩ := hitem "problem".toList (by simp)
  obtain ⟨gold, hgold⟩ := hitem "gold_answer".toList (by simp)
  obtain ⟨id, hid⟩ := hitem "id".toList (by simp)
  unfold closedSftRow
  rw [hproblem, hgold, hid]
  cases closedTeacherModel row with
  | error e =>
      constructor
      · rintro ⟨newRow, h⟩
        cases h
      · rintro ⟨m, h⟩
        cases h
  | ok m => exact ⟨fun _ => ⟨m, rfl⟩, fun _ => ⟨_, rfl⟩⟩

theorem closedSftStep_collects :
    Collects (closedSftStep p maxRows) closedEligible (closedSftRow p) maxRows List.length id
      (fun rows newRow => rows ++ [newRow]) where
  skip_eq rows row h := by
    unfold closedEligible at h
    unfold closedSftStep
    cases hverified : (row.getD "closed_teacher_verified".toList (.bool false)).truthy with
    | false => rfl
    | true =>
        rw [hverified, Bool.true_and] at h
        rw [h]
        rfl
  keep_eq rows row h := by
    unfold closedEligible at h
    rw [Bool.and_eq_true] at h
    unfold closedSftStep
    rw [h.1, h.2]
    rfl
  size_skip _ := rfl
  size_keep rows newRow := by rw [List.length_append, List.length_singleton]

/-- A returned table holds the first eligible rows unless a row is written under the limit zero. -/
theorem closedAccounts_iff (h : closedBuildRows p maxRows sourceRows = .ok (rows, rest)) :
    ClosedAccounts p maxRows sourceRows rows ↔
      (maxRows = some 0 → sourceRows.filter closedEligible = []) := by
  have hrun := closedSftStep_collects.run_eq_ok (fun _ written rows => rows = written)
    (fun _ _ _ _ h _ => h) ?_ rfl h
  · obtain ⟨read, written, -, rfl, hwritten⟩ := hrun
    constructor
    · intro haccounts hzero
      rw [ClosedAccounts, hzero, atMost_zero, List.forall₂_nil_left_iff] at haccounts
      rw [haccounts, List.forall₂_nil_right_iff, hzero] at hwritten
      exact eq_nil_of_atMost_quota_zero hwritten
    · intro hlimit
      have hquota := atMost_quota_zero hlimit
      rw [ClosedAccounts, ← hquota]
      exact hwritten
  · rintro read written rows row newRow rfl - -
    rfl

end closedProofs

/-! ### Both builders -/

/-- **The builders account for their rows**, and return, exactly when the limit is not zero or no
row is eligible, and no row to be written raises: one without an id has a text that can be
digested, one of a closed teacher has its generation, where it has one, as a dictionary. -/
theorem sftBuilders_account_iff (env : TextEnv) (args : TeacherSftArgs) (p : Json.Printer)
    (maxRows : Option ℕ) (sourceRows : List Row) :
    ((∃ st rest, teacherBuildRows env args sourceRows = .ok (st, rest) ∧
        TeacherAccounts env args sourceRows st rest) ↔
      (args.maxRows = some 0 → sourceRows.filter (teacherEligible env args) = []) ∧
        ∀ row ∈ atMost args.maxRows (sourceRows.filter (teacherEligible env args)),
          ∃ id, sourceRowId env row ((row.get args.problemField).toStr env.printer) = .ok id) ∧
    ((∀ row ∈ sourceRows, CarriesKeys row) →
      ((∃ rows rest, closedBuildRows p maxRows sourceRows = .ok (rows, rest) ∧
        ClosedAccounts p maxRows sourceRows rows) ↔
      (maxRows = some 0 → sourceRows.filter closedEligible = []) ∧
        ∀ row ∈ atMost maxRows (sourceRows.filter closedEligible),
          ∃ m, closedTeacherModel row = .ok m)) := by
  constructor
  · have hbuilt : ∀ row ∈ atMost args.maxRows (sourceRows.filter (teacherEligible env args)),
        ((∃ newRow, buildTeacherRow env args row = .ok newRow) ↔
          ∃ id, sourceRowId env row ((row.get args.problemField).toStr env.printer) = .ok id) :=
      fun row hrow => exists_teacherWrites (List.mem_filter.mp (mem_of_mem_atMost hrow)).2
    rw [← forall₂_congr hbuilt]
    refine teacherSftStep_collects.exists_accounts_iff rfl (fun _ _ => teacherAccounts_iff) ?_
    intro st rest haccounts row hrow
    obtain ⟨written, -, hwritten⟩ := haccounts.rows
    obtain ⟨newRow, -, hnew⟩ := exists_of_forall₂ hwritten hrow
    exact ⟨newRow, buildTeacherRow_eq_ok_iff.mpr hnew⟩
  · intro hkeys
    have hbuilt : ∀ row ∈ atMost maxRows (sourceRows.filter closedEligible),
        ((∃ newRow, closedSftRow p row = .ok newRow) ↔ ∃ m, closedTeacherModel row = .ok m) :=
      fun row hrow => exists_closedSftRow (hkeys row (List.mem_filter.mp (mem_of_mem_atMost hrow)).1)
    rw [← forall₂_congr hbuilt]
    refine closedSftStep_collects.exists_accounts_iff rfl (fun _ _ => closedAccounts_iff) ?_
    intro rows rest haccounts row hrow
    obtain ⟨newRow, -, hnew⟩ := exists_of_forall₂ haccounts hrow
    exact ⟨newRow, hnew⟩

/-- A digest that is the text itself, and ASCII tables. -/
def plainTextEnv : TextEnv where
  table := .ascii
  printer := ⟨fun _ => true, fun _ => []⟩
  fmt := .exact
  digest := .ok
  fuzzRatio := none

/-- A source row of both builders. -/
def sftSourceRow : Row := [("id".toList, .str "a".toList), ("problem".toList, .str "2 + 2".toList),
  ("gold_answer".toList, .str "4".toList), ("closed_teacher_verified".toList, .bool true),
  ("closed_teacher_output".toList, .str "4".toList)]

/-- Both builders write one row under the limit zero. -/
theorem sftBuilders_zero_rows :
    (∃ st rest, teacherBuildRows plainTextEnv { maxRows := some 0 } [sftSourceRow] =
        .ok (st, rest) ∧ st.rows.length = 1 ∧
      ¬ TeacherAccounts plainTextEnv { maxRows := some 0 } [sftSourceRow] st rest) ∧
    ∃ rows rest, closedBuildRows plainTextEnv.printer (some 0) [sftSourceRow] = .ok (rows, rest) ∧
      rows.length = 1 ∧ ¬ ClosedAccounts plainTextEnv.printer (some 0) [sftSourceRow] rows := by
  refine ⟨⟨_, _, rfl, rfl, fun h => ?_⟩, _, _, rfl, rfl, fun h => ?_⟩
  · obtain ⟨written, hrows, hwritten⟩ := h.rows
    rw [atMost_zero, List.forall₂_nil_left_iff] at hwritten
    rw [hwritten] at hrows
    cases hrows
  · rw [ClosedAccounts, atMost_zero, List.forall₂_nil_left_iff] at h
    cases h

theorem carriesKeys_sftSourceRow : CarriesKeys sftSourceRow := by
  unfold CarriesKeys
  decide

/-- Under the limit one both builders write the one row. -/
theorem sftBuilders_one_row :
    (∃ st rest, teacherBuildRows plainTextEnv { maxRows := some 1 } [sftSourceRow] =
        .ok (st, rest) ∧
      TeacherAccounts plainTextEnv { maxRows := some 1 } [sftSourceRow] st rest) ∧
    ∃ rows rest, closedBuildRows plainTextEnv.printer (some 1) [sftSourceRow] = .ok (rows, rest) ∧
      ClosedAccounts plainTextEnv.printer (some 1) [sftSourceRow] rows := by
  obtain ⟨hteacher, hclosed⟩ := sftBuilders_account_iff plainTextEnv { maxRows := some 1 }
    plainTextEnv.printer (some 1) [sftSourceRow]
  constructor
  · refine hteacher.mpr ⟨?_, ?_⟩
    · intro h
      cases h
    · intro row hrow
      obtain rfl := List.mem_singleton.mp (List.mem_of_mem_filter (mem_of_mem_atMost hrow))
      exact ⟨_, rfl⟩
  · refine (hclosed ?_).mpr ⟨?_, ?_⟩
    · intro row hrow
      rw [List.mem_singleton.mp hrow]
      exact carriesKeys_sftSourceRow
    · intro h
      cases h
    · intro row hrow
      obtain rfl := List.mem_singleton.mp (List.mem_of_mem_filter (mem_of_mem_atMost hrow))
      exact ⟨_, rfl⟩

end ExtpiRlsd
