import ExtpiRlsd.Lib.Checked
import ExtpiRlsd.ProblemText

/-! # Decontamination

`prepare_opsd_data.py`: source rows in one schema, without those that repeat a problem and without
those that overlap with an evaluation problem.  The loop keeps the first of the rows with one id.

What is kept is described by `mem_clean_iff` and `mem_quarantine_iff`; the partition of the rows
and its independence of their order are `prepareOpsdData_partition`. -/

namespace ExtpiRlsd

open PyText PyData

/-! ### One row in the schema -/

def problemKeys : List PyStr :=
  ["problem".toList, "question".toList, "prompt".toList, "Question".toList]

def answerKeys : List PyStr := ["gold_answer".toList, "answer".toList, "Answer".toList,
  "final_answer".toList, "target".toList]

def solutionKeys : List PyStr := ["source_solution".toList, "solution".toList,
  "COT_Reason".toList, "reasoning".toList, "reference_solution".toList]

/-- What the texts are compared with. -/
structure TextEnv where
  table : CharTable
  printer : Json.Printer
  fmt : FloatFormat
  /-- `sha256(s.encode("utf-8")).hexdigest()`, or the message of a text without encoding. -/
  digest : PyStr → Except PyStr PyStr
  /-- `rapidfuzz.fuzz.ratio`, where it is installed. -/
  fuzzRatio : Option (PyStr → PyStr → PyFloat)

structure PrepareArgs where
  revision : Json
  split : PyStr
  ngramThreshold : PyFloat
  fuzzThreshold : PyFloat

/-- A row in the schema; the fields that every row gets empty are added by `toRow`. -/
structure NormalizedRow where
  id : PyStr
  problem : PyStr
  goldAnswer : PyStr
  sourceSolution : PyStr
  originalFields : Row

section normalize
variable (env : TextEnv) (args : PrepareArgs)

/-- `_first`. -/
def firstText (row : Row) : List PyStr → Option Json
  | [] => none
  | key :: keys => match row.get key with
    | .null => firstText row keys
    | value => if (strip (value.toStr env.printer)).isEmpty then firstText row keys
      else some value

/-- `stable_problem_id`. -/
def stableProblemId (problem : PyStr) : Except PyStr PyStr :=
  env.digest (normalizeProblem env.table problem)

/-- `sorted(row)` as it is printed. -/
def sortedKeys (row : Row) : PyStr :=
  PyVal.repr env.printer.printable
    (.list (((row.map Prod.fst).mergeSort fun a b => decide (a ≤ b)).map PyVal.str))

/-- `normalize_row`, with the message of its `ValueError`. -/
def normalizeRow (row : Row) : Except PyStr NormalizedRow :=
  match firstText env row problemKeys with
  | none => .error ("Cannot find problem field in row keys=".toList ++ sortedKeys env row)
  | some problem =>
    let problemText := problem.toStr env.printer
    match firstText env row answerKeys with
    | none => .error ("Cannot find answer field for problem=".toList ++
        reprStr env.printer.printable (problemText.take 80))
    | some answer => do
        let id ← stableProblemId env problemText
        return {
          id, problem := problemText
          goldAnswer := answer.toStr env.printer
          sourceSolution := match firstText env row solutionKeys with
            | some solution => if solution.truthy then solution.toStr env.printer else []
            | none => []
          originalFields := row }

/-- The row as it is written. -/
def NormalizedRow.toRow (n : NormalizedRow) : Row := [
  ("id".toList, .str n.id),
  ("problem".toList, .str n.problem),
  ("gold_answer".toList, .str n.goldAnswer),
  ("source_solution".toList, .str n.sourceSolution),
  ("source_split".toList, .str args.split),
  ("qwen32b_pi_trace".toList, .null),
  ("qwen32b_pi_verified".toList, .bool false),
  ("qwen32b_pi_attempts".toList, .int 0),
  ("qwen8b_pi_trace".toList, .null),
  ("qwen8b_pi_verified".toList, .bool false),
  ("qwen8b_pi_attempts".toList, .int 0),
  ("closed_teacher_output".toList, .null),
  ("closed_teacher_verified".toList, .bool false),
  ("metadata".toList, .obj [("dataset_revision".toList, args.revision),
    ("original_fields".toList, .obj n.originalFields)])]

/-! ### Overlap -/

/-- One round of the loop of `is_contaminated`. -/
def overlaps (problem evalProblem : PyStr) : Bool :=
  let norm := normalizeProblem env.table problem
  let compact := compactText env.table problem
  let grams := ngramSet env.table 5 problem
  decide (norm = normalizeProblem env.table evalProblem) ||
    (!compact.isEmpty && decide (compact = compactText env.table evalProblem)) ||
    args.ngramThreshold.le (jaccard env.fmt grams (ngramSet env.table 5 evalProblem)) ||
    match env.fuzzRatio with
    | none => false
    | some ratio => args.fuzzThreshold.le (ratio norm (normalizeProblem env.table evalProblem))

/-- `is_contaminated`. -/
def isContaminated (evalProblems : List PyStr) (problem : PyStr) : Bool :=
  evalProblems.any (overlaps env args problem)

/-- The problems of the evaluation files. -/
def readEvalProblems (evalFiles : List (List Row)) : List PyStr :=
  (evalFiles.flatten.filter fun row => (row.get "problem".toList).truthy).map fun row =>
    (row.get "problem".toList).toStr env.printer

/-! ### The loop -/

structure PrepareStats where
  invalid : ℕ
  invalidMissingAnswer : ℕ
  invalidMissingProblem : ℕ
  invalidOther : ℕ
  duplicate : ℕ
  contaminationQuarantine : ℕ
  clean : ℕ

structure PrepareState where
  seen : List PyStr
  clean : List NormalizedRow
  quarantine : List NormalizedRow
  stats : PrepareStats

def PrepareState.empty : PrepareState := ⟨[], [], [], ⟨0, 0, 0, 0, 0, 0, 0⟩⟩

/-- The counts after a row that raised. -/
def PrepareStats.addInvalid (stats : PrepareStats) (message : PyStr) : PrepareStats :=
  let stats := { stats with invalid := stats.invalid + 1 }
  if contains message "answer field".toList then
    { stats with invalidMissingAnswer := stats.invalidMissingAnswer + 1 }
  else if contains message "problem field".toList then
    { stats with invalidMissingProblem := stats.invalidMissingProblem + 1 }
  else { stats with invalidOther := stats.invalidOther + 1 }

/-- One round of the loop over the source rows. -/
def prepareStep (evalProblems : List PyStr) (st : PrepareState) (source : Row) : PrepareState :=
  match normalizeRow env source with
  | .error message => { st with stats := st.stats.addInvalid message }
  | .ok normalized =>
    if normalized.id ∈ st.seen then
      { st with stats := { st.stats with duplicate := st.stats.duplicate + 1 } }
    else
      let st := { st with seen := normalized.id :: st.seen }
      if !evalProblems.isEmpty && isContaminated env args evalProblems normalized.problem then
        { st with
          quarantine := st.quarantine ++ [normalized]
          stats := { st.stats with
            contaminationQuarantine := st.stats.contaminationQuarantine + 1 } }
      else
        { st with
          clean := st.clean ++ [normalized]
          stats := { st.stats with clean := st.stats.clean + 1 } }

/-- `main`, from the rows and the evaluation problems to the rows written and the counts. -/
def prepareOpsdData (evalProblems : List PyStr) (rows : List Row) : PrepareState :=
  rows.foldl (prepareStep env args evalProblems) .empty

end normalize

/-! ### What a verdict depends on -/

section verdict
variable {env : TextEnv} {args : PrepareArgs} {evalProblems : List PyStr}

/-- Problems with one normal form get one verdict. -/
theorem isContaminated_congr {p q : PyStr}
    (h : normalizeProblem env.table p = normalizeProblem env.table q) :
    isContaminated env args evalProblems p = isContaminated env args evalProblems q := by
  have hoverlaps : overlaps env args p = overlaps env args q := by
    funext e
    unfold overlaps
    simp only [compactText_eq, ngramSet_eq, h]
  rw [isContaminated, isContaminated, hoverlaps]

theorem normalizeRow_id {row : Row} {n : NormalizedRow} (h : normalizeRow env row = .ok n) :
    stableProblemId env n.problem = .ok n.id := by
  unfold normalizeRow at h
  split at h
  · cases h
  · split at h
    · cases h
    · obtain ⟨id, hid, h⟩ := Checked.bind_eq_ok_iff.mp h
      rw [← Except.ok.inj h]
      exact hid

end verdict

/-! ### The rows that are kept -/

section kept
variable (env : TextEnv)

/-- The normalised row comes from the first of the rows with its id. -/
def FirstWithId (rows : List Row) (n : NormalizedRow) : Prop :=
  ∃ (i : ℕ) (row : Row), rows[i]? = some row ∧ normalizeRow env row = .ok n ∧
    ∀ j < i, ∀ row', rows[j]? = some row' → ∀ n', normalizeRow env row' = .ok n' → n'.id ≠ n.id

variable {env} {args : PrepareArgs} {evalProblems : List PyStr}

theorem FirstWithId.append {rows : List Row} {n : NormalizedRow} (h : FirstWithId env rows n)
    (more : List Row) : FirstWithId env (rows ++ more) n := by
  obtain ⟨i, row, hrow, hn, hfirst⟩ := h
  have hi := (List.getElem?_eq_some_iff.mp hrow).1
  refine ⟨i, row, ?_, hn, ?_⟩
  · rwa [List.getElem?_append_left hi]
  · intro j hj row' hrow'
    rw [List.getElem?_append_left (hj.trans hi)] at hrow'
    exact hfirst j hj row' hrow'

/-- Two first rows with one id are the same. -/
theorem FirstWithId.unique {rows : List Row} {n n' : NormalizedRow} (h : FirstWithId env rows n)
    (h' : FirstWithId env rows n') (hid : n.id = n'.id) : n = n' := by
  obtain ⟨i, row, hrow, hn, hfirst⟩ := h
  obtain ⟨i', row', hrow', hn', hfirst'⟩ := h'
  rcases lt_trichotomy i i' with hlt | rfl | hlt
  · exact absurd hid (hfirst' i hlt row hrow n hn)
  · rw [hrow] at hrow'
    obtain rfl := Option.some.inj hrow'
    exact Except.ok.inj (hn.symm.trans hn')
  · exact absurd hid.symm (hfirst i' hlt row' hrow' n' hn')

/-- What one round does with a row. -/
theorem prepareStep_cases (st : PrepareState) (row : Row) :
    (∃ message, normalizeRow env row = .error message ∧
      prepareStep env args evalProblems st row =
        { st with stats := st.stats.addInvalid message }) ∨
    ∃ n, normalizeRow env row = .ok n ∧
      ((n.id ∈ st.seen ∧ prepareStep env args evalProblems st row =
          { st with stats := { st.stats with duplicate := st.stats.duplicate + 1 } }) ∨
        (n.id ∉ st.seen ∧ isContaminated env args evalProblems n.problem = true ∧
          prepareStep env args evalProblems st row =
            { seen := n.id :: st.seen, clean := st.clean, quarantine := st.quarantine ++ [n]
              stats := { st.stats with
                contaminationQuarantine := st.stats.contaminationQuarantine + 1 } }) ∨
        (n.id ∉ st.seen ∧ isContaminated env args evalProblems n.problem = false ∧
          prepareStep env args evalProblems st row =
            { seen := n.id :: st.seen, clean := st.clean ++ [n], quarantine := st.quarantine
              stats := { st.stats with clean := st.stats.clean + 1 } })) := by
  unfold prepareStep
  cases hn : normalizeRow env row with
  | error message => exact .inl ⟨message, rfl, rfl⟩
  | ok n =>
      refine .inr ⟨n, rfl, ?_⟩
      by_cases hseen : n.id ∈ st.seen
      · exact .inl ⟨hseen, by simp [hseen]⟩
      · right
        have hguard : (!evalProblems.isEmpty && isContaminated env args evalProblems n.problem) =
            isContaminated env args evalProblems n.problem := by
          cases evalProblems with
          | nil => rfl
          | cons e es => rfl
        simp only [hseen, if_false, hguard]
        cases hbad : isContaminated env args evalProblems n.problem with
        | true => exact .inl ⟨not_false, rfl, rfl⟩
        | false => exact .inr ⟨not_false, rfl, rfl⟩

/-- After some rows: one row is kept for each id among them, the first, in the list of its
verdict. -/
structure KeptOf (env : TextEnv) (args : PrepareArgs) (evalProblems : List PyStr)
    (done : List Row) (st : PrepareState) : Prop where
  seen_iff : ∀ d, d ∈ st.seen ↔ ∃ n ∈ st.clean ++ st.quarantine, n.id = d
  seen_done : ∀ row ∈ done, ∀ n, normalizeRow env row = .ok n → n.id ∈ st.seen
  nodup : ((st.clean ++ st.quarantine).map NormalizedRow.id).Nodup
  first : ∀ n ∈ st.clean ++ st.quarantine, FirstWithId env done n
  clean : ∀ n ∈ st.clean, isContaminated env args evalProblems n.problem = false
  quarantine : ∀ n ∈ st.quarantine, isContaminated env args evalProblems n.problem = true

/-- A row with a new id is the first with it. -/
theorem KeptOf.firstWithId_new {done : List Row} {st : PrepareState}
    (h : KeptOf env args evalProblems done st) {row : Row} {n : NormalizedRow}
    (hn : normalizeRow env row = .ok n) (hnew : n.id ∉ st.seen) :
    FirstWithId env (done ++ [row]) n := by
  refine ⟨done.length, row, List.getElem?_concat_length, hn, ?_⟩
  intro j hj row' hrow' n' hn' heq
  rw [List.getElem?_append_left hj] at hrow'
  have hseen := h.seen_done row' (List.mem_of_getElem? hrow') n' hn'
  rw [heq] at hseen
  exact hnew hseen

theorem seen_append {done : List Row} {row : Row} {seen : List PyStr}
    (hold : ∀ row' ∈ done, ∀ n, normalizeRow env row' = .ok n → n.id ∈ seen)
    (hnew : ∀ n, normalizeRow env row = .ok n → n.id ∈ seen) :
    ∀ row' ∈ done ++ [row], ∀ n, normalizeRow env row' = .ok n → n.id ∈ seen := by
  intro row' hrow' n hn
  rcases List.mem_append.mp hrow' with hrow' | hrow'
  · exact hold row' hrow' n hn
  · rw [List.mem_singleton.mp hrow'] at hn
    exact hnew n hn

/-- A row with a new id is added to the list of its verdict. -/
theorem KeptOf.add {done : List Row} {st st' : PrepareState}
    (h : KeptOf env args evalProblems done st) {row : Row} {n : NormalizedRow}
    (hn : normalizeRow env row = .ok n) (hnew : n.id ∉ st.seen)
    (hseen : st'.seen = n.id :: st.seen)
    (hperm : (st'.clean ++ st'.quarantine).Perm (n :: (st.clean ++ st.quarantine)))
    (hclean : ∀ m ∈ st'.clean, isContaminated env args evalProblems m.problem = false)
    (hquarantine : ∀ m ∈ st'.quarantine, isContaminated env args evalProblems m.problem = true) :
    KeptOf env args evalProblems (done ++ [row]) st' := by
  have hmem : ∀ m, m ∈ st'.clean ++ st'.quarantine ↔ m = n ∨ m ∈ st.clean ++ st.quarantine := by
    intro m
    rw [hperm.mem_iff, List.mem_cons]
  refine ⟨?_, ?_, ?_, ?_, hclean, hquarantine⟩
  · intro d
    rw [hseen, List.mem_cons, h.seen_iff]
    constructor
    · rintro (rfl | ⟨m, hm, hd⟩)
      · exact ⟨n, (hmem n).mpr (.inl rfl), rfl⟩
      · exact ⟨m, (hmem m).mpr (.inr hm), hd⟩
    · rintro ⟨m, hm, hd⟩
      rcases (hmem m).mp hm with rfl | hm
      · exact .inl hd.symm
      · exact .inr ⟨m, hm, hd⟩
  · rw [hseen]
    refine seen_append ?_ ?_
    · intro row' hrow' m hm
      exact List.mem_cons_of_mem _ (h.seen_done row' hrow' m hm)
    · intro m hm
      rw [← Except.ok.inj (hn.symm.trans hm)]
      exact List.mem_cons_self
  · rw [(hperm.map NormalizedRow.id).nodup_iff, List.map_cons, List.nodup_cons]
    refine ⟨?_, h.nodup⟩
    intro hid
    exact hnew ((h.seen_iff _).mpr (List.mem_map.mp hid))
  · intro m hm
    rcases (hmem m).mp hm with rfl | hm
    · exact h.firstWithId_new hn hnew
    · exact (h.first m hm).append [row]

theorem keptOf_step {done : List Row} {st : PrepareState}
    (h : KeptOf env args evalProblems done st) (row : Row) :
    KeptOf env args evalProblems (done ++ [row]) (prepareStep env args evalProblems st row) := by
  have hfirst : ∀ n ∈ st.clean ++ st.quarantine, FirstWithId env (done ++ [row]) n :=
    fun n hn => (h.first n hn).append [row]
  rcases @prepareStep_cases env args evalProblems st row with
    ⟨message, hn, hst⟩ | ⟨n, hn, ⟨hseen, hst⟩ | ⟨hnew, hbad, hst⟩ | ⟨hnew, hgood, hst⟩⟩
  · rw [hst]
    refine ⟨h.seen_iff, seen_append h.seen_done ?_, h.nodup, hfirst, h.clean, h.quarantine⟩
    intro n hok
    rw [hn] at hok
    cases hok
  · rw [hst]
    refine ⟨h.seen_iff, seen_append h.seen_done ?_, h.nodup, hfirst, h.clean, h.quarantine⟩
    intro n' hok
    rw [hn] at hok
    rw [← Except.ok.inj hok]
    exact hseen
  · rw [hst]
    refine h.add hn hnew rfl ?_ h.clean ?_
    · rw [← List.append_assoc]
      exact List.perm_append_singleton n _
    · intro m hm
      rcases List.mem_append.mp hm with hm | hm
      · exact h.quarantine m hm
      · rw [List.mem_singleton.mp hm]
        exact hbad
  · rw [hst]
    refine h.add hn hnew rfl ?_ ?_ h.quarantine
    · rw [List.append_assoc]
      exact List.perm_middle
    · intro m hm
      rcases List.mem_append.mp hm with hm | hm
      · exact h.clean m hm
      · rw [List.mem_singleton.mp hm]
        exact hgood

theorem keptOf_prepareOpsdData (rows : List Row) :
    KeptOf env args evalProblems rows (prepareOpsdData env args evalProblems rows) := by
  unfold prepareOpsdData
  induction rows using List.reverseRecOn with
  | nil =>
      refine ⟨?_, fun _ h => absurd h List.not_mem_nil, .nil, ?_, ?_, ?_⟩
      · intro d
        simp [PrepareState.empty]
      · exact fun _ h => absurd h List.not_mem_nil
      · exact fun _ h => absurd h List.not_mem_nil
      · exact fun _ h => absurd h List.not_mem_nil
  | append_singleton rows row ih =>
      rw [List.foldl_append, List.foldl_cons, List.foldl_nil]
      exact keptOf_step ih row

/-- Every normalised row has a kept one with its id. -/
theorem KeptOf.exists_kept {done : List Row} {st : PrepareState}
    (h : KeptOf env args evalProblems done st) {row : Row} (hrow : row ∈ done)
    {n : NormalizedRow} (hn : normalizeRow env row = .ok n) :
    ∃ m ∈ st.clean ++ st.quarantine, m.id = n.id :=
  (h.seen_iff n.id).mp (h.seen_done row hrow n hn)

theorem FirstWithId.exists_row {rows : List Row} {n : NormalizedRow} (h : FirstWithId env rows n) :
    ∃ row ∈ rows, normalizeRow env row = .ok n := by
  obtain ⟨i, row, hrow, hn, -⟩ := h
  exact ⟨row, List.mem_of_getElem? hrow, hn⟩

/-- The clean rows are the first rows with their ids that overlap with no evaluation problem. -/
theorem mem_clean_iff {rows : List Row} {n : NormalizedRow} :
    n ∈ (prepareOpsdData env args evalProblems rows).clean ↔
      FirstWithId env rows n ∧ isContaminated env args evalProblems n.problem = false := by
  have h := @keptOf_prepareOpsdData env args evalProblems rows
  constructor
  · intro hn
    exact ⟨h.first n (List.mem_append_left _ hn), h.clean n hn⟩
  · rintro ⟨hfirst, hgood⟩
    obtain ⟨row, hrow, hok⟩ := hfirst.exists_row
    obtain ⟨m, hm, hid⟩ := h.exists_kept hrow hok
    obtain rfl := (h.first m hm).unique hfirst hid
    rcases List.mem_append.mp hm with hm | hm
    · exact hm
    · rw [h.quarantine m hm] at hgood
      cases hgood

end kept

/-! ### The partition of the source rows -/

/-- Where a source row goes. -/
inductive Placement where
  | invalid
  | duplicate
  | quarantine
  | clean
deriving DecidableEq

/-- The rows with one placement. -/
def rowsPlaced (k : Placement) (rows : List Row) (placed : List Placement) : List Row :=
  ((rows.zip placed).filter fun p => decide (p.2 = k)).map Prod.fst

/-- The placements of the rows, one for each, are what the lists and the counts say. -/
structure PartitionOf (env : TextEnv) (rows : List Row) (placed : List Placement)
    (st : PrepareState) : Prop where
  length : placed.length = rows.length
  invalid : ∀ p ∈ rows.zip placed, p.2 = .invalid ↔ ∃ message, normalizeRow env p.1 = .error message
  duplicate : ∀ p ∈ rows.zip placed, p.2 = .duplicate →
    ∃ n, normalizeRow env p.1 = .ok n ∧ ∃ m ∈ st.clean ++ st.quarantine, m.id = n.id
  clean : List.Forall₂ (fun row n => normalizeRow env row = .ok n)
    (rowsPlaced .clean rows placed) st.clean
  quarantine : List.Forall₂ (fun row n => normalizeRow env row = .ok n)
    (rowsPlaced .quarantine rows placed) st.quarantine
  count_invalid : st.stats.invalid = placed.count .invalid
  count_duplicate : st.stats.duplicate = placed.count .duplicate
  count_quarantine : st.stats.contaminationQuarantine = placed.count .quarantine
  count_clean : st.stats.clean = placed.count .clean

section partition
variable {env : TextEnv} {args : PrepareArgs} {evalProblems : List PyStr}

theorem rowsPlaced_append {k k' : Placement} {rows : List Row} {placed : List Placement}
    (h : placed.length = rows.length) (row : Row) :
    rowsPlaced k (rows ++ [row]) (placed ++ [k']) =
      rowsPlaced k rows placed ++ if k' = k then [row] else [] := by
  unfold rowsPlaced
  rw [List.zip_append h.symm, List.filter_append, List.map_append]
  congr 1
  by_cases hk : k' = k
  · simp [hk]
  · simp [hk]

/-- One more row is placed. -/
theorem PartitionOf.add {rows : List Row} {placed : List Placement} {st st' : PrepareState}
    (h : PartitionOf env rows placed st) {row : Row} {k : Placement}
    (hinvalid : k = .invalid ↔ ∃ message, normalizeRow env row = .error message)
    (hduplicate : k = .duplicate →
      ∃ n, normalizeRow env row = .ok n ∧ ∃ m ∈ st'.clean ++ st'.quarantine, m.id = n.id)
    {newClean newQuarantine : List NormalizedRow}
    (hclean : st'.clean = st.clean ++ newClean)
    (hquarantine : st'.quarantine = st.quarantine ++ newQuarantine)
    (hnewClean : List.Forall₂ (fun row n => normalizeRow env row = .ok n)
      (if k = .clean then [row] else []) newClean)
    (hnewQuarantine : List.Forall₂ (fun row n => normalizeRow env row = .ok n)
      (if k = .quarantine then [row] else []) newQuarantine)
    (hstats : st'.stats.invalid = st.stats.invalid + [k].count .invalid ∧
      st'.stats.duplicate = st.stats.duplicate + [k].count .duplicate ∧
      st'.stats.contaminationQuarantine =
        st.stats.contaminationQuarantine + [k].count .quarantine ∧
      st'.stats.clean = st.stats.clean + [k].count .clean) :
    PartitionOf env (rows ++ [row]) (placed ++ [k]) st' := by
  have hzip : (rows ++ [row]).zip (placed ++ [k]) = rows.zip placed ++ [(row, k)] :=
    List.zip_append h.length.symm
  have hkept : ∀ m ∈ st.clean ++ st.quarantine, m ∈ st'.clean ++ st'.quarantine := by
    intro m hm
    rw [hclean, hquarantine]
    rcases List.mem_append.mp hm with hm | hm
    · exact List.mem_append_left _ (List.mem_append_left _ hm)
    · exact List.mem_append_right _ (List.mem_append_left _ hm)
  obtain ⟨hinv, hdup, hquar, hcl⟩ := hstats
  constructor
  · rw [List.length_append, List.length_append, h.length]
    rfl
  · rw [hzip]
    intro p hp
    rcases List.mem_append.mp hp with hp | hp
    · exact h.invalid p hp
    · rw [List.mem_singleton.mp hp]
      exact hinvalid
  · rw [hzip]
    intro p hp hk
    rcases List.mem_append.mp hp with hp | hp
    · obtain ⟨n, hn, m, hm, hid⟩ := h.duplicate p hp hk
      exact ⟨n, hn, m, hkept m hm, hid⟩
    · rw [List.mem_singleton.mp hp] at hk ⊢
      exact hduplicate hk
  · rw [rowsPlaced_append h.length, hclean]
    exact List.rel_append h.clean hnewClean
  · rw [rowsPlaced_append h.length, hquarantine]
    exact List.rel_append h.quarantine hnewQuarantine
  · rw [hinv, h.count_invalid, List.count_append]
  · rw [hdup, h.count_duplicate, List.count_append]
  · rw [hquar, h.count_quarantine, List.count_append]
  · rw [hcl, h.count_clean, List.count_append]

theorem addInvalid_counts (stats : PrepareStats) (message : PyStr) :
    (stats.addInvalid message).invalid = stats.invalid + 1 ∧
      (stats.addInvalid message).duplicate = stats.duplicate ∧
      (stats.addInvalid message).contaminationQuarantine = stats.contaminationQuarantine ∧
      (stats.addInvalid message).clean = stats.clean := by
  unfold PrepareStats.addInvalid
  dsimp only
  split
  · exact ⟨rfl, rfl, rfl, rfl⟩
  · split <;> exact ⟨rfl, rfl, rfl, rfl⟩

theorem not_error_of_ok {row : Row} {n : NormalizedRow} (hn : normalizeRow env row = .ok n) :
    ¬ ∃ message, normalizeRow env row = .error message := by
  rintro ⟨message, herror⟩
  rw [hn] at herror
  cases herror

theorem exists_partitionOf_step {rows : List Row} {placed : List Placement} {st : PrepareState}
    (hkept : KeptOf env args evalProblems rows st) (h : PartitionOf env rows placed st)
    (row : Row) : ∃ k, PartitionOf env (rows ++ [row]) (placed ++ [k])
      (prepareStep env args evalProblems st row) := by
  rcases @prepareStep_cases env args evalProblems st row with
    ⟨message, hn, hst⟩ | ⟨n, hn, ⟨hseen, hst⟩ | ⟨-, -, hst⟩ | ⟨-, -, hst⟩⟩
  · have hcounts := addInvalid_counts st.stats message
    rw [hst]
    refine ⟨.invalid, h.add ⟨fun _ => ⟨message, hn⟩, fun _ => rfl⟩ nofun
      (List.append_nil _).symm (List.append_nil _).symm .nil .nil hcounts⟩
  · rw [hst]
    exact ⟨.duplicate, h.add ⟨nofun, fun herror => absurd herror (not_error_of_ok hn)⟩
      (fun _ => ⟨n, hn, (hkept.seen_iff n.id).mp hseen⟩)
      (List.append_nil _).symm (List.append_nil _).symm .nil .nil ⟨rfl, rfl, rfl, rfl⟩⟩
  · rw [hst]
    exact ⟨.quarantine, h.add ⟨nofun, fun herror => absurd herror (not_error_of_ok hn)⟩ nofun
      (List.append_nil _).symm rfl .nil (.cons hn .nil) ⟨rfl, rfl, rfl, rfl⟩⟩
  · rw [hst]
    exact ⟨.clean, h.add ⟨nofun, fun herror => absurd herror (not_error_of_ok hn)⟩ nofun
      rfl (List.append_nil _).symm (.cons hn .nil) .nil ⟨rfl, rfl, rfl, rfl⟩⟩

theorem exists_partitionOf (rows : List Row) :
    ∃ placed, PartitionOf env rows placed (prepareOpsdData env args evalProblems rows) := by
  induction rows using List.reverseRecOn with
  | nil => exact ⟨[], rfl, fun _ h => absurd h List.not_mem_nil,
      fun _ h => absurd h List.not_mem_nil, .nil, .nil, rfl, rfl, rfl, rfl⟩
  | append_singleton rows row ih =>
      obtain ⟨placed, hplaced⟩ := ih
      obtain ⟨k, hk⟩ := exists_partitionOf_step
        (@keptOf_prepareOpsdData env args evalProblems rows) hplaced row
      refine ⟨placed ++ [k], ?_⟩
      unfold prepareOpsdData at hk ⊢
      rw [List.foldl_append]
      exact hk

theorem count_placements (placed : List Placement) :
    placed.count .invalid + placed.count .duplicate + placed.count .quarantine +
      placed.count .clean = placed.length := by
  induction placed with
  | nil => rfl
  | cons k placed ih =>
      simp only [List.count_cons, List.length_cons]
      cases k <;> simp <;> omega

end partition

/-! ### The order of the rows -/

/-- No two texts have one digest. -/
def DigestInjective (env : TextEnv) : Prop :=
  ∀ x y d, env.digest x = .ok d → env.digest y = .ok d → x = y

section order
variable {env : TextEnv} {args : PrepareArgs} {evalProblems : List PyStr}

/-- Rows with one id get one verdict. -/
theorem isContaminated_of_id (hdigest : DigestInjective env) {row row' : Row}
    {n n' : NormalizedRow} (hn : normalizeRow env row = .ok n)
    (hn' : normalizeRow env row' = .ok n') (hid : n.id = n'.id) :
    isContaminated env args evalProblems n.problem =
      isContaminated env args evalProblems n'.problem := by
  have h := normalizeRow_id hn
  have h' := normalizeRow_id hn'
  rw [hid] at h
  exact isContaminated_congr (hdigest _ _ _ h h')

/-- The ids of the rows with a verdict, whatever their order. -/
theorem mem_ids_iff (hdigest : DigestInjective env) {rows : List Row} {d : PyStr} :
    (d ∈ (prepareOpsdData env args evalProblems rows).clean.map NormalizedRow.id ↔
      ∃ row ∈ rows, ∃ n, normalizeRow env row = .ok n ∧ n.id = d ∧
        isContaminated env args evalProblems n.problem = false) ∧
    (d ∈ (prepareOpsdData env args evalProblems rows).quarantine.map NormalizedRow.id ↔
      ∃ row ∈ rows, ∃ n, normalizeRow env row = .ok n ∧ n.id = d ∧
        isContaminated env args evalProblems n.problem = true) := by
  have h := @keptOf_prepareOpsdData env args evalProblems rows
  -- The kept row with the id of a given row has its verdict.
  have hkept : ∀ row ∈ rows, ∀ n, normalizeRow env row = .ok n → ∃ m, m.id = n.id ∧
      m ∈ (prepareOpsdData env args evalProblems rows).clean ++
        (prepareOpsdData env args evalProblems rows).quarantine ∧
      isContaminated env args evalProblems m.problem =
        isContaminated env args evalProblems n.problem := by
    intro row hrow n hn
    obtain ⟨m, hm, hid⟩ := h.exists_kept hrow hn
    obtain ⟨row', -, hok⟩ := (h.first m hm).exists_row
    exact ⟨m, hid, hm, isContaminated_of_id hdigest hok hn hid⟩
  constructor
  · constructor
    · intro hd
      obtain ⟨m, hm, rfl⟩ := List.mem_map.mp hd
      obtain ⟨row, hrow, hok⟩ := (h.first m (List.mem_append_left _ hm)).exists_row
      exact ⟨row, hrow, m, hok, rfl, h.clean m hm⟩
    · rintro ⟨row, hrow, n, hn, rfl, hgood⟩
      obtain ⟨m, hid, hm, hverdict⟩ := hkept row hrow n hn
      rw [hgood] at hverdict
      rcases List.mem_append.mp hm with hm | hm
      · exact List.mem_map.mpr ⟨m, hm, hid⟩
      · rw [h.quarantine m hm] at hverdict
        cases hverdict
  · constructor
    · intro hd
      obtain ⟨m, hm, rfl⟩ := List.mem_map.mp hd
      obtain ⟨row, hrow, hok⟩ := (h.first m (List.mem_append_right _ hm)).exists_row
      exact ⟨row, hrow, m, hok, rfl, h.quarantine m hm⟩
    · rintro ⟨row, hrow, n, hn, rfl, hbad⟩
      obtain ⟨m, hid, hm, hverdict⟩ := hkept row hrow n hn
      rw [hbad] at hverdict
      rcases List.mem_append.mp hm with hm | hm
      · rw [h.clean m hm] at hverdict
        cases hverdict
      · exact List.mem_map.mpr ⟨m, hm, hid⟩

end order

/-- What decontamination promises of its output. -/
structure Decontaminated (env : TextEnv) (args : PrepareArgs) (evalProblems : List PyStr)
    (rows : List Row) (out : PrepareState) : Prop where
  partition : ∃ placed, PartitionOf env rows placed out
  total : out.stats.invalid + out.stats.duplicate + out.stats.contaminationQuarantine +
    out.stats.clean = rows.length
  distinct : ((out.clean ++ out.quarantine).map NormalizedRow.id).Nodup
  clean : ∀ n ∈ out.clean, isContaminated env args evalProblems n.problem = false
  quarantine : ∀ n ∈ out.quarantine, isContaminated env args evalProblems n.problem = true
  verdict : ∀ p q, normalizeProblem env.table p = normalizeProblem env.table q →
    isContaminated env args evalProblems p = isContaminated env args evalProblems q
  order : ∀ rows', rows.Perm rows' → ∀ d,
    (d ∈ out.clean.map NormalizedRow.id ↔
      d ∈ (prepareOpsdData env args evalProblems rows').clean.map NormalizedRow.id) ∧
    (d ∈ out.quarantine.map NormalizedRow.id ↔
      d ∈ (prepareOpsdData env args evalProblems rows').quarantine.map NormalizedRow.id)

/-- **Decontamination partitions the source and does not depend on the order of its rows.** -/
theorem prepareOpsdData_partition {env : TextEnv} (hdigest : DigestInjective env)
    (args : PrepareArgs) (evalProblems : List PyStr) (rows : List Row) :
    Decontaminated env args evalProblems rows (prepareOpsdData env args evalProblems rows) := by
  obtain ⟨placed, hplaced⟩ := @exists_partitionOf env args evalProblems rows
  have hkept := @keptOf_prepareOpsdData env args evalProblems rows
  refine ⟨⟨placed, hplaced⟩, ?_, hkept.nodup, hkept.clean, hkept.quarantine,
    fun p q => isContaminated_congr, ?_⟩
  · rw [hplaced.count_invalid, hplaced.count_duplicate, hplaced.count_quarantine,
      hplaced.count_clean, count_placements, hplaced.length]
  · intro rows' hperm d
    obtain ⟨hclean, hquarantine⟩ := @mem_ids_iff env args evalProblems hdigest rows d
    obtain ⟨hclean', hquarantine'⟩ := @mem_ids_iff env args evalProblems hdigest rows' d
    constructor
    · rw [hclean, hclean']
      exact exists_congr fun row => and_congr_left fun _ => hperm.mem_iff
    · rw [hquarantine, hquarantine']
      exact exists_congr fun row => and_congr_left fun _ => hperm.mem_iff

/-- ASCII texts that are their own digests, without `rapidfuzz`. -/
def asciiEnv : TextEnv where
  table := .ascii
  printer := ⟨fun _ => true, fun _ => []⟩
  fmt := .exact
  digest := .ok
  fuzzRatio := none

/-- Only equal n-gram sets overlap. -/
def strictArgs : PrepareArgs := ⟨.null, "train".toList, .fin 1, .fin 95⟩

def sourceRow (problem answer : String) : Row :=
  [("problem".toList, .str problem.toList), ("answer".toList, .str answer.toList)]

/-- A row, the same problem spelled otherwise, and a row without an answer. -/
theorem prepareOpsdData_partition_three :
    let rows := [sourceRow "What is 1+1?" "2", sourceRow " what  IS 1+1? " "2", sourceRow "Why?" ""]
    let evalProblems := ["what is 2+2?".toList]
    Decontaminated asciiEnv strictArgs evalProblems rows
      (prepareOpsdData asciiEnv strictArgs evalProblems rows) := by
  intro rows evalProblems
  refine prepareOpsdData_partition ?_ strictArgs evalProblems rows
  intro x y d hx hy
  exact (Except.ok.inj hx).trans (Except.ok.inj hy).symm

end ExtpiRlsd
