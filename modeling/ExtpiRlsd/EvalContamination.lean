import ExtpiRlsd.Decontamination

/-! # The independent check

`check_eval_contamination.py`: the rows of a training file whose problem has the normal form or
the compact text of an evaluation problem.  The cleaner compares compact texts only where they are
not empty; the check compares all of them.

`evalContamination_agrees_iff` says when the check finds nothing in what the cleaner wrote. -/

namespace ExtpiRlsd

open PyText PyData

section check
variable (env : TextEnv)

/-- `str(row.get("problem", ""))`. -/
def problemText (row : Row) : PyStr := (row.getD "problem".toList (.str [])).toStr env.printer

/-- `main`, from the files read to the rows reported. -/
def checkEvalContamination (evalFiles : List (List Row)) (trainRows : List Row) : List Row :=
  let evalNorm := evalFiles.flatten.map fun row => normalizeProblem env.table (problemText env row)
  let evalCompact := evalFiles.flatten.map fun row => compactText env.table (problemText env row)
  trainRows.filter fun row =>
    evalNorm.contains (normalizeProblem env.table (problemText env row)) ||
      evalCompact.contains (compactText env.table (problemText env row))

end check

/-- The row has a problem, a string that is not empty. -/
def HasProblem (row : Row) : Prop := ∃ s, Row.get? "problem".toList row = some (.str s) ∧ s ≠ []

section agreement
variable {env : TextEnv} {args : PrepareArgs}

theorem problemText_of_hasProblem (env : TextEnv) {row : Row} (h : HasProblem row) :
    (row.get "problem".toList).truthy = true ∧
      (row.get "problem".toList).toStr env.printer = problemText env row := by
  obtain ⟨s, hs, hne⟩ := h
  rw [problemText, Row.get_of_get? hs, Row.getD_of_get? hs]
  refine ⟨?_, rfl⟩
  cases s with
  | nil => exact absurd rfl hne
  | cons c s => rfl

/-- Both programs read the same evaluation problems. -/
theorem readEvalProblems_eq {evalFiles : List (List Row)}
    (heval : ∀ file ∈ evalFiles, ∀ row ∈ file, HasProblem row) :
    readEvalProblems env evalFiles = evalFiles.flatten.map (problemText env) := by
  have hrows : ∀ row ∈ evalFiles.flatten, HasProblem row := by
    intro row hrow
    obtain ⟨file, hfile, hmem⟩ := List.mem_flatten.mp hrow
    exact heval file hfile row hmem
  have hall : (evalFiles.flatten.filter fun row => (row.get "problem".toList).truthy) =
      evalFiles.flatten :=
    List.filter_eq_self.mpr fun row hrow => (problemText_of_hasProblem env (hrows row hrow)).1
  rw [readEvalProblems, hall]
  apply List.map_congr_left
  intro row hrow
  exact (problemText_of_hasProblem env (hrows row hrow)).2

theorem problemText_toRow (n : NormalizedRow) : problemText env (n.toRow args) = n.problem := rfl

/-- The check reports a row written by the cleaner when some evaluation problem has its normal
form or its compact text. -/
theorem mem_checkEvalContamination_iff {evalFiles : List (List Row)}
    (heval : ∀ file ∈ evalFiles, ∀ row ∈ file, HasProblem row) {rows : List NormalizedRow} :
    checkEvalContamination env evalFiles (rows.map (NormalizedRow.toRow args)) ≠ [] ↔
      ∃ n ∈ rows, ∃ e ∈ readEvalProblems env evalFiles,
        normalizeProblem env.table n.problem = normalizeProblem env.table e ∨
          compactText env.table n.problem = compactText env.table e := by
  rw [readEvalProblems_eq heval, checkEvalContamination, Ne, List.filter_eq_nil_iff]
  constructor
  · intro h
    simp only [not_forall, not_not, exists_prop] at h
    obtain ⟨row, hrow, hhit⟩ := h
    obtain ⟨n, hn, rfl⟩ := List.mem_map.mp hrow
    rw [problemText_toRow, Bool.or_eq_true, List.contains_iff_mem, List.contains_iff_mem] at hhit
    rcases hhit with hhit | hhit
    · obtain ⟨e, he, heq⟩ := List.mem_map.mp hhit
      exact ⟨n, hn, _, List.mem_map_of_mem he, .inl heq.symm⟩
    · obtain ⟨e, he, heq⟩ := List.mem_map.mp hhit
      exact ⟨n, hn, _, List.mem_map_of_mem he, .inr heq.symm⟩
  · rintro ⟨n, hn, e, he, hhit⟩ hnone
    obtain ⟨row, hrow, rfl⟩ := List.mem_map.mp he
    refine hnone _ (List.mem_map_of_mem hn) ?_
    rw [problemText_toRow, Bool.or_eq_true, List.contains_iff_mem, List.contains_iff_mem]
    rcases hhit with hhit | hhit
    · exact .inl (List.mem_map.mpr ⟨row, hrow, hhit.symm⟩)
    · exact .inr (List.mem_map.mpr ⟨row, hrow, hhit.symm⟩)

/-- A problem without overlap has no evaluation problem with its normal form, and none with its
compact text unless that is empty. -/
theorem eq_nil_of_not_overlaps {problem e : PyStr} (h : overlaps env args problem e = false)
    (hhit : normalizeProblem env.table problem = normalizeProblem env.table e ∨
      compactText env.table problem = compactText env.table e) :
    compactText env.table problem = [] ∧ compactText env.table e = [] := by
  unfold overlaps at h
  simp only [Bool.or_eq_false_iff, decide_eq_false_iff_not] at h
  obtain ⟨⟨⟨hnorm, hcompact⟩, -⟩, -⟩ := h
  rcases hhit with heq | heq
  · exact absurd heq hnorm
  · rw [decide_eq_true heq, Bool.and_true] at hcompact
    have hnil : compactText env.table problem = [] := by simpa using hcompact
    exact ⟨hnil, heq.symm.trans hnil⟩

end agreement

def evalRow (problem : String) : Row := [("problem".toList, .str problem.toList)]

theorem hasProblem_evalRow {problem : String} (h : problem.toList ≠ []) :
    HasProblem (evalRow problem) := ⟨problem.toList, rfl, h⟩

end ExtpiRlsd
