import ExtpiRlsd.Lib.PyData
import ExtpiRlsd.Lib.PyWords

/-! # Texts of problems

`common.py`: the normal form of a problem, its id, and the three other views that the overlap
tests take: the compact text, the n-grams of its words and their Jaccard index.  The compact text
and the n-grams are functions of the normal form (`compactText_eq`, `ngramSet_eq`), so two
problems with one normal form look alike to every test. -/

namespace ExtpiRlsd

open PyText PyData

section texts
variable (t : CharTable)

/-- `normalize_problem`. -/
def normalizeProblem (text : PyStr) : PyStr := collapseSpaces (lower t (strip text))

/-- A character outside the pattern `[\W_]`. -/
def isCompact (c : Char) : Bool := isWord t c && c != '_'

/-- `compact_text`. -/
def compactText (text : PyStr) : PyStr := (lower t text).filter (isCompact t)

/-- The joined windows of `n` tokens, or the tokens where there are fewer. -/
def windows (n : ℕ) (tokens : List PyStr) : List PyStr :=
  if tokens.length < n then tokens
  else (List.range (tokens.length - n + 1)).map fun i => join [' '] ((tokens.drop i).take n)

/-- `ngram_set`. -/
def ngramSet (n : ℕ) (text : PyStr) : Finset PyStr := (windows n (words t (lower t text))).toFinset

/-- `jaccard`. -/
def jaccard (fmt : FloatFormat) (left right : Finset PyStr) : PyFloat :=
  if left = ∅ ∧ right = ∅ then .fin 1
  else if left = ∅ ∨ right = ∅ then .fin 0
  else fmt.round ((left ∩ right).card / (left ∪ right).card)

end texts

/-! ### Functions of the normal form -/

section normalForm
variable {t : CharTable}

theorem isCompact_space (c : Char) (hc : isSpace c = true) : isCompact t c = false := by
  rw [isCompact, isWord_space hc, Bool.false_and]

theorem compactText_eq (text : PyStr) :
    compactText t text = (normalizeProblem t text).filter (isCompact t) := by
  obtain ⟨w, w', hw, hw', htext⟩ := lower_strip (t := t) text
  rw [compactText, htext, List.filter_append, List.filter_append,
    filter_allSpace isCompact_space hw, filter_allSpace isCompact_space hw', normalizeProblem,
    collapseSpaces, filter_collapseFrom isCompact_space]
  simp

theorem words_normalizeProblem (text : PyStr) :
    words t (lower t text) = words t (normalizeProblem t text) := by
  obtain ⟨w, w', hw, hw', htext⟩ := lower_strip (t := t) text
  have hback : words t (lower t (strip text) ++ w') = words t (lower t (strip text)) :=
    wordsFrom_append_space hw' [] _
  rw [htext, words_space_append hw, hback, normalizeProblem, words_collapseSpaces]

theorem ngramSet_eq (n : ℕ) (text : PyStr) :
    ngramSet t n text = (windows n (words t (normalizeProblem t text))).toFinset := by
  rw [ngramSet, words_normalizeProblem]

end normalForm

end ExtpiRlsd
