import ExtpiRlsd.Lib.PyData
import ExtpiRlsd.Lib.PyWords

/-! # The math reward

`math_verify_reward.py`: the last boxed answer of a text, its comparison with the ground truth
and the score of a solution.  `math_verify` is a parameter: it compares two texts or raises, and
where it raises the comparison is one of normalised texts. -/

namespace ExtpiRlsd

open PyText PyData

/-! ### The boxed answer -/

/-- The text from the last occurrence of a pattern on: `s[s.rfind(pattern):]`. -/
def fromLast (pattern : PyStr) : PyStr → Option PyStr
  | [] => none
  | c :: s => match fromLast pattern s with
    | some rest => some rest
    | none => if pattern.isPrefixOf (c :: s) then some (c :: s) else none

/-- The text up to the brace that closes the group, behind `depth` open braces. -/
def closeBrace (depth : ℕ) : PyStr → Option PyStr
  | [] => none
  | c :: s =>
      if c = '\x7b' then (closeBrace (depth + 1) s).map (c :: ·)
      else if c = '\x7d' then
        if depth = 1 then some [] else (closeBrace (depth - 1) s).map (c :: ·)
      else (closeBrace depth s).map (c :: ·)

def boxedPattern : PyStr := "\\boxed".toList

/-- `extract_boxed_answer`. -/
def extractBoxedAnswer (text : PyStr) : Option PyStr := do
  let rest ← fromLast boxedPattern text
  match rest.dropWhile (· ≠ '\x7b') with
  | [] => none
  | _ :: group => (closeBrace 1 group).map strip

/-! ### The comparison -/

/-- What the comparison takes from outside: `math_verify`, which may raise, and the tables. -/
structure Verifier where
  /-- `verify(parse(gold), parse(predicted))`. -/
  mathVerify : Json → PyStr → Option Bool
  table : CharTable
  printer : Json.Printer

namespace Verifier
variable (v : Verifier)

/-- `_normalize_string`. -/
def normalizeString (value : PyStr) : PyStr :=
  lower v.table ((value.filter (· ≠ '$')).filter fun c => !isSpace c)

/-- `f"${s}$"`. -/
def dollars (s : PyStr) : PyStr := '$' :: s ++ ['$']

/-- `"$" in ground_truth`, unless the value has no members. -/
def hasDollar : Json → Option Bool
  | .str s => some (s.contains '$')
  | .arr xs => some (xs.any (Json.pyEq (.str ['$'])))
  | .obj fields => some (fields.any (·.1 == ['$']))
  | _ => none

/-- `math_verify` on the two texts as they are quoted, or nothing if anything raises. -/
def judged (predicted : PyStr) (groundTruth : Json) : Option Bool := do
  let predText := if predicted.contains '$' then predicted else dollars predicted
  let quoted ← hasDollar groundTruth
  let gtText := if quoted then groundTruth else .str (dollars (groundTruth.toStr v.printer))
  v.mathVerify gtText predText

/-- `verify_answer`. -/
def verifyAnswer (predicted : Option PyStr) (groundTruth : Json) : Bool :=
  match predicted with
  | none => false
  | some predicted => match v.judged predicted groundTruth with
    | some verdict => verdict
    | none => v.normalizeString predicted == v.normalizeString (groundTruth.toStr v.printer)

end Verifier

/-! ### The score -/

/-- What `compute_score` returns. -/
structure RewardScore where
  score : ℚ
  accuracy : ℚ
  format : ℚ
  boxedAnswer : PyStr

/-- `compute_score`, which reads neither the data source nor the extra info. -/
def computeScore (v : Verifier) (solutionStr : PyStr) (groundTruth : Json) : RewardScore :=
  let boxed := extractBoxedAnswer solutionStr
  let correct := v.verifyAnswer boxed (.str (groundTruth.toStr v.printer))
  let formatted := boxed.isSome
  { score := if correct then 1 else if formatted then 5 / 100 else 0
    accuracy := if correct then 1 else 0
    format := if formatted then 1 else 0
    boxedAnswer := boxed.getD [] }

end ExtpiRlsd
