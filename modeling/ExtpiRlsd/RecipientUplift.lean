import ExtpiRlsd.Frontier
import ExtpiRlsd.MathReward

/-! # Recipient uplift

`compute_recipient_uplift.py`: the success rates of the student with and without the trace, from
its completions, and the counts of the rows that are eligible for the frontier.  A row with too
few or too many completions is marked incomplete and keeps the rates that it came with.

The counts repeat the rule of `eligibleFrontier` on the fresh rates.  `uplift_agrees_iff` says
when they are the numbers of rows that `eligibleFrontier` accepts: when it accepts none of the
incomplete rows as they came. -/

namespace ExtpiRlsd

open PyText PyData

/-! ### Completions -/

def textKeys : List PyStr := ["completion".toList, "response".toList, "solution_str".toList,
  "text".toList, "output".toList]

def sampleIdKeys : List PyStr := ["id".toList, "problem_id".toList, "sample_id".toList]

/-- The value of the first key whose value is not `None`. -/
def firstPresent (row : Row) : List PyStr → Option Json
  | [] => none
  | k :: ks => match row.get k with
    | .null => firstPresent row ks
    | v => some v

section completions
variable (v : Verifier)

/-- `_sample_id`. -/
def sampleId (row : Row) : Except PyError PyStr :=
  match firstPresent row sampleIdKeys with
  | some id => .ok (id.toStr v.printer)
  | none => match row.get "extra_info".toList with
    | .obj extra => match firstPresent extra sampleIdKeys with
      | some id => .ok (id.toStr v.printer)
      | none => .error .valueError
    | _ => .error .valueError

/-- `_completion_text`. -/
def completionText (row : Row) : Except PyError PyStr :=
  match firstPresent row textKeys with
  | some text => .ok (text.toStr v.printer)
  | none => .error .valueError

/-- `_is_truncated`. -/
def isTruncatedCompletion (row : Row) : Bool :=
  let finishReason := lower v.table ((row.getD "finish_reason".toList (.str [])).toStr v.printer)
  (row.getD "truncated".toList (row.getD "completion_truncated".toList (.bool false))).truthy ||
    ["length".toList, "max_tokens".toList].contains finishReason

/-- `_group_completions`: the completions under their ids. -/
def groupCompletions (rows : List Row) : Except PyError (List (PyStr × Row)) :=
  rows.mapM fun row => do
    let id ← sampleId v row
    return (id, row)

/-- `grouped.get(sample_id, [])`. -/
def samplesOf (id : PyStr) (grouped : List (PyStr × Row)) : List Row :=
  (grouped.filter (·.1 == id)).map (·.2)

/-- What `_correct_count` returns. -/
structure CorrectCount where
  correct : ℕ
  truncated : ℕ

/-- `_correct_count`. -/
def correctCount (goldAnswer : PyStr) : List Row → Except PyError CorrectCount
  | [] => .ok ⟨0, 0⟩
  | sample :: samples => do
      let text ← completionText v sample
      let rest ← correctCount goldAnswer samples
      let correct := v.verifyAnswer (extractBoxedAnswer text) (.str goldAnswer)
      return ⟨correct.toNat + rest.correct,
        (isTruncatedCompletion v sample).toNat + rest.truncated⟩

end completions

/-! ### The statistics -/

structure UpliftArgs where
  expectedSamples : ℕ
  expected_pos : 1 ≤ expectedSamples
  piTraceField : PyStr

structure UpliftStats where
  rows : ℕ
  withPlain : ℕ
  withPi : ℕ
  withUpliftPositive : ℕ
  strictFrontierEligible : ℕ
  relaxedFrontierEligible : ℕ

structure UpliftOutput where
  outputRows : List Row
  stats : UpliftStats

/-- What the statistics are computed with. -/
structure UpliftEnv where
  nums : PyNumbers
  verifier : Verifier

/-- The completions of one row. -/
structure RowSamples where
  plain : List Row
  pi : List Row

/-- The row is left incomplete. -/
def RowSamples.incomplete (args : UpliftArgs) (samples : RowSamples) : Bool :=
  samples.plain.length != args.expectedSamples || samples.pi.length != args.expectedSamples

def metadataKey : PyStr := "metadata".toList

/-- The row with the mark `recipient_uplift_incomplete`. -/
def markIncomplete (args : UpliftArgs) (samples : RowSamples) (row : Row) : Except PyError Row :=
  (row.setDefault metadataKey (.obj [])).setInner metadataKey
    "recipient_uplift_incomplete".toList (.obj [
      ("plain_samples".toList, .int samples.plain.length),
      ("pi_samples".toList, .int samples.pi.length),
      ("expected_samples".toList, .int args.expectedSamples)])

/-- The fresh rates of a row. -/
structure FreshRates where
  correctPlain : ℕ
  correctPi : ℕ
  pPlain : PyFloat
  pPi : PyFloat
  uplift : PyFloat
  anyTruncated : Bool

section stats
variable (env : UpliftEnv) (args : UpliftArgs)

/-- `correct / expected_samples`. -/
def successRate (correct : ℕ) : PyFloat := env.nums.fmt.round (correct / args.expectedSamples)

def freshRates (goldAnswer : PyStr) (samples : RowSamples) : Except PyError FreshRates := do
  let plain ← correctCount env.verifier goldAnswer samples.plain
  let pi ← correctCount env.verifier goldAnswer samples.pi
  let pPlain := successRate env args plain.correct
  let pPi := successRate env args pi.correct
  return {
    correctPlain := plain.correct
    correctPi := pi.correct
    pPlain, pPi
    uplift := pPi.sub env.nums.fmt pPlain
    anyTruncated := decide (0 < plain.truncated) || decide (0 < pi.truncated) }

def truncatedFlag : PyStr := "student_completion_truncated".toList

/-- `new_row.update`. -/
def attachRates (rates : FreshRates) (row : Row) : Row :=
  row |>.setItem "p_plain".toList (.float rates.pPlain)
    |>.setItem "p_PI".toList (.float rates.pPi)
    |>.setItem "uplift".toList (.float rates.uplift)
    |>.setItem "correct_plain".toList (.int rates.correctPlain)
    |>.setItem "correct_PI".toList (.int rates.correctPi)
    |>.setItem truncatedFlag (.bool rates.anyTruncated)

/-- `bool(new_row.get(pi_verified_field, False))`. -/
def manifestVerified (newRow : Row) : Bool :=
  (newRow.getD (verifiedField args.piTraceField) (.bool false)).truthy

/-- The row counts for `strict_frontier_eligible`. -/
def countsStrict (newRow : Row) (rates : FreshRates) : Bool :=
  manifestVerified args newRow && !rates.anyTruncated &&
    (rates.pPlain.eq (.fin (1 / 4)) || rates.pPlain.eq (.fin (1 / 2)) ||
      rates.pPlain.eq (.fin (3 / 4))) &&
    (PyFloat.fin (3 / 4)).le rates.pPi && (PyFloat.fin (1 / 4)).le rates.uplift

/-- The row counts for `relaxed_frontier_eligible`. -/
def countsRelaxed (newRow : Row) (rates : FreshRates) : Bool :=
  manifestVerified args newRow && !rates.anyTruncated &&
    (tenth.le rates.pPlain && rates.pPlain.le (.fin (3 / 4))) && (PyFloat.fin 0).lt rates.uplift

/-- The completions of a row and its gold answer. -/
def rowSamples (plain pi : List (PyStr × Row)) (row : Row) :
    Except PyError (PyStr × RowSamples) := do
  let id ← row.getItem idField
  let gold ← row.getItem "gold_answer".toList
  let key := id.toStr env.verifier.printer
  return (gold.toStr env.verifier.printer, ⟨samplesOf key plain, samplesOf key pi⟩)

/-- One round of the loop over the base rows. -/
def upliftStep (plain pi : List (PyStr × Row)) (out : UpliftOutput) (row : Row) :
    Except PyError UpliftOutput := do
  let (goldAnswer, samples) ← rowSamples env plain pi row
  let stats := { out.stats with
    rows := out.stats.rows + 1
    withPlain := out.stats.withPlain + (!samples.plain.isEmpty).toNat
    withPi := out.stats.withPi + (!samples.pi.isEmpty).toNat }
  if samples.incomplete args then
    let newRow ← markIncomplete args samples row
    return { outputRows := out.outputRows ++ [newRow], stats }
  let rates ← freshRates env args goldAnswer samples
  let newRow := attachRates rates row
  return {
    outputRows := out.outputRows ++ [newRow]
    stats := { stats with
      withUpliftPositive := stats.withUpliftPositive + ((PyFloat.fin 0).lt rates.uplift).toNat
      strictFrontierEligible :=
        stats.strictFrontierEligible + (countsStrict args newRow rates).toNat
      relaxedFrontierEligible :=
        stats.relaxedFrontierEligible + (countsRelaxed args newRow rates).toNat } }

/-- `main`, from the three files read to the rows and the counts written. -/
def computeRecipientUplift (baseRows plainRows piRows : List Row) :
    Except PyError UpliftOutput := do
  let plain ← groupCompletions env.verifier plainRows
  let pi ← groupCompletions env.verifier piRows
  baseRows.foldlM (upliftStep env args plain pi) ⟨[], ⟨0, 0, 0, 0, 0, 0⟩⟩

end stats

/-! ### The rows that are written -/

section rows
variable {env : UpliftEnv} {args : UpliftArgs} {rates : FreshRates} {row newRow : Row}

theorem verifiedField_ne {key : PyStr} (h : ¬ "_verified".toList <:+: key) (traceField : PyStr) :
    verifiedField traceField ≠ key := by
  rintro rfl
  refine h ?_
  unfold verifiedField
  split
  · next hsuffix =>
      have hinfix := (List.isSuffixOf_iff_suffix.mp hsuffix).isInfix
      exact infix_replace (by decide) hinfix _
  · exact (List.suffix_append traceField _).isInfix

/-- The fields that `attachRates` writes. -/
def rateFields : List PyStr := ["p_plain".toList, "p_PI".toList, "uplift".toList,
  "correct_plain".toList, "correct_PI".toList, truncatedFlag]

theorem get?_attachRates_of_notMem {key : PyStr} (h : key ∉ rateFields) :
    Row.get? key (attachRates rates row) = Row.get? key row := by
  simp only [rateFields, List.mem_cons, List.not_mem_nil, or_false, not_or] at h
  obtain ⟨h₁, h₂, h₃, h₄, h₅, h₆⟩ := h
  unfold attachRates
  rw [Row.get?_setItem_of_ne h₆, Row.get?_setItem_of_ne h₅, Row.get?_setItem_of_ne h₄,
    Row.get?_setItem_of_ne h₃, Row.get?_setItem_of_ne h₂, Row.get?_setItem_of_ne h₁]

theorem get?_attachRates_flag :
    Row.get? truncatedFlag (attachRates rates row) = some (.bool rates.anyTruncated) := by
  unfold attachRates
  simp only [Row.get?_setItem]
  rfl

theorem get?_attachRates_correctPi :
    Row.get? "correct_PI".toList (attachRates rates row) = some (.int rates.correctPi) := by
  unfold attachRates
  simp only [Row.get?_setItem]
  rfl

theorem get?_attachRates_correctPlain :
    Row.get? "correct_plain".toList (attachRates rates row) = some (.int rates.correctPlain) := by
  unfold attachRates
  simp only [Row.get?_setItem]
  rfl

theorem get?_attachRates_uplift :
    Row.get? "uplift".toList (attachRates rates row) = some (.float rates.uplift) := by
  unfold attachRates
  simp only [Row.get?_setItem]
  rfl

theorem get?_attachRates_pPi :
    Row.get? "p_PI".toList (attachRates rates row) = some (.float rates.pPi) := by
  unfold attachRates
  simp only [Row.get?_setItem]
  rfl

theorem get?_attachRates_pPlain :
    Row.get? "p_plain".toList (attachRates rates row) = some (.float rates.pPlain) := by
  unfold attachRates
  simp only [Row.get?_setItem]
  rfl

theorem floatOrZero_float (nums : PyNumbers) (x : PyFloat) :
    floatOrZero nums (.float x) = .ok x := by
  unfold floatOrZero
  by_cases h : x = .fin 0
  · rw [h]
    rfl
  · have htruthy : (Json.float x).truthy = true := decide_eq_true h
    rw [if_pos htruthy]
    rfl

/-- `eligibleFrontier` on a row with fresh rates. -/
theorem eligibleFrontier_attachRates (relaxed : Bool) :
    eligibleFrontier env.nums relaxed args.piTraceField (attachRates rates row) =
      .ok ((isVerified args.piTraceField (attachRates rates row) &&
        hasTrace args.piTraceField (attachRates rates row) && !rates.anyTruncated) &&
        ratesEligible env.nums.fmt relaxed rates.pPlain rates.pPi) := by
  have hplain : plainRate env.nums (attachRates rates row) = .ok rates.pPlain := by
    unfold plainRate
    rw [Row.getD_of_get? get?_attachRates_pPlain]
    exact floatOrZero_float _ _
  have hpi : piRate env.nums (attachRates rates row) = .ok rates.pPi := by
    unfold piRate
    rw [Row.getD_of_get? get?_attachRates_pPi]
    exact floatOrZero_float _ _
  have htruncated : isTruncated (attachRates rates row) = rates.anyTruncated := by
    have hflag : Row.get? truncatedFlag (attachRates rates row) = _ := get?_attachRates_flag
    unfold truncatedFlag at hflag
    unfold isTruncated
    rw [Row.getD_of_get? hflag]
    rfl
  rw [eligibleFrontier_eq hplain hpi, htruncated]

/-- The base rows of the comparison: unverified, or with a trace under the chosen field, and
without the legacy key. -/
structure InScope (args : UpliftArgs) (row : Row) : Prop where
  verified_trace : isVerified args.piTraceField row = true → hasTrace args.piTraceField row = true
  no_legacy : Row.get? "pi_trace_verified".toList row = none

/-- Without the legacy key both programs read the same verification. -/
theorem isVerified_eq_manifestVerified (h : Row.get? "pi_trace_verified".toList newRow = none) :
    isVerified args.piTraceField newRow = manifestVerified args newRow := by
  unfold isVerified manifestVerified
  rw [Row.getD_of_absent h]

theorem isVerified_attachRates (args : UpliftArgs) :
    isVerified args.piTraceField (attachRates rates row) = isVerified args.piTraceField row := by
  have hfield : verifiedField args.piTraceField ∉ rateFields := by
    intro hmem
    simp only [rateFields, List.mem_cons, List.not_mem_nil, or_false] at hmem
    rcases hmem with h | h | h | h | h | h <;> exact verifiedField_ne (by decide) _ h
  unfold isVerified Row.getD
  rw [get?_attachRates_of_notMem hfield, get?_attachRates_of_notMem (by decide)]

/-- Rates that pass the relaxed test are not zero, and neither is their difference. -/
theorem ne_zero_of_ratesEligible {fmt : FloatFormat} {pPlain pPi : PyFloat}
    (h : ratesEligible fmt true pPlain pPi = true) :
    pPlain ≠ .fin 0 ∧ pPi ≠ .fin 0 ∧ pPi.sub fmt pPlain ≠ .fin 0 := by
  unfold ratesEligible at h
  rw [if_pos rfl, Bool.and_eq_true, Bool.and_eq_true] at h
  obtain ⟨⟨htenth, hle⟩, huplift⟩ := h
  have hpositive : ∃ q : ℚ, 0 < q ∧ pPlain = .fin q := by
    cases pPlain with
    | fin q =>
        rw [tenth, PyFloat.le_fin, decide_eq_true_iff] at htenth
        exact ⟨q, lt_of_lt_of_le (by norm_num) htenth, rfl⟩
    | nan => cases htenth
    | negInf => cases htenth
    | posInf => cases hle
  obtain ⟨q, hq, rfl⟩ := hpositive
  refine ⟨?_, ?_, ?_⟩
  · intro hzero
    exact hq.ne' (PyFloat.fin.inj hzero)
  · rintro rfl
    have hneg : (PyFloat.fin 0).sub fmt (.fin q) = fmt.round (0 + -q) := rfl
    rw [hneg, fmt.not_round_pos (by linarith)] at huplift
    exact Bool.false_ne_true huplift
  · intro hzero
    rw [hzero] at huplift
    exact absurd huplift (by decide)

/-- The rates are those of the counts. -/
structure IsFresh (env : UpliftEnv) (args : UpliftArgs) (rates : FreshRates) : Prop where
  plain : rates.pPlain = successRate env args rates.correctPlain
  pi : rates.pPi = successRate env args rates.correctPi
  uplift : rates.uplift = rates.pPi.sub env.nums.fmt rates.pPlain

theorem isFresh_of_freshRates {goldAnswer : PyStr} {samples : RowSamples}
    (h : freshRates env args goldAnswer samples = .ok rates) : IsFresh env args rates := by
  obtain ⟨plain, -, h⟩ := Checked.bind_eq_ok_iff.mp h
  obtain ⟨pi, -, h⟩ := Checked.bind_eq_ok_iff.mp h
  rw [← Except.ok.inj h]
  exact ⟨rfl, rfl, rfl⟩

theorem successRate_zero : successRate env args 0 = .fin 0 := by
  unfold successRate
  rw [Nat.cast_zero, zero_div]
  exact env.nums.fmt.round_zero

/-- A trace stays one under fresh rates that pass the relaxed test, also where the trace field is
one of the fields written. -/
theorem hasTrace_attachRates {traceField : PyStr} (hfresh : IsFresh env args rates)
    (hrates : ratesEligible env.nums.fmt true rates.pPlain rates.pPi = true)
    (hfield : traceField ≠ truncatedFlag) (htrace : hasTrace traceField row = true) :
    hasTrace traceField (attachRates rates row) = true := by
  obtain ⟨hplain, hpi, huplift⟩ := ne_zero_of_ratesEligible hrates
  unfold hasTrace Row.get at htrace ⊢
  by_cases hmem : traceField ∈ rateFields
  · simp only [rateFields, List.mem_cons, List.not_mem_nil, or_false] at hmem
    rcases hmem with rfl | rfl | rfl | rfl | rfl | rfl
    · rw [get?_attachRates_pPlain]
      exact decide_eq_true hplain
    · rw [get?_attachRates_pPi]
      exact decide_eq_true hpi
    · rw [get?_attachRates_uplift, hfresh.uplift]
      exact decide_eq_true huplift
    · rw [get?_attachRates_correctPlain]
      have hne : rates.correctPlain ≠ 0 := by
        intro hzero
        rw [hfresh.plain, hzero] at hplain
        exact hplain successRate_zero
      simpa [Json.truthy] using hne
    · rw [get?_attachRates_correctPi]
      have hne : rates.correctPi ≠ 0 := by
        intro hzero
        rw [hfresh.pi, hzero] at hpi
        exact hpi successRate_zero
      simpa [Json.truthy] using hne
    · exact absurd rfl hfield
  · rw [get?_attachRates_of_notMem hmem]
    exact htrace

/-- What is read of a row other than its trace does not change under a new `metadata`. -/
theorem eligibleFrontier_congr {traceField : PyStr} {relaxed : Bool}
    (hkeys : ∀ key, key ≠ metadataKey → Row.get? key newRow = Row.get? key row)
    (htrace : isVerified traceField row = true →
      hasTrace traceField newRow = hasTrace traceField row) :
    eligibleFrontier env.nums relaxed traceField newRow =
      eligibleFrontier env.nums relaxed traceField row := by
  have hgetD : ∀ key d, key ≠ metadataKey → Row.getD key d newRow = Row.getD key d row := by
    intro key d hne
    unfold Row.getD
    rw [hkeys key hne]
  have hplain : plainRate env.nums newRow = plainRate env.nums row := by
    unfold plainRate
    rw [hgetD _ _ (by decide), hgetD _ _ (by decide)]
  have hpi : piRate env.nums newRow = piRate env.nums row := by
    unfold piRate
    rw [hgetD _ _ (by decide), hgetD _ _ (by decide), hgetD _ _ (by decide)]
  have hverified : isVerified traceField newRow = isVerified traceField row := by
    unfold isVerified
    rw [hgetD _ _ (verifiedField_ne (by decide) _), hgetD _ _ (by decide)]
  have htruncated : isTruncated newRow = isTruncated row := by
    unfold isTruncated
    rw [hgetD _ _ (by decide)]
  unfold eligibleFrontier
  rw [hplain, hpi, hverified, htruncated]
  cases hv : isVerified traceField row with
  | true => rw [htrace hv]
  | false => rfl

/-- An incomplete row is as eligible as the row that came in. -/
theorem eligibleFrontier_markIncomplete {samples : RowSamples} {relaxed : Bool}
    (hscope : InScope args row) (h : markIncomplete args samples row = .ok newRow) :
    eligibleFrontier env.nums relaxed args.piTraceField newRow =
      eligibleFrontier env.nums relaxed args.piTraceField row := by
  obtain ⟨fields, -, rfl⟩ := Row.setInner_eq_ok h
  refine eligibleFrontier_congr ?_ ?_
  · intro key hne
    rw [Row.get?_setItem_of_ne hne, Row.get?_setDefault_of_ne hne]
  · intro hverified
    rw [hscope.verified_trace hverified]
    by_cases hfield : args.piTraceField = metadataKey
    · unfold hasTrace Row.get
      rw [hfield, Row.get?_setItem_self]
      cases fields with
      | nil => rfl
      | cons p fields =>
          unfold Row.setItem
          split <;> rfl
    · have htrace := hscope.verified_trace hverified
      unfold hasTrace Row.get at htrace ⊢
      rw [Row.get?_setItem_of_ne hfield, Row.get?_setDefault_of_ne hfield]
      exact htrace

end rows

/-! ### One round and all rounds -/

section agreement
variable (env : UpliftEnv) (args : UpliftArgs) (plain pi : List (PyStr × Row))

/-- The row has too few or too many completions. -/
def rowIncomplete (row : Row) : Bool :=
  match rowSamples env plain pi row with
  | .ok (_, samples) => samples.incomplete args
  | .error _ => false

/-- The row is complete and verified, no completion is truncated, and the fresh rates pass. -/
def freshlyEligible (relaxed : Bool) (row : Row) : Bool :=
  match rowSamples env plain pi row with
  | .ok (goldAnswer, samples) => match freshRates env args goldAnswer samples with
    | .ok rates => !samples.incomplete args && (isVerified args.piTraceField row &&
        !rates.anyTruncated && ratesEligible env.nums.fmt relaxed rates.pPlain rates.pPi)
    | .error _ => false
  | .error _ => false

/-- `eligibleFrontier` accepts the row. -/
def accepted (relaxed : Bool) (row : Row) : Bool :=
  Checked.Passes (eligibleFrontier env.nums relaxed args.piTraceField) row

/-- The count of the manifest. -/
def UpliftStats.eligible (relaxed : Bool) (stats : UpliftStats) : ℕ :=
  if relaxed then stats.relaxedFrontierEligible else stats.strictFrontierEligible

/-- What is accepted of the row written for a base row. -/
def acceptedAfter (relaxed : Bool) (row : Row) : Bool :=
  if rowIncomplete env args plain pi row then accepted env args relaxed row
  else !decide (args.piTraceField = truncatedFlag) && freshlyEligible env args plain pi relaxed row

variable {env args plain pi}

theorem ratesEligible_of_strict {fmt : FloatFormat} {relaxed : Bool} {pPlain pPi : PyFloat}
    (h : ratesEligible fmt relaxed pPlain pPi = true) :
    ratesEligible fmt true pPlain pPi = true := by
  cases relaxed with
  | true => exact h
  | false => exact ratesEligible_relaxed h

/-- The manifest and `eligibleFrontier` put the same question to fresh rates. -/
theorem counts_eq {rates : FreshRates} {newRow : Row} (hfresh : IsFresh env args rates)
    (h : Row.get? "pi_trace_verified".toList newRow = none) (relaxed : Bool) :
    (if relaxed then countsRelaxed args newRow rates else countsStrict args newRow rates) =
      (isVerified args.piTraceField newRow && !rates.anyTruncated &&
        ratesEligible env.nums.fmt relaxed rates.pPlain rates.pPi) := by
  rw [isVerified_eq_manifestVerified h]
  unfold countsRelaxed countsStrict ratesEligible
  rw [hfresh.uplift]
  cases relaxed with
  | true => simp only [if_true, Bool.and_assoc]
  | false => simp only [Bool.false_eq_true, if_false, Bool.and_assoc]

/-- A complete row is accepted when its fresh rates pass, unless its trace is the overwritten
flag. -/
theorem accepted_attachRates {rates : FreshRates} {row : Row} (hscope : InScope args row)
    (hfresh : IsFresh env args rates) (relaxed : Bool) :
    accepted env args relaxed (attachRates rates row) =
      (!decide (args.piTraceField = truncatedFlag) && (isVerified args.piTraceField row &&
        !rates.anyTruncated && ratesEligible env.nums.fmt relaxed rates.pPlain rates.pPi)) := by
  unfold accepted Checked.Passes
  rw [eligibleFrontier_attachRates, isVerified_attachRates]
  show (_ && _ : Bool) = _
  by_cases hflag : args.piTraceField = truncatedFlag
  · have htrace : hasTrace args.piTraceField (attachRates rates row) = rates.anyTruncated := by
      unfold hasTrace Row.get
      rw [hflag, get?_attachRates_flag]
      rfl
    rw [htrace, decide_eq_true hflag]
    cases rates.anyTruncated <;> simp
  · rw [decide_eq_false hflag, Bool.not_false, Bool.true_and]
    cases hverified : isVerified args.piTraceField row with
    | false => rfl
    | true => cases hrates : ratesEligible env.nums.fmt relaxed rates.pPlain rates.pPi with
      | false => simp
      | true =>
          have htrace := hasTrace_attachRates hfresh (ratesEligible_of_strict hrates) hflag
            (hscope.verified_trace hverified)
          rw [htrace]
          rfl

/-- One round: the row written and what is added to the counts. -/
theorem upliftStep_eq_ok {out out' : UpliftOutput} {row : Row} (hscope : InScope args row)
    (h : upliftStep env args plain pi out row = .ok out') :
    ∃ newRow, out'.outputRows = out.outputRows ++ [newRow] ∧
      (∀ relaxed, out'.stats.eligible relaxed =
        out.stats.eligible relaxed + (freshlyEligible env args plain pi relaxed row).toNat) ∧
      ∀ relaxed, accepted env args relaxed newRow = acceptedAfter env args plain pi relaxed row := by
  obtain ⟨⟨goldAnswer, samples⟩, hsamples, h⟩ := Checked.bind_eq_ok_iff.mp h
  unfold acceptedAfter rowIncomplete freshlyEligible
  simp only [hsamples]
  dsimp only at h
  cases hincomplete : samples.incomplete args with
  | true =>
      rw [hincomplete, if_pos rfl] at h
      obtain ⟨newRow, hmark, h⟩ := Checked.bind_eq_ok_iff.mp h
      rw [← Except.ok.inj h]
      refine ⟨newRow, rfl, ?_, ?_⟩
      · intro relaxed
        cases freshRates env args goldAnswer samples <;> cases relaxed <;> rfl
      · intro relaxed
        rw [if_pos rfl]
        unfold accepted Checked.Passes
        rw [eligibleFrontier_markIncomplete hscope hmark]
  | false =>
      rw [hincomplete, if_neg Bool.false_ne_true] at h
      obtain ⟨rates, hrates, h⟩ := Checked.bind_eq_ok_iff.mp h
      have hfresh := isFresh_of_freshRates hrates
      have hlegacy : Row.get? "pi_trace_verified".toList (attachRates rates row) = none := by
        rw [get?_attachRates_of_notMem (by decide)]
        exact hscope.no_legacy
      rw [← Except.ok.inj h]
      simp only [hrates]
      refine ⟨attachRates rates row, rfl, ?_, ?_⟩
      · intro relaxed
        have hcounts := counts_eq hfresh hlegacy relaxed
        rw [isVerified_attachRates] at hcounts
        rw [Bool.not_false, Bool.true_and, ← hcounts]
        cases relaxed <;> rfl
      · intro relaxed
        rw [if_neg Bool.false_ne_true, Bool.not_false, Bool.true_and]
        exact accepted_attachRates hscope hfresh relaxed

/-- All rounds: the counts are those of the fresh rates, row by row. -/
theorem computeRecipientUplift_eq_ok {baseRows plainRows piRows : List Row} {out : UpliftOutput}
    (hscope : ∀ row ∈ baseRows, InScope args row)
    (h : computeRecipientUplift env args baseRows plainRows piRows = .ok out) :
    ∃ plain pi, groupCompletions env.verifier plainRows = .ok plain ∧
      groupCompletions env.verifier piRows = .ok pi ∧
      (∀ relaxed, out.stats.eligible relaxed =
        baseRows.countP (freshlyEligible env args plain pi relaxed)) ∧
      List.Forall₂ (fun row newRow => ∀ relaxed, accepted env args relaxed newRow =
        acceptedAfter env args plain pi relaxed row) baseRows out.outputRows := by
  obtain ⟨plain, hplain, h⟩ := Checked.bind_eq_ok_iff.mp h
  obtain ⟨pi, hpi, h⟩ := Checked.bind_eq_ok_iff.mp h
  refine ⟨plain, pi, hplain, hpi, ?_⟩
  have hrun := Checked.foldlM_invariant (fun done (st : UpliftOutput) =>
    (∀ row ∈ done, InScope args row) → (∀ relaxed, st.stats.eligible relaxed =
      done.countP (freshlyEligible env args plain pi relaxed)) ∧
    List.Forall₂ (fun row newRow => ∀ relaxed, accepted env args relaxed newRow =
      acceptedAfter env args plain pi relaxed row) done st.outputRows) ?_ ?_ h
  · exact hrun hscope
  · intro done st row st' hdone hstep hall
    have hrow := hall row (List.mem_append_right _ List.mem_cons_self)
    obtain ⟨hcounts, hrows⟩ := hdone fun r hr => hall r (List.mem_append_left _ hr)
    obtain ⟨newRow, hnew, hadd, haccepted⟩ := upliftStep_eq_ok hrow hstep
    constructor
    · intro relaxed
      rw [hadd relaxed, hcounts relaxed, List.countP_append, List.countP_singleton]
      cases freshlyEligible env args plain pi relaxed row <;> rfl
    · rw [hnew]
      exact List.rel_append hrows (.cons haccepted .nil)
  · intro _
    exact ⟨fun relaxed => by cases relaxed <;> rfl, .nil⟩

theorem countP_eq_of_forall₂ {α β : Type*} {p : α → Bool} {q : β → Bool} {xs : List α}
    {ys : List β} (h : List.Forall₂ (fun x y => q y = p x) xs ys) : ys.countP q = xs.countP p := by
  induction h with
  | nil => rfl
  | cons hxy _ ih => rw [List.countP_cons, List.countP_cons, hxy, ih]

theorem freshlyEligible_of_strict {row : Row}
    (h : freshlyEligible env args plain pi false row = true) :
    freshlyEligible env args plain pi true row = true := by
  unfold freshlyEligible at h ⊢
  split at h
  · split at h
    · rw [Bool.and_eq_true, Bool.and_eq_true] at h ⊢
      exact ⟨h.1, h.2.1, ratesEligible_relaxed h.2.2⟩
    · exact absurd h Bool.false_ne_true
  · exact absurd h Bool.false_ne_true

theorem freshlyEligible_incomplete {row : Row} (h : rowIncomplete env args plain pi row = true)
    (relaxed : Bool) : freshlyEligible env args plain pi relaxed row = false := by
  unfold rowIncomplete at h
  unfold freshlyEligible
  split at h
  · next heq =>
      simp only [h]
      split <;> rfl
  · exact absurd h Bool.false_ne_true

/-- What the relaxed rule rejects the strict rule rejects. -/
theorem accepted_eq_false {row : Row} (h : accepted env args true row = false) (relaxed : Bool) :
    accepted env args relaxed row = false := by
  cases relaxed with
  | true => exact h
  | false =>
      apply Bool.eq_false_iff.mpr
      intro hstrict
      have hrelaxed := eligibleFrontier_relaxed (Checked.passes_eq_true_iff.mp hstrict)
      exact Bool.eq_false_iff.mp h (Checked.passes_eq_true_iff.mpr hrelaxed)

theorem freshlyEligible_eq_false {row : Row}
    (h : freshlyEligible env args plain pi true row = false) (relaxed : Bool) :
    freshlyEligible env args plain pi relaxed row = false := by
  cases relaxed with
  | true => exact h
  | false =>
      apply Bool.eq_false_iff.mpr
      intro hstrict
      exact Bool.eq_false_iff.mp h (freshlyEligible_of_strict hstrict)

theorem acceptedAfter_incomplete {row : Row} (h : rowIncomplete env args plain pi row = true)
    (relaxed : Bool) :
    acceptedAfter env args plain pi relaxed row = accepted env args relaxed row := by
  rw [acceptedAfter, if_pos h]

/-- Under the condition the written row is accepted exactly when its fresh rates are eligible. -/
theorem acceptedAfter_eq_freshlyEligible {row : Row}
    (hinc : rowIncomplete env args plain pi row = true → accepted env args true row = false)
    (hflag : args.piTraceField = truncatedFlag →
      freshlyEligible env args plain pi true row = false) (relaxed : Bool) :
    acceptedAfter env args plain pi relaxed row = freshlyEligible env args plain pi relaxed row := by
  by_cases hrow : rowIncomplete env args plain pi row = true
  · rw [acceptedAfter_incomplete hrow, accepted_eq_false (hinc hrow), freshlyEligible_incomplete hrow]
  · rw [acceptedAfter, if_neg hrow]
    by_cases htrace : args.piTraceField = truncatedFlag
    · rw [freshlyEligible_eq_false (hflag htrace), Bool.and_false]
    · rw [decide_eq_false htrace]
      rfl

/-- Without stale rates that pass, no written row has the flag both as its trace and unset. -/
theorem acceptedAfter_flag {row : Row}
    (hinc : rowIncomplete env args plain pi row = true → accepted env args true row = false)
    (hflag : args.piTraceField = truncatedFlag) :
    acceptedAfter env args plain pi true row = false := by
  by_cases hrow : rowIncomplete env args plain pi row = true
  · rw [acceptedAfter_incomplete hrow, hinc hrow]
  · rw [acceptedAfter, if_neg hrow, decide_eq_true hflag]
    rfl

end agreement

/-- What the manifest promises of the rows written: its two counts are those of
`eligibleFrontier`, which accepts no incomplete row. -/
structure UpliftAgrees (env : UpliftEnv) (args : UpliftArgs)
    (plain pi : List (PyStr × Row)) (baseRows : List Row) (out : UpliftOutput) : Prop where
  strict : out.stats.strictFrontierEligible = out.outputRows.countP (accepted env args false)
  relaxed : out.stats.relaxedFrontierEligible = out.outputRows.countP (accepted env args true)
  incomplete : List.Forall₂ (fun row newRow => rowIncomplete env args plain pi row = true →
    ∀ relaxed, accepted env args relaxed newRow = false) baseRows out.outputRows

/-- **The uplift manifest agrees with the frontier builder** exactly when the relaxed rule accepts
no incomplete row as it came in, and, should the trace be the truncation flag itself, no row has
eligible fresh rates. -/
theorem uplift_agrees_iff {env : UpliftEnv} {args : UpliftArgs}
    {baseRows plainRows piRows : List Row} {out : UpliftOutput}
    (hscope : ∀ row ∈ baseRows, InScope args row)
    (h : computeRecipientUplift env args baseRows plainRows piRows = .ok out) :
    ∃ plain pi, groupCompletions env.verifier plainRows = .ok plain ∧
      groupCompletions env.verifier piRows = .ok pi ∧
      (UpliftAgrees env args plain pi baseRows out ↔ ∀ row ∈ baseRows,
        (rowIncomplete env args plain pi row = true → accepted env args true row = false) ∧
        (args.piTraceField = truncatedFlag →
          freshlyEligible env args plain pi true row = false)) := by
  obtain ⟨plain, pi, hplain, hpi, hcounts, hrows⟩ := computeRecipientUplift_eq_ok hscope h
  refine ⟨plain, pi, hplain, hpi, ?_⟩
  have hmem := (List.forall₂_and_left _ _).mpr ⟨fun r (hr : r ∈ baseRows) => hr, hrows⟩
  constructor
  · intro hagrees
    have hincomplete : ∀ row ∈ baseRows, rowIncomplete env args plain pi row = true →
        accepted env args true row = false := by
      intro row hrow hinc
      obtain ⟨i, hi, rfl⟩ := List.mem_iff_getElem.mp hrow
      have hi' : i < out.outputRows.length := hrows.length_eq ▸ hi
      have hnew := (List.forall₂_iff_get.mp hagrees.incomplete).2 i hi hi' hinc true
      have heq := (List.forall₂_iff_get.mp hrows).2 i hi hi' true
      rw [heq] at hnew
      exact (acceptedAfter_incomplete hinc true).symm.trans hnew
    refine fun row hrow => ⟨hincomplete row hrow, ?_⟩
    intro hflag
    have hnone : List.Forall₂ (fun _ newRow => accepted env args true newRow = false) baseRows
        out.outputRows := by
      apply hmem.imp
      rintro r newRow ⟨hr, heq⟩
      rw [heq true]
      exact acceptedAfter_flag (hincomplete r hr) hflag
    have hzero := countP_eq_of_forall₂ (p := fun _ => false) hnone
    rw [List.countP_false, ← hagrees.relaxed] at hzero
    have hstat : out.stats.relaxedFrontierEligible = _ := hcounts true
    rw [hzero] at hstat
    exact Bool.eq_false_iff.mpr (List.countP_eq_zero.mp hstat.symm row hrow)
  · intro hcond
    have hpoint : ∀ relaxed, List.Forall₂ (fun row newRow => accepted env args relaxed newRow =
        freshlyEligible env args plain pi relaxed row) baseRows out.outputRows := by
      intro relaxed
      apply hmem.imp
      rintro row newRow ⟨hrow, heq⟩
      rw [heq relaxed]
      exact acceptedAfter_eq_freshlyEligible (hcond row hrow).1 (hcond row hrow).2 relaxed
    refine ⟨?_, ?_, ?_⟩
    · exact (hcounts false).trans (countP_eq_of_forall₂ (hpoint false)).symm
    · exact (hcounts true).trans (countP_eq_of_forall₂ (hpoint true)).symm
    · apply hmem.imp
      rintro row newRow ⟨hrow, heq⟩ hinc relaxed
      rw [heq relaxed, acceptedAfter_incomplete hinc]
      exact accepted_eq_false ((hcond row hrow).1 hinc) relaxed

/-- Without `math_verify`, for ASCII text. -/
def plainEnv : UpliftEnv where
  nums := ⟨.exact, fun _ => none⟩
  verifier := ⟨fun _ _ => none, .ascii, ⟨fun _ => true, fun _ => []⟩⟩

def oneSample : UpliftArgs := ⟨1, le_refl 1, "pi_trace".toList⟩

/-- A row with the rates of an earlier pass. -/
def staleRow : Row := frontierRow "a" ++ [("gold_answer".toList, .str "4".toList)]

theorem inScope_staleRow : InScope oneSample staleRow := ⟨fun _ => rfl, rfl⟩

theorem accepted_staleRow : accepted plainEnv oneSample false staleRow = true := by
  have hplain : plainRate plainEnv.nums staleRow = .ok (.fin (1 / 4)) := floatOrZero_float _ _
  have hpi : piRate plainEnv.nums staleRow = .ok (.fin 1) := floatOrZero_float _ _
  unfold accepted Checked.Passes
  rw [eligibleFrontier_eq hplain hpi]
  have hrates : ratesEligible plainEnv.nums.fmt false (.fin (1 / 4)) (.fin 1) = true := by
    have hsub : (PyFloat.fin 1).sub plainEnv.nums.fmt (.fin (1 / 4)) = .fin (1 + -(1 / 4)) := rfl
    unfold ratesEligible
    rw [hsub]
    norm_num
  rw [hrates]
  rfl

/-- A verified row with eligible rates of an earlier pass and no completions of this one is
accepted and not counted. -/
theorem uplift_stale_rates :
    ∃ out, computeRecipientUplift plainEnv oneSample [staleRow] [] [] = .ok out ∧
      InScope oneSample staleRow ∧ out.stats.strictFrontierEligible = 0 ∧
      out.outputRows.countP (accepted plainEnv oneSample false) = 1 := by
  refine ⟨_, rfl, inScope_staleRow, rfl, ?_⟩
  obtain ⟨plain, pi, hplain, hpi, -, hrows⟩ := computeRecipientUplift_eq_ok
    (show ∀ row ∈ [staleRow], InScope oneSample row by simpa using inScope_staleRow)
    (show computeRecipientUplift plainEnv oneSample [staleRow] [] [] = .ok _ from rfl)
  have hplain : [] = plain := Except.ok.inj hplain
  have hpi : [] = pi := Except.ok.inj hpi
  subst hplain hpi
  rw [countP_eq_of_forall₂ (p := acceptedAfter plainEnv oneSample [] [] false)
    (hrows.imp fun _ _ h => h false)]
  have hafter : acceptedAfter plainEnv oneSample [] [] false staleRow = true := accepted_staleRow
  rw [List.countP_singleton, if_pos hafter]

/-- One completion with the right answer. -/
def rightCompletion : Row := [("id".toList, .str "a".toList),
  ("completion".toList, .str "so \\boxed\x7b4\x7d".toList)]

/-- One right completion without the trace and one with it. -/
theorem uplift_agrees_complete :
    ∃ out plain pi, computeRecipientUplift plainEnv oneSample [staleRow] [rightCompletion]
      [rightCompletion] = .ok out ∧ UpliftAgrees plainEnv oneSample plain pi [staleRow] out := by
  obtain ⟨plain, pi, hplain, hpi, hiff⟩ := uplift_agrees_iff
    (show ∀ row ∈ [staleRow], InScope oneSample row by simpa using inScope_staleRow)
    (show computeRecipientUplift plainEnv oneSample [staleRow] [rightCompletion]
      [rightCompletion] = .ok _ from rfl)
  refine ⟨_, plain, pi, rfl, hiff.mpr ?_⟩
  have hplain : [("a".toList, rightCompletion)] = plain := Except.ok.inj hplain
  have hpi : [("a".toList, rightCompletion)] = pi := Except.ok.inj hpi
  subst hplain hpi
  intro row hrow
  obtain rfl := List.mem_singleton.mp hrow
  constructor
  · intro hincomplete
    exact absurd hincomplete (by decide)
  · intro hfield
    exact absurd hfield (by decide)

end ExtpiRlsd
