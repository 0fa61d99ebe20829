import ExtpiRlsd.Lib.JsonLines

/-! # The metric summary

`hparam_matrix.py`: a metric file read back as records, and the summary of the records with the
hard gates that they violate.  The three counting gates take the largest count of all records;
the gates over windows look at the records that report the metric.

`summarizeMetrics_gates` says which records raise the counting gates and the finiteness gate. -/

namespace ExtpiRlsd

open PyText PyData

/-! ### Reading metrics -/

/-- Float arithmetic: the format, and how `sum` adds up. -/
structure FloatOps where
  fmt : FloatFormat
  sum : List PyFloat → PyFloat

structure MetricRecord where
  step : Json
  data : Row

/-- The record of a line, if its data are a dictionary. -/
def metricRecord : Json → Except PyError (Option MetricRecord)
  | .obj row => match Row.getD "data".toList (.obj []) row with
    | .obj data => .ok (some ⟨Row.get "step".toList row, data⟩)
    | _ => .ok none
  | _ => .error .attributeError

def metricRecords : List Json → Except PyError (List MetricRecord)
  | [] => .ok []
  | v :: vs => do
      let record ← metricRecord v
      let records ← metricRecords vs
      return record.toList ++ records

/-- `load_metric_records` of the lines of a file, if it exists. -/
def loadMetricRecords {Line : Type} (codec : LineCodec Line) :
    Option (List Line) → Except PyError (List MetricRecord)
  | none => .ok []
  | some lines => do
      let rows ← readLines codec lines
      metricRecords rows

section values
variable (fmt : FloatFormat)

/-- `_to_float`. -/
def toFloat : Json → Except PyError (Option PyFloat)
  | .bool b => .ok (some (.fin (if b then 1 else 0)))
  | .int n => match fmt.round n with
    | .fin q => .ok (some (.fin q))
    | _ => .error .overflowError
  | .float x => .ok (some x)
  | _ => .ok none

/-- `_metric_value`. -/
def metricValue (data : Row) : List PyStr → Except PyError (Option PyFloat)
  | [] => .ok none
  | key :: keys => match Row.get? key data with
    | none => metricValue data keys
    | some v => do
        let value ← toFloat fmt v
        match value with
        | some x => if x.isFinite then return some x else metricValue data keys
        | none => metricValue data keys

/-- `value or 0.0`. -/
def orZero (value : Option PyFloat) : PyFloat := value.getD (.fin 0)

/-- `max(x, y)`. -/
def pyMax (x y : PyFloat) : PyFloat := if x.lt y then y else x

end values

/-! ### The summary -/

/-- The gates that take the largest count. -/
inductive CountGate where
  | piLeak
  | piPromptTruncation
  | signFlip
deriving DecidableEq

/-- The keys of the count. -/
def CountGate.keys : CountGate → List PyStr
  | .piLeak => ["privacy/student_prompt_pi_leak_count".toList]
  | .piPromptTruncation => ["extpi/pi_teacher_prompt_truncated_count".toList]
  | .signFlip => ["actor/rlsd/sign_flip_count".toList, "rlsd/sign_flip_count".toList]

/-- The hard gates, under the names of the summary. -/
inductive HardGate where
  | count (gate : CountGate)
  | nonFiniteMetric
  | rlsdClipTotal
  | responseTruncation
  | zeroGradNorm
deriving DecidableEq

def HardGate.name : HardGate → PyStr
  | .count .piLeak => "pi_leak".toList
  | .count .piPromptTruncation => "pi_prompt_truncation".toList
  | .count .signFlip => "sign_flip".toList
  | .nonFiniteMetric => "non_finite_metric".toList
  | .rlsdClipTotal => "rlsd_clip_total".toList
  | .responseTruncation => "response_truncation".toList
  | .zeroGradNorm => "zero_grad_norm".toList

/-- What the loop over the records accumulates. -/
structure MetricState where
  groupValues : List PyFloat
  weightStdValues : List PyFloat
  clipTotals : List PyFloat
  truncationValues : List PyFloat
  gradValues : List PyFloat
  leakCount : PyFloat
  promptTruncCount : PyFloat
  signFlipCount : PyFloat
  nonFinite : Bool

def MetricState.empty : MetricState :=
  ⟨[], [], [], [], [], .fin 0, .fin 0, .fin 0, false⟩

/-- The largest count so far. -/
def MetricState.count (st : MetricState) : CountGate → PyFloat
  | .piLeak => st.leakCount
  | .piPromptTruncation => st.promptTruncCount
  | .signFlip => st.signFlipCount

structure MetricSummary where
  groupNonzeroStdRatioMean : PyFloat
  rlsdWeightStdMean : PyFloat
  rlsdClipTotalMean : PyFloat
  privacyLeakCount : PyFloat
  piPromptTruncCount : PyFloat
  violations : List HardGate

/-- `hard_gate_violation`. -/
def MetricSummary.hardGateViolation (summary : MetricSummary) : PyStr :=
  join [';'] (summary.violations.map HardGate.name)

section summarize
variable (ops : FloatOps)

/-- `scalar is not None and not math.isfinite(scalar)`. -/
def isNonFinite : Option PyFloat → Bool
  | some x => !x.isFinite
  | none => false

/-- Some value of the record is a number and not finite. -/
def anyNonFinite : Row → Except PyError Bool
  | [] => .ok false
  | (_, v) :: data => do
      let scalar ← toFloat ops.fmt v
      let rest ← anyNonFinite data
      return isNonFinite scalar || rest

/-- One round of the loop over the records. -/
def summarizeStep (st : MetricState) (record : MetricRecord) : Except PyError MetricState := do
  let data := record.data
  let nonFinite ← anyNonFinite ops data
  let group ← metricValue ops.fmt data ["train/group_nonzero_std_ratio".toList]
  let weightStd ← metricValue ops.fmt data
    ["actor/rlsd/weight_std".toList, "rlsd/weight_std".toList]
  let low ← metricValue ops.fmt data
    ["actor/rlsd/clip_low_ratio".toList, "rlsd/clip_low_ratio".toList]
  let high ← metricValue ops.fmt data
    ["actor/rlsd/clip_high_ratio".toList, "rlsd/clip_high_ratio".toList]
  let clipLow := orZero low
  let clipHigh := orZero high
  let truncation ← metricValue ops.fmt data
    ["response_length/clip_ratio".toList, "train/truncation_proxy_last_token_ratio".toList]
  let grad ← metricValue ops.fmt data ["actor/grad_norm".toList]
  let leak ← metricValue ops.fmt data CountGate.piLeak.keys
  let promptTrunc ← metricValue ops.fmt data CountGate.piPromptTruncation.keys
  let signFlip ← metricValue ops.fmt data CountGate.signFlip.keys
  return {
    groupValues := st.groupValues ++ group.toList
    weightStdValues := st.weightStdValues ++ weightStd.toList
    clipTotals := st.clipTotals ++
      if clipLow.truthy || clipHigh.truthy then [clipLow.add ops.fmt clipHigh] else []
    truncationValues := st.truncationValues ++ truncation.toList
    gradValues := st.gradValues ++ grad.toList
    leakCount := pyMax st.leakCount (orZero leak)
    promptTruncCount := pyMax st.promptTruncCount (orZero promptTrunc)
    signFlipCount := pyMax st.signFlipCount (orZero signFlip)
    nonFinite := st.nonFinite || nonFinite }

/-- `_mean`. -/
def meanOf (values : List PyFloat) : PyFloat :=
  if values.isEmpty then .fin 0 else (ops.sum values).divNat ops.fmt values.length

/-- `_rolling_violation`. -/
def rollingViolation (threshold : PyFloat) (window : ℕ) (values : List PyFloat) : Bool :=
  if values.length < window then false
  else (List.range (values.length - window + 1)).any fun i =>
    threshold.lt (meanOf ops ((values.drop i).take window))

/-- `_zero_grad_violation` behind a streak of zeros. -/
def zeroGradFrom (window streak : ℕ) : List PyFloat → Bool
  | [] => false
  | value :: values =>
      if value.eq (.fin 0) then
        if window ≤ streak + 1 then true else zeroGradFrom window (streak + 1) values
      else zeroGradFrom window 0 values

/-- `_zero_grad_violation`. -/
def zeroGradViolation (window : ℕ) (values : List PyFloat) : Bool := zeroGradFrom window 0 values

/-- The float nearest to `0.2`. -/
def fifth : PyFloat := .fin (3602879701896397 / 18014398509481984)

/-- The gate and whether the records violate it. -/
def gateVerdicts (st : MetricState) : List (HardGate × Bool) := [
  (.count .piLeak, (PyFloat.fin 0).lt st.leakCount),
  (.count .piPromptTruncation, (PyFloat.fin 0).lt st.promptTruncCount),
  (.count .signFlip, (PyFloat.fin 0).lt st.signFlipCount),
  (.nonFiniteMetric, st.nonFinite),
  (.rlsdClipTotal, rollingViolation ops (.fin (1 / 4)) 5 st.clipTotals),
  (.responseTruncation, rollingViolation ops fifth 5 st.truncationValues),
  (.zeroGradNorm, zeroGradViolation 5 st.gradValues)]

def summaryOf (st : MetricState) : MetricSummary where
  groupNonzeroStdRatioMean := meanOf ops st.groupValues
  rlsdWeightStdMean := meanOf ops st.weightStdValues
  rlsdClipTotalMean := meanOf ops st.clipTotals
  privacyLeakCount := st.leakCount
  piPromptTruncCount := st.promptTruncCount
  violations := ((gateVerdicts ops st).filter (·.2)).map (·.1)

/-- `summarize_metrics`. -/
def summarizeMetrics (records : List MetricRecord) : Except PyError MetricSummary := do
  let st ← records.foldlM (summarizeStep ops) .empty
  return summaryOf ops st

end summarize

/-! ### The counting gates and the finiteness gate -/

/-- The record has a positive count under the keys of the gate, as it is read. -/
def readsPositive (fmt : FloatFormat) (gate : CountGate) (data : Row) : Bool :=
  match metricValue fmt data gate.keys with
  | .ok (some x) => (PyFloat.fin 0).lt x
  | _ => false

/-- The value is a float and not finite. -/
def nonFiniteScalar : Json → Bool
  | .float x => !x.isFinite
  | _ => false

/-- Some metric of the record is a float and not finite. -/
def hasNonFinite (data : Row) : Bool := data.any fun p => nonFiniteScalar p.2

section gates
variable {ops : FloatOps}

theorem toFloat_eq_ok {fmt : FloatFormat} {v : Json} {scalar : Option PyFloat}
    (h : toFloat fmt v = .ok scalar) : isNonFinite scalar = nonFiniteScalar v := by
  cases v with
  | int n =>
      rw [toFloat] at h
      cases hround : fmt.round n with
      | fin q =>
          rw [hround] at h
          rw [← Except.ok.inj h]
          rfl
      | nan => rw [hround] at h; cases h
      | negInf => rw [hround] at h; cases h
      | posInf => rw [hround] at h; cases h
  | null => rw [← Except.ok.inj h]; rfl
  | bool b => rw [← Except.ok.inj h]; rfl
  | float x => rw [← Except.ok.inj h]; rfl
  | str s => rw [← Except.ok.inj h]; rfl
  | arr xs => rw [← Except.ok.inj h]; rfl
  | obj fields => rw [← Except.ok.inj h]; rfl

theorem anyNonFinite_eq_ok {data : Row} {b : Bool} (h : anyNonFinite ops data = .ok b) :
    b = hasNonFinite data := by
  induction data generalizing b with
  | nil => exact (Except.ok.inj h).symm
  | cons p data ih =>
      obtain ⟨k, v⟩ := p
      obtain ⟨scalar, hscalar, h⟩ := Checked.bind_eq_ok_iff.mp h
      obtain ⟨rest, hrest, h⟩ := Checked.bind_eq_ok_iff.mp h
      rw [← Except.ok.inj h, toFloat_eq_ok hscalar, ih hrest]
      rfl

theorem metricValue_finite {fmt : FloatFormat} {data : Row} {keys : List PyStr} {x : PyFloat}
    (h : metricValue fmt data keys = .ok (some x)) : ∃ q, x = .fin q := by
  induction keys with
  | nil => cases h
  | cons key keys ih =>
      unfold metricValue at h
      split at h
      · exact ih h
      · obtain ⟨value, -, h⟩ := Checked.bind_eq_ok_iff.mp h
        cases value with
        | none => exact ih h
        | some y => cases y with
          | fin q => exact ⟨q, (Option.some.inj (Except.ok.inj h)).symm⟩
          | nan => exact ih h
          | negInf => exact ih h
          | posInf => exact ih h

/-- One round: each count grows to the one read, and what is not finite is noticed. -/
theorem summarizeStep_eq_ok {st st' : MetricState} {record : MetricRecord}
    (h : summarizeStep ops st record = .ok st') :
    (∀ gate : CountGate, ∃ value, metricValue ops.fmt record.data gate.keys = .ok value ∧
      st'.count gate = pyMax (st.count gate) (orZero value)) ∧
    st'.nonFinite = (st.nonFinite || hasNonFinite record.data) := by
  obtain ⟨nonFinite, hnonFinite, h⟩ := Checked.bind_eq_ok_iff.mp h
  obtain ⟨_, -, h⟩ := Checked.bind_eq_ok_iff.mp h
  obtain ⟨_, -, h⟩ := Checked.bind_eq_ok_iff.mp h
  obtain ⟨_, -, h⟩ := Checked.bind_eq_ok_iff.mp h
  obtain ⟨_, -, h⟩ := Checked.bind_eq_ok_iff.mp h
  obtain ⟨_, -, h⟩ := Checked.bind_eq_ok_iff.mp h
  obtain ⟨_, -, h⟩ := Checked.bind_eq_ok_iff.mp h
  obtain ⟨leak, hleak, h⟩ := Checked.bind_eq_ok_iff.mp h
  obtain ⟨promptTrunc, hpromptTrunc, h⟩ := Checked.bind_eq_ok_iff.mp h
  obtain ⟨signFlip, hsignFlip, h⟩ := Checked.bind_eq_ok_iff.mp h
  rw [← Except.ok.inj h]
  constructor
  · intro gate
    cases gate with
    | piLeak => exact ⟨leak, hleak, rfl⟩
    | piPromptTruncation => exact ⟨promptTrunc, hpromptTrunc, rfl⟩
    | signFlip => exact ⟨signFlip, hsignFlip, rfl⟩
  · rw [← anyNonFinite_eq_ok hnonFinite]

theorem pyMax_fin (a b : ℚ) : pyMax (.fin a) (.fin b) = .fin (max a b) := by
  unfold pyMax
  rw [PyFloat.lt_fin]
  by_cases h : a < b
  · rw [if_pos (decide_eq_true h), max_eq_right h.le]
  · rw [if_neg (by simpa using h), max_eq_left (not_lt.mp h)]

/-- After some records each count is a number, positive exactly when one of them has a positive
count. -/
structure GatesOf (ops : FloatOps) (done : List MetricRecord) (st : MetricState) : Prop where
  count : ∀ gate : CountGate, ∃ q : ℚ, st.count gate = .fin q ∧
    (0 < q ↔ ∃ r ∈ done, readsPositive ops.fmt gate r.data = true)
  nonFinite : st.nonFinite = true ↔ ∃ r ∈ done, hasNonFinite r.data = true

theorem gatesOf_step {done : List MetricRecord} {st st' : MetricState} {record : MetricRecord}
    (hdone : GatesOf ops done st) (h : summarizeStep ops st record = .ok st') :
    GatesOf ops (done ++ [record]) st' := by
  obtain ⟨hcount, hnonFinite⟩ := summarizeStep_eq_ok h
  constructor
  · intro gate
    obtain ⟨value, hvalue, hnew⟩ := hcount gate
    obtain ⟨q, hq, hiff⟩ := hdone.count gate
    have hread : ∃ a : ℚ, orZero value = .fin a ∧
        (0 < a ↔ readsPositive ops.fmt gate record.data = true) := by
      unfold readsPositive
      rw [hvalue]
      cases value with
      | none => exact ⟨0, rfl, by simp⟩
      | some x =>
          obtain ⟨a, rfl⟩ := metricValue_finite hvalue
          exact ⟨a, rfl, by simp⟩
    obtain ⟨a, ha, haiff⟩ := hread
    refine ⟨max q a, ?_, ?_⟩
    · rw [hnew, hq, ha, pyMax_fin]
    · rw [lt_max_iff, hiff, haiff]
      constructor
      · rintro (⟨r, hr, hpos⟩ | hpos)
        · exact ⟨r, List.mem_append_left _ hr, hpos⟩
        · exact ⟨record, List.mem_append_right _ List.mem_cons_self, hpos⟩
      · rintro ⟨r, hr, hpos⟩
        rcases List.mem_append.mp hr with hr | hr
        · exact .inl ⟨r, hr, hpos⟩
        · rw [List.mem_singleton.mp hr] at hpos
          exact .inr hpos
  · rw [hnonFinite, Bool.or_eq_true, hdone.nonFinite]
    constructor
    · rintro (⟨r, hr, hbad⟩ | hbad)
      · exact ⟨r, List.mem_append_left _ hr, hbad⟩
      · exact ⟨record, List.mem_append_right _ List.mem_cons_self, hbad⟩
    · rintro ⟨r, hr, hbad⟩
      rcases List.mem_append.mp hr with hr | hr
      · exact .inl ⟨r, hr, hbad⟩
      · rw [List.mem_singleton.mp hr] at hbad
        exact .inr hbad

theorem gatesOf_empty : GatesOf ops [] .empty where
  count gate := ⟨0, by cases gate <;> rfl, by simp⟩
  nonFinite := by simp [MetricState.empty]

theorem mem_violations_count {st : MetricState} {gate : CountGate} :
    .count gate ∈ (summaryOf ops st).violations ↔ (PyFloat.fin 0).lt (st.count gate) = true := by
  cases gate <;> simp [summaryOf, gateVerdicts, MetricState.count]

theorem mem_violations_nonFinite {st : MetricState} :
    .nonFiniteMetric ∈ (summaryOf ops st).violations ↔ st.nonFinite = true := by
  simp [summaryOf, gateVerdicts]

/-- The records that raise a counting gate, and those that raise the finiteness gate. -/
theorem summarizeMetrics_gates {records : List MetricRecord} {summary : MetricSummary}
    (h : summarizeMetrics ops records = .ok summary) :
    (∀ gate, .count gate ∈ summary.violations ↔
      ∃ r ∈ records, readsPositive ops.fmt gate r.data = true) ∧
    (.nonFiniteMetric ∈ summary.violations ↔ ∃ r ∈ records, hasNonFinite r.data = true) := by
  obtain ⟨st, hst, h⟩ := Checked.bind_eq_ok_iff.mp h
  have hgates : GatesOf ops records st :=
    Checked.foldlM_invariant (GatesOf ops) (fun _ _ _ _ => gatesOf_step) gatesOf_empty hst
  rw [← Except.ok.inj h]
  constructor
  · intro gate
    obtain ⟨q, hq, hiff⟩ := hgates.count gate
    rw [mem_violations_count, hq, PyFloat.lt_fin, decide_eq_true_iff, hiff]
  · rw [mem_violations_nonFinite, hgates.nonFinite]

/-! ### Records with machine integers -/

theorem exists_toFloat (fmt : FloatFormat) {v : Json} (h : v.intsFit = true) :
    ∃ scalar, toFloat fmt v = .ok scalar := by
  cases v with
  | int n =>
      rw [Json.intsFit, Bool.and_eq_true, decide_eq_true_iff, decide_eq_true_iff] at h
      obtain ⟨q, hq⟩ := fmt.exists_round_int h.1 h.2
      refine ⟨some (.fin q), ?_⟩
      rw [toFloat, hq]
  | null => exact ⟨_, rfl⟩
  | bool b => exact ⟨_, rfl⟩
  | float x => exact ⟨_, rfl⟩
  | str s => exact ⟨_, rfl⟩
  | arr xs => exact ⟨_, rfl⟩
  | obj fields => exact ⟨_, rfl⟩

theorem exists_metricValue (fmt : FloatFormat) {data : Row} (h : Json.intsFitObj data = true)
    (keys : List PyStr) : ∃ value, metricValue fmt data keys = .ok value := by
  induction keys with
  | nil => exact ⟨none, rfl⟩
  | cons key keys ih =>
      unfold metricValue
      split
      · exact ih
      · next v hget =>
          have hfit := Json.intsFit_of_mem h (Row.mem_of_get? hget)
          obtain ⟨scalar, hscalar⟩ := exists_toFloat fmt hfit
          rw [hscalar]
          cases scalar with
          | none => exact ih
          | some x => cases x with
            | fin q => exact ⟨_, rfl⟩
            | nan => exact ih
            | negInf => exact ih
            | posInf => exact ih

theorem exists_anyNonFinite (ops : FloatOps) {data : Row} (h : Json.intsFitObj data = true) :
    ∃ b, anyNonFinite ops data = .ok b := by
  induction data with
  | nil => exact ⟨false, rfl⟩
  | cons p data ih =>
      obtain ⟨k, v⟩ := p
      rw [Json.intsFitObj, Bool.and_eq_true] at h
      obtain ⟨scalar, hscalar⟩ := exists_toFloat ops.fmt h.1
      obtain ⟨rest, hrest⟩ := ih h.2
      rw [anyNonFinite, hscalar, hrest]
      exact ⟨_, rfl⟩

/-- Records with machine integers are summarised. -/
theorem exists_summarizeMetrics (ops : FloatOps) {records : List MetricRecord}
    (h : ∀ r ∈ records, Json.intsFitObj r.data = true) :
    ∃ summary, summarizeMetrics ops records = .ok summary := by
  have hstep : ∀ r ∈ records, ∀ st, ∃ st', summarizeStep ops st r = .ok st' := by
    intro r hr st
    choose value hvalue using exists_metricValue ops.fmt (h r hr)
    obtain ⟨nonFinite, hnonFinite⟩ := exists_anyNonFinite ops (h r hr)
    unfold summarizeStep
    simp only [hnonFinite, hvalue, bind, Except.bind]
    exact ⟨_, rfl⟩
  obtain ⟨st, hst⟩ := Checked.exists_foldlM_eq_ok hstep .empty
  unfold summarizeMetrics
  rw [hst]
  exact ⟨_, rfl⟩

end gates

end ExtpiRlsd
