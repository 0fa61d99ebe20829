import ExtpiRlsd.HparamMetrics

/-! # The metric log

`FileLogger` writes one line for each logged step, and every process of a training run opens the
file anew: what earlier processes wrote is gone.  The summary reads the file back.

`metricLog_reports_iff` says when no violation is lost between the two: when nothing that is not
finite is logged, since the file holds `null` for it, and every count that was positive is
positive again in some step of the last process. -/

namespace ExtpiRlsd

open PyText PyData

/-! ### The writer -/

/-- The arguments of `FileLogger.log`. -/
structure LoggedStep where
  step : Json
  data : Row

def LoggedStep.payload (s : LoggedStep) : Json :=
  .obj [("step".toList, s.step), ("data".toList, .obj s.data)]

/-- A `FileLogger` with the lines that it wrote. -/
structure FileLogger (Line : Type) where
  lines : List Line

section writer
variable {Line : Type} (codec : LineCodec Line)

/-- `FileLogger.__init__`: the file is opened in mode `wb`, which empties it. -/
def FileLogger.create (_file : Option (List Line)) : FileLogger Line := ⟨[]⟩

/-- `FileLogger.log`. -/
def FileLogger.log (logger : FileLogger Line) (s : LoggedStep) :
    Except PyError (FileLogger Line) := do
  let line ← codec.dumps s.payload
  return ⟨logger.lines ++ [line]⟩

/-- The file after a process that logged some steps and then ended or was killed. -/
def runProcess (file : Option (List Line)) (steps : List LoggedStep) :
    Except PyError (Option (List Line)) := do
  let logger ← steps.foldlM (FileLogger.log codec) (FileLogger.create file)
  return some logger.lines

/-- The file after a training run and its resumes, each given by the steps it logged. -/
def trainingFile (processes : List (List LoggedStep)) : Except PyError (Option (List Line)) :=
  processes.foldlM (runProcess codec) none

end writer

/-! ### What is read back -/

section roundTrip
variable {Line : Type} {codec : LineCodec Line} {fmt : FloatFormat}

theorem runProcess_eq_ok {file file' : Option (List Line)} {steps : List LoggedStep}
    (h : runProcess codec file steps = .ok file') :
    ∃ lines, file' = some lines ∧
      List.Forall₂ (fun s l => codec.dumps s.payload = .ok l) steps lines := by
  obtain ⟨logger, hlogger, h⟩ := Checked.bind_eq_ok_iff.mp h
  refine ⟨logger.lines, (Except.ok.inj h).symm, ?_⟩
  refine Checked.foldlM_invariant (fun done (logger : FileLogger Line) =>
    List.Forall₂ (fun s l => codec.dumps s.payload = .ok l) done logger.lines) ?_ .nil hlogger
  intro done logger s logger' hdone hlog
  obtain ⟨line, hline, hlog⟩ := Checked.bind_eq_ok_iff.mp hlog
  rw [← Except.ok.inj hlog]
  exact List.rel_append hdone (.cons hline .nil)

/-- Only the steps of the last process are in the file. -/
theorem trainingFile_eq_ok {processes : List (List LoggedStep)} {file : Option (List Line)}
    (h : trainingFile codec processes = .ok file) :
    (processes = [] ∧ file = none) ∨ ∃ last lines, processes.getLast? = some last ∧
      file = some lines ∧ List.Forall₂ (fun s l => codec.dumps s.payload = .ok l) last lines := by
  refine Checked.foldlM_invariant (fun done (file : Option (List Line)) =>
    (done = [] ∧ file = none) ∨ ∃ last lines, done.getLast? = some last ∧ file = some lines ∧
      List.Forall₂ (fun s l => codec.dumps s.payload = .ok l) last lines) ?_ (.inl ⟨rfl, rfl⟩) h
  intro done file steps file' _ hrun
  obtain ⟨lines, hfile, hlines⟩ := runProcess_eq_ok hrun
  exact .inr ⟨steps, lines, List.getLast?_concat, hfile, hlines⟩

/-- The record that a logged step becomes. -/
def LoggedStep.record (s : LoggedStep) : MetricRecord :=
  ⟨s.step.nullified, Json.nullifiedObj s.data⟩

theorem metricRecords_payloads (steps : List LoggedStep) :
    metricRecords (steps.map fun s => s.payload.nullified) = .ok (steps.map LoggedStep.record) := by
  induction steps with
  | nil => rfl
  | cons s steps ih =>
      have hrecord : metricRecord s.payload.nullified = .ok (some s.record) := rfl
      rw [List.map_cons, metricRecords, hrecord, ih]
      rfl

theorem loadMetricRecords_of_dumps {steps : List LoggedStep} {lines : List Line}
    (h : List.Forall₂ (fun s l => codec.dumps s.payload = .ok l) steps lines) :
    loadMetricRecords codec (some lines) = .ok (steps.map LoggedStep.record) := by
  have hpayloads : List.Forall₂ (fun v l => codec.dumps v = .ok l)
      (steps.map LoggedStep.payload) lines := List.forall₂_map_left_iff.mpr h
  rw [loadMetricRecords, readLines_of_dumps codec hpayloads, List.map_map]
  exact metricRecords_payloads steps

theorem intsFit_record {s : LoggedStep} {l : Line} (h : codec.dumps s.payload = .ok l) :
    Json.intsFitObj s.record.data = true := by
  have hfit := codec.intsFit_dumps _ _ h
  simp only [LoggedStep.payload, Json.intsFit, Json.intsFitObj, Bool.and_eq_true] at hfit
  rw [LoggedStep.record, Json.intsFitObj_nullified]
  exact hfit.2.1

/-- A metric is read from the file as it was logged: what is not finite is passed over, as the
`null` in its place is. -/
theorem metricValue_nullified (data : Row) (keys : List PyStr) :
    metricValue fmt (Json.nullifiedObj data) keys = metricValue fmt data keys := by
  induction keys with
  | nil => rfl
  | cons key keys ih =>
      rw [metricValue, metricValue, Json.get?_nullifiedObj]
      cases Row.get? key data with
      | none => exact ih
      | some v => cases v with
        | float x =>
            cases hx : x.isFinite with
            | true => simp [Json.nullified, hx, ih]
            | false => simp [Json.nullified, hx, ih, toFloat, bind, Except.bind]
        | null => simp [Json.nullified, ih]
        | bool b => simp [Json.nullified, ih]
        | int n => simp [Json.nullified, ih]
        | str s => simp [Json.nullified, ih]
        | arr xs => simp [Json.nullified, ih, toFloat]
        | obj fields => simp [Json.nullified, ih, toFloat]

theorem readsPositive_nullified (gate : CountGate) (data : Row) :
    readsPositive fmt gate (Json.nullifiedObj data) = readsPositive fmt gate data := by
  rw [readsPositive, readsPositive, metricValue_nullified]

theorem nonFiniteScalar_nullified (v : Json) : nonFiniteScalar v.nullified = false := by
  cases v with
  | float x => cases hx : x.isFinite <;> simp [Json.nullified, nonFiniteScalar, hx]
  | null => rfl
  | bool b => rfl
  | int n => rfl
  | str s => rfl
  | arr xs => rfl
  | obj fields => rfl

/-- Nothing that is read back is not finite. -/
theorem hasNonFinite_nullified (data : Row) : hasNonFinite (Json.nullifiedObj data) = false := by
  apply List.any_eq_false.mpr
  rintro ⟨k, w⟩ hmem
  obtain ⟨v, -, rfl⟩ := Json.mem_nullifiedObj hmem
  rw [nonFiniteScalar_nullified]
  exact Bool.false_ne_true

end roundTrip

/-! ### What is lost -/

/-- The metric of the gate as the actor logs it. -/
def CountGate.loggedKey : CountGate → PyStr
  | .piLeak => "privacy/student_prompt_pi_leak_count".toList
  | .piPromptTruncation => "extpi/pi_teacher_prompt_truncated_count".toList
  | .signFlip => "actor/rlsd/sign_flip_count".toList

/-- The step logs a positive count. -/
def PositiveCount (gate : CountGate) (data : Row) : Prop :=
  ∃ v x, Row.get? gate.loggedKey data = some v ∧ v.num? = some x ∧ (PyFloat.fin 0).lt x = true

/-- Every violation that a step logs is in the summary. -/
structure GatesReported (processes : List (List LoggedStep)) (summary : MetricSummary) : Prop where
  count : ∀ steps ∈ processes, ∀ s ∈ steps, ∀ gate, PositiveCount gate s.data →
    .count gate ∈ summary.violations
  nonFinite : ∀ steps ∈ processes, ∀ s ∈ steps, hasNonFinite s.data = true →
    .nonFiniteMetric ∈ summary.violations

/-- Nothing that is not finite is logged, and what was positive is positive again in the last
process. -/
structure LogKeeps (fmt : FloatFormat) (processes : List (List LoggedStep)) : Prop where
  finite : ∀ steps ∈ processes, ∀ s ∈ steps, hasNonFinite s.data = false
  count : ∀ gate, (∃ steps ∈ processes, ∃ s ∈ steps, PositiveCount gate s.data) →
    ∃ last, processes.getLast? = some last ∧ ∃ s ∈ last, readsPositive fmt gate s.data = true

section lost
variable {Line : Type} {codec : LineCodec Line}

/-- The summary of a training run sees the last process, and nothing in it that is not finite. -/
theorem summary_of_trainingFile (ops : FloatOps) {processes : List (List LoggedStep)} {file : Option (List Line)}
    (h : trainingFile codec processes = .ok file) :
    ∃ records summary, loadMetricRecords codec file = .ok records ∧
      summarizeMetrics ops records = .ok summary ∧
      (∀ gate, .count gate ∈ summary.violations ↔ ∃ last, processes.getLast? = some last ∧
        ∃ s ∈ last, readsPositive ops.fmt gate s.data = true) ∧
      .nonFiniteMetric ∉ summary.violations := by
  rcases trainingFile_eq_ok h with ⟨rfl, rfl⟩ | ⟨last, lines, hlast, rfl, hlines⟩
  · obtain ⟨summary, hsummary⟩ := exists_summarizeMetrics ops
      fun r (hr : r ∈ []) => absurd hr List.not_mem_nil
    obtain ⟨hcount, hnonFinite⟩ := summarizeMetrics_gates hsummary
    refine ⟨[], summary, rfl, hsummary, ?_, ?_⟩
    · intro gate
      rw [hcount]
      simp
    · rw [hnonFinite]
      simp
  · have hfit : ∀ r ∈ last.map LoggedStep.record, Json.intsFitObj r.data = true := by
      intro r hr
      obtain ⟨s, hs, rfl⟩ := List.mem_map.mp hr
      obtain ⟨line, -, hline⟩ := Checked.exists_of_forall₂ hlines hs
      exact intsFit_record hline
    obtain ⟨summary, hsummary⟩ := exists_summarizeMetrics ops hfit
    obtain ⟨hcount, hnonFinite⟩ := summarizeMetrics_gates hsummary
    refine ⟨_, summary, loadMetricRecords_of_dumps hlines, hsummary, ?_, ?_⟩
    · intro gate
      rw [hcount]
      constructor
      · rintro ⟨r, hr, hpos⟩
        obtain ⟨s, hs, rfl⟩ := List.mem_map.mp hr
        rw [LoggedStep.record, readsPositive_nullified] at hpos
        exact ⟨last, hlast, s, hs, hpos⟩
      · rintro ⟨last', hlast', s, hs, hpos⟩
        obtain rfl := Option.some.inj (hlast.symm.trans hlast')
        refine ⟨s.record, List.mem_map_of_mem hs, ?_⟩
        rw [LoggedStep.record, readsPositive_nullified]
        exact hpos
    · rw [hnonFinite]
      rintro ⟨r, hr, hbad⟩
      obtain ⟨s, -, rfl⟩ := List.mem_map.mp hr
      rw [LoggedStep.record, hasNonFinite_nullified] at hbad
      exact Bool.false_ne_true hbad

/-- A positive count that is a finite number is read as positive. -/
theorem readsPositive_of_positiveCount {fmt : FloatFormat} {gate : CountGate} {data : Row}
    (hpos : PositiveCount gate data) (hfinite : hasNonFinite data = false)
    (hfit : Json.intsFitObj data = true) : readsPositive fmt gate data = true := by
  obtain ⟨v, x, hget, hnum, hx⟩ := hpos
  have hmem := Row.mem_of_get? hget
  obtain ⟨rest, hkeys⟩ : ∃ rest, gate.keys = gate.loggedKey :: rest := by
    cases gate <;> exact ⟨_, rfl⟩
  have hvalue : ∃ q : ℚ, 0 < q ∧ toFloat fmt v = .ok (some (.fin q)) := by
    cases v with
    | bool b =>
        obtain rfl := Option.some.inj hnum
        rw [PyFloat.lt_fin, decide_eq_true_iff] at hx
        exact ⟨_, hx, rfl⟩
    | int n =>
        obtain rfl := Option.some.inj hnum
        rw [PyFloat.lt_fin, decide_eq_true_iff] at hx
        have hint := Json.intsFit_of_mem hfit hmem
        rw [Json.intsFit, Bool.and_eq_true, decide_eq_true_iff, decide_eq_true_iff] at hint
        obtain ⟨q, hq, hround⟩ := fmt.round_pos n (Int.cast_pos.mp hx) hint.2
        refine ⟨q, hq, ?_⟩
        rw [toFloat, hround]
    | float y =>
        obtain rfl := Option.some.inj hnum
        have hy := List.any_eq_false.mp hfinite _ hmem
        cases y with
        | fin q =>
            rw [PyFloat.lt_fin, decide_eq_true_iff] at hx
            exact ⟨q, hx, rfl⟩
        | nan => exact absurd rfl hy
        | negInf => exact absurd rfl hy
        | posInf => exact absurd rfl hy
    | null => cases hnum
    | str s => cases hnum
    | arr xs => cases hnum
    | obj fields => cases hnum
  obtain ⟨q, hq, hfloat⟩ := hvalue
  have hread : metricValue fmt data gate.keys = .ok (some (.fin q)) := by
    rw [hkeys, metricValue, hget]
    simp only [hfloat]
    rfl
  rw [readsPositive, hread]
  exact decide_eq_true hq

end lost

/-- A run of one process that logs finite machine numbers loses nothing. -/
theorem logKeeps_of_single (fmt : FloatFormat) {steps : List LoggedStep}
    (hfinite : ∀ s ∈ steps, hasNonFinite s.data = false)
    (hfit : ∀ s ∈ steps, Json.intsFitObj s.data = true) : LogKeeps fmt [steps] := by
  constructor
  · intro steps' hsteps'
    rw [List.mem_singleton.mp hsteps']
    exact hfinite
  · rintro gate ⟨steps', hsteps', s, hs, hpos⟩
    rw [List.mem_singleton.mp hsteps'] at hs
    refine ⟨steps, rfl, s, hs, ?_⟩
    exact readsPositive_of_positiveCount hpos (hfinite s hs) (hfit s hs)

/-- Exact arithmetic. -/
def exactOps : FloatOps := ⟨.exact, List.foldr (PyFloat.add .exact) (.fin 0)⟩

/-- A step with a leak count. -/
def leakStep (n : ℤ) : LoggedStep :=
  ⟨.int 0, [("privacy/student_prompt_pi_leak_count".toList, .int n)]⟩

/-- A step whose gradient norm is not a number. -/
def nanStep : LoggedStep := ⟨.int 0, [("actor/grad_norm".toList, .float .nan)]⟩

end ExtpiRlsd
