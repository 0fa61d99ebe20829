import ExtpiRlsd.Lib.Windows
import ExtpiRlsd.MetricLog

/-! # The hard gates over windows

Which records raise the gates of `summarizeMetrics` that look at consecutive records.  A summary
exists exactly when every integer metric is a float (`summarizeMetrics_eq`), and its accumulated
lists are the reports of the records in order, so the gates are statements about windows of the
log.

The clip gate leaves out the records that report zero for both ratios, which moves their
neighbours together; `windowGatesExact_iff` says when it fires all the same as a gate over all
reports would. -/

namespace ExtpiRlsd

open PyText PyData Windows

/-! ### What a record reports -/

section reports
variable (fmt : FloatFormat)

/-- The number that a finite float is. -/
def finitePart : PyFloat → Option ℚ
  | .fin q => some q
  | _ => none

/-- The finite number behind a value. -/
def finiteNumber : Json → Option ℚ
  | .bool b => some (if b then 1 else 0)
  | .int n => match fmt.round n with
    | .fin q => some q
    | _ => none
  | .float (.fin q) => some q
  | _ => none

/-- The finite number under the first of the keys that has one. -/
def reported (data : Row) : List PyStr → Option ℚ
  | [] => none
  | key :: keys => match (Row.get? key data).bind (finiteNumber fmt) with
    | some q => some q
    | none => reported data keys

/-- The value is no integer too large for a float. -/
def ValueConverts (v : Json) : Prop := ∀ n, v = .int n → ∃ q, fmt.round n = .fin q

/-- No integer of the record is too large for a float. -/
def Converts (data : Row) : Prop := ∀ item ∈ data, ValueConverts fmt item.2

def clipLowKeys : List PyStr := ["actor/rlsd/clip_low_ratio".toList, "rlsd/clip_low_ratio".toList]

def clipHighKeys : List PyStr :=
  ["actor/rlsd/clip_high_ratio".toList, "rlsd/clip_high_ratio".toList]

def truncationKeys : List PyStr :=
  ["response_length/clip_ratio".toList, "train/truncation_proxy_last_token_ratio".toList]

def gradKeys : List PyStr := ["actor/grad_norm".toList]

/-- The two clip ratios of a record that reports one of them; a missing one counts as zero. -/
def clipReport (data : Row) : Option (ℚ × ℚ) :=
  match reported fmt data clipLowKeys, reported fmt data clipHighKeys with
  | none, none => none
  | low, high => some (low.getD 0, high.getD 0)

/-- `clip_low + clip_high`. -/
def clipTotal (report : ℚ × ℚ) : PyFloat := (PyFloat.fin report.1).add fmt (.fin report.2)

end reports

/-- `clip_low or clip_high`. -/
def isCounted (report : ℚ × ℚ) : Bool := decide (report.1 ≠ 0 ∨ report.2 ≠ 0)

section values
variable {fmt : FloatFormat} {data : Row}

/-- A value is read, or it is an integer too large for a float. -/
theorem toFloat_cases (fmt : FloatFormat) (v : Json) :
    (ValueConverts fmt v ∧ ∃ scalar, toFloat fmt v = .ok scalar ∧
      finiteNumber fmt v = scalar.bind finitePart) ∨
    (¬ ValueConverts fmt v ∧ toFloat fmt v = .error .overflowError) := by
  have hother : (∀ n, v ≠ .int n) → ValueConverts fmt v := fun h n hn => absurd hn (h n)
  cases v with
  | int n =>
      cases hround : fmt.round n with
      | fin q =>
          refine .inl ⟨?_, some (.fin q), by rw [toFloat, hround], by rw [finiteNumber, hround]; rfl⟩
          intro m hm
          rw [← Json.int.inj hm]
          exact ⟨q, hround⟩
      | nan => exact .inr ⟨by simp [ValueConverts, hround], by rw [toFloat, hround]⟩
      | negInf => exact .inr ⟨by simp [ValueConverts, hround], by rw [toFloat, hround]⟩
      | posInf => exact .inr ⟨by simp [ValueConverts, hround], by rw [toFloat, hround]⟩
  | float x => cases x <;> exact .inl ⟨hother (by simp), _, rfl, rfl⟩
  | bool b => exact .inl ⟨hother (by simp), _, rfl, rfl⟩
  | null => exact .inl ⟨hother (by simp), _, rfl, rfl⟩
  | str s => exact .inl ⟨hother (by simp), _, rfl, rfl⟩
  | arr xs => exact .inl ⟨hother (by simp), _, rfl, rfl⟩
  | obj fields => exact .inl ⟨hother (by simp), _, rfl, rfl⟩

theorem metricValue_of_converts (h : Converts fmt data) (keys : List PyStr) :
    metricValue fmt data keys = .ok ((reported fmt data keys).map .fin) := by
  induction keys with
  | nil => rfl
  | cons key keys ih =>
      unfold metricValue reported
      cases hget : Row.get? key data with
      | none => exact ih
      | some v =>
          have hv := h _ (Row.mem_of_get? hget)
          rcases toFloat_cases fmt v with ⟨-, scalar, hfloat, hnumber⟩ | ⟨hnot, -⟩
          · simp only [hfloat, Option.bind_some, hnumber]
            cases scalar with
            | none => exact ih
            | some x => cases x with
              | fin q => rfl
              | nan => exact ih
              | negInf => exact ih
              | posInf => exact ih
          · exact absurd hv hnot

/-- All values of a record are read, or one of its integers is too large for a float. -/
theorem anyNonFinite_cases (ops : FloatOps) (data : Row) :
    (Converts ops.fmt data ∧ anyNonFinite ops data = .ok (hasNonFinite data)) ∨
      (¬ Converts ops.fmt data ∧ anyNonFinite ops data = .error .overflowError) := by
  induction data with
  | nil => exact .inl ⟨nofun, rfl⟩
  | cons item data ih =>
      obtain ⟨key, v⟩ := item
      rw [Converts, List.forall_mem_cons, anyNonFinite]
      rcases toFloat_cases ops.fmt v with ⟨hv, scalar, hfloat, -⟩ | ⟨hv, hfloat⟩
      · rcases ih with ⟨hdata, hrest⟩ | ⟨hdata, hrest⟩
        · refine .inl ⟨⟨hv, hdata⟩, ?_⟩
          have hall : hasNonFinite ((key, v) :: data) = (nonFiniteScalar v || hasNonFinite data) :=
            List.any_cons
          rw [hfloat, hrest, hall, ← toFloat_eq_ok hfloat]
          rfl
        · refine .inr ⟨fun h => hdata h.2, ?_⟩
          rw [hfloat, hrest]
          rfl
      · refine .inr ⟨fun h => hv h.1, ?_⟩
        rw [hfloat]
        rfl

end values

/-! ### The accumulated reports -/

section accumulate
variable (ops : FloatOps)

/-- What a record adds to the accumulated values. -/
def MetricState.add (st : MetricState) (data : Row) : MetricState where
  groupValues := st.groupValues ++
    ((reported ops.fmt data ["train/group_nonzero_std_ratio".toList]).map .fin).toList
  weightStdValues := st.weightStdValues ++ ((reported ops.fmt data
    ["actor/rlsd/weight_std".toList, "rlsd/weight_std".toList]).map .fin).toList
  clipTotals := st.clipTotals ++
    ((clipReport ops.fmt data).toList.filter isCounted).map (clipTotal ops.fmt)
  truncationValues := st.truncationValues ++
    ((reported ops.fmt data truncationKeys).map .fin).toList
  gradValues := st.gradValues ++ ((reported ops.fmt data gradKeys).map .fin).toList
  leakCount := pyMax st.leakCount (.fin ((reported ops.fmt data CountGate.piLeak.keys).getD 0))
  promptTruncCount := pyMax st.promptTruncCount
    (.fin ((reported ops.fmt data CountGate.piPromptTruncation.keys).getD 0))
  signFlipCount := pyMax st.signFlipCount
    (.fin ((reported ops.fmt data CountGate.signFlip.keys).getD 0))
  nonFinite := st.nonFinite || hasNonFinite data

theorem orZero_map_fin (value : Option ℚ) : orZero (value.map .fin) = .fin (value.getD 0) := by
  cases value with
  | none => rfl
  | some q => rfl

/-- The loop body appends the total of a counted report. -/
theorem clipTotal_report (fmt : FloatFormat) (data : Row) :
    ((clipReport fmt data).toList.filter isCounted).map (clipTotal fmt) =
      if (PyFloat.fin ((reported fmt data clipLowKeys).getD 0)).truthy ||
          (PyFloat.fin ((reported fmt data clipHighKeys).getD 0)).truthy then
        [(PyFloat.fin ((reported fmt data clipLowKeys).getD 0)).add fmt
          (.fin ((reported fmt data clipHighKeys).getD 0))]
      else [] := by
  have htruthy : ∀ a b : ℚ, ((PyFloat.fin a).truthy || (PyFloat.fin b).truthy) =
      isCounted (a, b) := by
    intro a b
    simp [PyFloat.truthy, isCounted]
  have hcounted : ∀ report : ℚ × ℚ, ([report].filter isCounted).map (clipTotal fmt) =
      if isCounted report then [clipTotal fmt report] else [] := by
    intro report
    rw [List.filter_cons, List.filter_nil]
    split <;> rfl
  rw [htruthy, clipReport]
  cases reported fmt data clipLowKeys with
  | none => cases reported fmt data clipHighKeys with
    | none => rfl
    | some b => exact hcounted (0, b)
  | some a => exact hcounted (a, _)

/-- One round of the loop, for every record. -/
theorem summarizeStep_cases (st : MetricState) (record : MetricRecord) :
    (Converts ops.fmt record.data ∧
      summarizeStep ops st record = .ok (st.add ops record.data)) ∨
    (¬ Converts ops.fmt record.data ∧
      summarizeStep ops st record = .error .overflowError) := by
  rcases anyNonFinite_cases ops record.data with ⟨h, hany⟩ | ⟨h, hany⟩
  · refine .inl ⟨h, ?_⟩
    unfold summarizeStep MetricState.add
    rw [clipTotal_report]
    simp only [hany, metricValue_of_converts h, bind, Except.bind, orZero_map_fin]
    rfl
  · refine .inr ⟨h, ?_⟩
    unfold summarizeStep
    simp only [hany]
    rfl

/-- The accumulated values of some records. -/
def stateOf (records : List MetricRecord) : MetricState :=
  records.foldl (fun st record => st.add ops record.data) .empty

/-- **The summary of a log.**  It exists exactly when no integer metric is too large for a
float. -/
theorem summarizeMetrics_cases (records : List MetricRecord) :
    ((∀ r ∈ records, Converts ops.fmt r.data) ∧
      summarizeMetrics ops records = .ok (summaryOf ops (stateOf ops records))) ∨
    (¬ (∀ r ∈ records, Converts ops.fmt r.data) ∧
      summarizeMetrics ops records = .error .overflowError) := by
  have hfold : ∀ (rs : List MetricRecord) (st : MetricState),
      ((∀ r ∈ rs, Converts ops.fmt r.data) ∧ rs.foldlM (summarizeStep ops) st =
        .ok (rs.foldl (fun st record => st.add ops record.data) st)) ∨
      (¬ (∀ r ∈ rs, Converts ops.fmt r.data) ∧
        rs.foldlM (summarizeStep ops) st = .error .overflowError) := by
    intro rs
    induction rs with
    | nil => exact fun st => .inl ⟨nofun, rfl⟩
    | cons r rs ih =>
        intro st
        rw [List.forall_mem_cons, List.foldlM_cons]
        rcases summarizeStep_cases ops st r with ⟨hr, hstep⟩ | ⟨hr, hstep⟩
        · rw [hstep]
          rcases ih (st.add ops r.data) with ⟨hrs, hrest⟩ | ⟨hrs, hrest⟩
          · exact .inl ⟨⟨hr, hrs⟩, hrest⟩
          · exact .inr ⟨fun h => hrs h.2, hrest⟩
        · rw [hstep]
          exact .inr ⟨fun h => hr h.1, rfl⟩
  unfold summarizeMetrics
  rcases hfold records .empty with ⟨h, hrest⟩ | ⟨h, hrest⟩
  · refine .inl ⟨h, ?_⟩
    rw [hrest]
    rfl
  · refine .inr ⟨h, ?_⟩
    rw [hrest]
    rfl

end accumulate

section lists
variable (ops : FloatOps)

/-- The clip reports of the records that have one, in order. -/
def clipReports (fmt : FloatFormat) (records : List MetricRecord) : List (ℚ × ℚ) :=
  records.filterMap fun r => clipReport fmt r.data

/-- The finite numbers that the records report under the keys, in order. -/
def reports (fmt : FloatFormat) (keys : List PyStr) (records : List MetricRecord) : List ℚ :=
  records.filterMap fun r => reported fmt r.data keys

theorem stateOf_append_singleton (records : List MetricRecord) (r : MetricRecord) :
    stateOf ops (records ++ [r]) = (stateOf ops records).add ops r.data := by
  rw [stateOf, List.foldl_append]
  rfl

theorem filterMap_append_singleton {α β : Type*} (f : α → Option β) (xs : List α) (x : α) :
    (xs ++ [x]).filterMap f = xs.filterMap f ++ (f x).toList := by
  rw [List.filterMap_append, List.filterMap_cons, List.filterMap_nil]
  cases f x <;> rfl

theorem stateOf_clipTotals (records : List MetricRecord) : (stateOf ops records).clipTotals =
    ((clipReports ops.fmt records).filter isCounted).map (clipTotal ops.fmt) := by
  induction records using List.reverseRecOn with
  | nil => rfl
  | append_singleton records r ih =>
      rw [stateOf_append_singleton, clipReports, filterMap_append_singleton, List.filter_append,
        List.map_append, MetricState.add, ih, clipReports]

theorem stateOf_truncationValues (records : List MetricRecord) :
    (stateOf ops records).truncationValues =
      (reports ops.fmt truncationKeys records).map .fin := by
  induction records using List.reverseRecOn with
  | nil => rfl
  | append_singleton records r ih =>
      rw [stateOf_append_singleton, reports, filterMap_append_singleton, List.map_append,
        MetricState.add, ih, reports]
      cases reported ops.fmt r.data truncationKeys <;> rfl

theorem stateOf_gradValues (records : List MetricRecord) :
    (stateOf ops records).gradValues = (reports ops.fmt gradKeys records).map .fin := by
  induction records using List.reverseRecOn with
  | nil => rfl
  | append_singleton records r ih =>
      rw [stateOf_append_singleton, reports, filterMap_append_singleton, List.map_append,
        MetricState.add, ih, reports]
      cases reported ops.fmt r.data gradKeys <;> rfl

end lists

/-! ### Windows -/

section windows
variable {ops : FloatOps}

/-- `_rolling_violation` looks at every window. -/
theorem rollingViolation_iff {threshold : PyFloat} {window : ℕ} {values : List PyFloat} :
    rollingViolation ops threshold window values = true ↔
      HasWindow window (fun w => threshold.lt (meanOf ops w) = true) values := by
  unfold rollingViolation
  by_cases h : values.length < window
  · rw [if_pos h]
    exact iff_of_false Bool.false_ne_true (not_hasWindow_of_length_lt h)
  · rw [if_neg h]
    exact any_range_iff (p := fun w => threshold.lt (meanOf ops w)) (not_lt.mp h)

theorem eq_zero_iff {x : PyFloat} : x.eq (.fin 0) = true ↔ x = .fin 0 := by
  cases x <;> simp [PyFloat.eq]

/-- The streak counter finds a run of zeros that may begin with the zeros before the list. -/
theorem zeroGradFrom_iff {window streak : ℕ} {values : List PyFloat} (h : streak < window) :
    zeroGradFrom window streak values = true ↔
      HasWindow window (fun w => ∀ x ∈ w, x = .fin 0)
        (List.replicate streak (.fin 0) ++ values) := by
  induction values generalizing streak with
  | nil =>
      rw [List.append_nil]
      exact iff_of_false Bool.false_ne_true
        (not_hasWindow_of_length_lt (by rw [List.length_replicate]; exact h))
  | cons value values ih =>
      rw [zeroGradFrom]
      by_cases hzero : value.eq (.fin 0) = true
      · obtain rfl := eq_zero_iff.mp hzero
        have hjoin : List.replicate streak (.fin 0) ++ PyFloat.fin 0 :: values =
            List.replicate (streak + 1) (.fin 0) ++ values := by
          rw [List.replicate_succ', List.append_assoc]
          rfl
        rw [if_pos hzero, hjoin]
        by_cases hfull : window ≤ streak + 1
        · rw [if_pos hfull]
          refine iff_of_true rfl ⟨List.replicate (streak + 1) (.fin 0),
            (List.prefix_append _ _).isInfix, ?_, ?_⟩
          · rw [List.length_replicate]
            omega
          · intro x hx
            exact List.eq_of_mem_replicate hx
        · rw [if_neg hfull]
          apply ih
          omega
      · rw [if_neg hzero, hasWindow_replicate_append_cons h (mt eq_zero_iff.mpr hzero)]
        exact ih (by omega)

theorem zeroGradViolation_iff {window : ℕ} {values : List PyFloat} (h : 0 < window) :
    zeroGradViolation window values = true ↔
      HasWindow window (fun w => ∀ x ∈ w, x = .fin 0) values := zeroGradFrom_iff h

theorem mem_violations {st : MetricState} {gate : HardGate} :
    gate ∈ (summaryOf ops st).violations ↔ (gate, true) ∈ gateVerdicts ops st := by
  simp [summaryOf]

end windows

/-! ### When the gates fire -/

section gates
variable (ops : FloatOps) (records : List MetricRecord)

/-- The mean of the clip totals lies above `0.25`. -/
def HotClip (w : List (ℚ × ℚ)) : Prop :=
  (PyFloat.fin (1 / 4)).lt (meanOf ops (w.map (clipTotal ops.fmt))) = true

instance (w : List (ℚ × ℚ)) : Decidable (HotClip ops w) := inferInstanceAs (Decidable (_ = true))

/-- The mean of the truncation ratios lies above `0.20`. -/
def HotTruncation (w : List ℚ) : Prop := fifth.lt (meanOf ops (w.map .fin)) = true

/-- The three gates are raised as the windows of the reports say. -/
structure WindowGates (summary : MetricSummary) : Prop where
  clip : .rlsdClipTotal ∈ summary.violations ↔
    HasWindow 5 (HotClip ops) (clipReports ops.fmt records)
  truncation : .responseTruncation ∈ summary.violations ↔
    HasWindow 5 (HotTruncation ops) (reports ops.fmt truncationKeys records)
  zeroGrad : .zeroGradNorm ∈ summary.violations ↔
    HasWindow 5 (fun w => ∀ x ∈ w, x = 0) (reports ops.fmt gradKeys records)

/-- A window of counted reports is hot; or the windows with an uncounted report and the stretches
of five counted ones around an uncounted one are hot together. -/
def ClipWindowsAgree : Prop :=
  HasWindow 5 (fun w => (∀ p ∈ w, isCounted p = true) ∧ HotClip ops w)
      (clipReports ops.fmt records) ∨
    (HasWindow 5 (fun w => ¬ (∀ p ∈ w, isCounted p = true) ∧ HotClip ops w)
        (clipReports ops.fmt records) ↔
      ∃ u, u <:+: clipReports ops.fmt records ∧ ¬ (∀ p ∈ u, isCounted p = true) ∧
        (u.filter isCounted).length = 5 ∧ HotClip ops (u.filter isCounted))

end gates

section exact
variable {ops : FloatOps} {records : List MetricRecord}

theorem clip_mem_iff : .rlsdClipTotal ∈ (summaryOf ops (stateOf ops records)).violations ↔
    HasWindow 5 (HotClip ops) ((clipReports ops.fmt records).filter isCounted) := by
  have hverdict : (.rlsdClipTotal, true) ∈ gateVerdicts ops (stateOf ops records) ↔
      rollingViolation ops (.fin (1 / 4)) 5 (stateOf ops records).clipTotals = true := by
    simp [gateVerdicts]
  rw [mem_violations, hverdict, rollingViolation_iff, stateOf_clipTotals, hasWindow_map]
  rfl

theorem truncation_mem_iff :
    .responseTruncation ∈ (summaryOf ops (stateOf ops records)).violations ↔
      HasWindow 5 (HotTruncation ops) (reports ops.fmt truncationKeys records) := by
  have hverdict : (.responseTruncation, true) ∈ gateVerdicts ops (stateOf ops records) ↔
      rollingViolation ops fifth 5 (stateOf ops records).truncationValues = true := by
    simp [gateVerdicts]
  rw [mem_violations, hverdict, rollingViolation_iff, stateOf_truncationValues, hasWindow_map]
  rfl

theorem zeroGrad_mem_iff : .zeroGradNorm ∈ (summaryOf ops (stateOf ops records)).violations ↔
    HasWindow 5 (fun w => ∀ x ∈ w, x = 0) (reports ops.fmt gradKeys records) := by
  have hverdict : (.zeroGradNorm, true) ∈ gateVerdicts ops (stateOf ops records) ↔
      zeroGradViolation 5 (stateOf ops records).gradValues = true := by
    simp [gateVerdicts]
  rw [mem_violations, hverdict, zeroGradViolation_iff (Nat.succ_pos 4), stateOf_gradValues,
    hasWindow_map]
  simp

/-- The windows of the counted reports are windows without an uncounted report, or stretches
around one. -/
theorem hasWindow_filter_isCounted (l : List (ℚ × ℚ)) :
    HasWindow 5 (HotClip ops) (l.filter isCounted) ↔
      HasWindow 5 (fun w => (∀ p ∈ w, isCounted p = true) ∧ HotClip ops w) l ∨
      ∃ u, u <:+: l ∧ ¬ (∀ p ∈ u, isCounted p = true) ∧
        (u.filter isCounted).length = 5 ∧ HotClip ops (u.filter isCounted) := by
  constructor
  · rintro ⟨w, hw, hlength, hhot⟩
    obtain ⟨u, hu, rfl⟩ := infix_filter_iff.mp hw
    by_cases hall : ∀ p ∈ u, isCounted p = true
    · rw [List.filter_eq_self.mpr hall] at hlength hhot
      exact .inl ⟨u, hu, hlength, hall, hhot⟩
    · exact .inr ⟨u, hu, hall, hlength, hhot⟩
  · rintro (⟨w, hw, hlength, hall, hhot⟩ | ⟨u, hu, -, hlength, hhot⟩)
    · exact ⟨w, infix_filter_iff.mpr ⟨w, hw, List.filter_eq_self.mpr hall⟩, hlength, hhot⟩
    · exact ⟨u.filter isCounted, infix_filter_iff.mpr ⟨u, hu, rfl⟩, hlength, hhot⟩

end exact

/-- A record with the two clip ratios. -/
def clipRecord (low high : ℚ) : MetricRecord := ⟨.null, [
  ("actor/rlsd/clip_low_ratio".toList, .float (.fin low)),
  ("actor/rlsd/clip_high_ratio".toList, .float (.fin high))]⟩

/-- Four of five records clip everything, the one between them clips nothing. -/
def clippedLog : List MetricRecord :=
  [clipRecord 0 1, clipRecord 0 1, clipRecord 0 0, clipRecord 0 1, clipRecord 0 1]

section longer
variable {ops : FloatOps} {a b c records records' : List MetricRecord}

/-- What is reported on a part of a log is reported on the log, if both have summaries. -/
theorem mem_violations_of_infix (h : records <:+: records') {summary summary' : MetricSummary}
    (hsummary : summarizeMetrics ops records = .ok summary)
    (hsummary' : summarizeMetrics ops records' = .ok summary') {gate : HardGate}
    (hgate : gate ∈ summary.violations) : gate ∈ summary'.violations := by
  obtain ⟨hcounts, hfinite⟩ := summarizeMetrics_gates hsummary
  obtain ⟨hcounts', hfinite'⟩ := summarizeMetrics_gates hsummary'
  have hstate : ∀ {rs : List MetricRecord} {sm : MetricSummary},
      summarizeMetrics ops rs = .ok sm → sm = summaryOf ops (stateOf ops rs) := by
    intro rs sm hrs
    rcases summarizeMetrics_cases ops rs with ⟨-, hok⟩ | ⟨-, herror⟩
    · exact Except.ok.inj (hrs.symm.trans hok)
    · cases hrs.symm.trans herror
  cases gate with
  | count gate =>
      obtain ⟨r, hr, hpos⟩ := (hcounts gate).mp hgate
      exact (hcounts' gate).mpr ⟨r, h.mem hr, hpos⟩
  | nonFiniteMetric =>
      obtain ⟨r, hr, hbad⟩ := hfinite.mp hgate
      exact hfinite'.mpr ⟨r, h.mem hr, hbad⟩
  | rlsdClipTotal =>
      rw [hstate hsummary, clip_mem_iff] at hgate
      rw [hstate hsummary', clip_mem_iff]
      exact hgate.mono ((h.filterMap _).filter _)
  | responseTruncation =>
      rw [hstate hsummary, truncation_mem_iff] at hgate
      rw [hstate hsummary', truncation_mem_iff]
      exact hgate.mono (h.filterMap _)
  | zeroGradNorm =>
      rw [hstate hsummary, zeroGrad_mem_iff] at hgate
      rw [hstate hsummary', zeroGrad_mem_iff]
      exact hgate.mono (h.filterMap _)

end longer

/-- A record with a gradient norm. -/
def gradRecord (q : ℚ) : MetricRecord := ⟨.null, [("actor/grad_norm".toList, .float (.fin q))]⟩

/-- Arithmetic without rounding up to a bound, and infinities from there on. -/
def cappedFormat (bound : ℚ) (hbound : 2 ^ 64 ≤ bound) : FloatFormat where
  round q := if bound ≤ q then .posInf else if q ≤ -bound then .negInf else .fin q
  round_mono a b h := by
    by_cases hb : bound ≤ b
    · rw [if_pos hb]
      split_ifs <;> rfl
    · rw [if_neg hb, if_neg (by linarith)]
      by_cases ha : a ≤ -bound
      · rw [if_pos ha]
        split_ifs <;> rfl
      · rw [if_neg ha, if_neg (by linarith)]
        exact decide_eq_true h
  round_small n hn := by
    have hn : (n : ℚ) ≤ 2 ^ 53 := by exact_mod_cast hn
    have hlow : (0 : ℚ) ≤ n := Nat.cast_nonneg n
    rw [if_neg (by linarith), if_neg (by linarith)]
  round_neg q := by
    norm_num at hbound
    by_cases h : bound ≤ q
    · rw [if_neg (by linarith), if_pos (by linarith), if_pos h]
      rfl
    · by_cases h' : q ≤ -bound
      · rw [if_pos (by linarith), if_neg h, if_pos h']
        rfl
      · rw [if_neg (by linarith), if_neg (by linarith), if_neg h, if_neg h']
        rfl
  round_pos n hn hhigh := by
    have hn : (0 : ℚ) < n := by exact_mod_cast hn
    have hhigh : (n : ℚ) < 2 ^ 64 := by exact_mod_cast hhigh
    refine ⟨n, hn, ?_⟩
    rw [if_neg (by linarith), if_neg (by linarith)]

/-- Infinities where the machine's floats end. -/
def overflowFormat : FloatFormat :=
  cappedFormat (2 ^ 1024) (pow_le_pow_right₀ one_le_two (Nat.le_of_ble_eq_true rfl))

/-- Sums in that format. -/
def overflowOps : FloatOps := ⟨overflowFormat, List.foldr (PyFloat.add overflowFormat) (.fin 0)⟩

/-- An integer beyond the floats. -/
def hugeRecord : MetricRecord := ⟨.null, [("val/count".toList, .int (10 ^ 400))]⟩

/-- A record with a leak. -/
def leakRecord : MetricRecord :=
  ⟨.null, [("privacy/student_prompt_pi_leak_count".toList, .int 1)]⟩

end ExtpiRlsd
