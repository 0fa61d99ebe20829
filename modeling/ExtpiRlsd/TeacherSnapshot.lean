import ExtpiRlsd.Lib.Effect
import Mathlib

/-! # The schedule of the teacher snapshot

`_maybe_sync_teacher_snapshot` and the scoring modes of the privileged teacher.  The worker call
of a sync may return or raise, and in either case may have changed the worker; the trainer writes
down the step of a sync only after the call has returned.

A run is a list of calls, each with its global step and its own worker call.  `observed` records
what became of every worker call, so the schedule is stated about the calls that the worker saw,
not about the trainer's own bookkeeping: `snapshotSchedule` for one call after any run,
`syncSteps_of_returned` for a run in which every call returns. -/

namespace ExtpiRlsd

open Effects

variable {W A : Type}

/-! ### The trainer -/

inductive SnapshotError where
  | syncInterval
  | noSnapshotStep
  | worker
  | baseRequiresLora
  | snapshotRequiresLora
  | snapshotRequiresTeacherAdapter
  | updateMode (mode : String)
deriving DecidableEq

def SnapshotError.message : SnapshotError → String
  | syncInterval => "extpi_rlsd.teacher_sync_interval must be positive for periodic_snapshot"
  | noSnapshotStep => "float() argument must be a string or a real number, not 'NoneType'"
  | worker => "the worker call failed"
  | baseRequiresLora =>
      "teacher_update_mode=base_no_adapter requires a LoRA actor so the base model is in actor"
  | snapshotRequiresLora => "teacher_update_mode=periodic_snapshot requires a LoRA actor"
  | snapshotRequiresTeacherAdapter =>
      "teacher_update_mode=periodic_snapshot requires " ++
        "actor_rollout_ref.model.extpi_teacher_adapter=True"
  | updateMode mode =>
      "extpi_rlsd.teacher_update_mode must be one of " ++
        "base_no_adapter, current_no_grad, periodic_snapshot; got '" ++ mode ++ "'"

/-- The trainer's fields that the schedule reads, and the worker behind it. -/
structure TrainerState (W : Type) where
  globalSteps : ℤ
  extpiTeacherLastSyncStep : Option ℤ
  worker : W

/-- The metrics under `extpi/teacher_...`. -/
structure SnapshotMetrics where
  snapshotSynced : ℤ
  snapshotStep : ℤ
  syncInterval : ℤ

abbrev TrainerM (W A : Type) := EStateM SnapshotError (TrainerState W) A

/-- A call of the worker group. -/
def onWorker (call : EStateM SnapshotError W A) : TrainerM W A :=
  onPart TrainerState.worker (fun worker s => { s with worker }) call

/-- `_maybe_sync_teacher_snapshot`. -/
def maybeSyncTeacherSnapshot (syncExtpiTeacherSnapshot : EStateM SnapshotError W Unit)
    (syncInterval : ℤ) : TrainerM W SnapshotMetrics := do
  if syncInterval ≤ 0 then throw .syncInterval
  let s ← get
  let step := s.globalSteps
  let shouldSync := match s.extpiTeacherLastSyncStep with
    | none => true
    | some lastSync => decide (syncInterval ≤ step - lastSync)
  if shouldSync then
    onWorker syncExtpiTeacherSnapshot
    modify fun s => { s with extpiTeacherLastSyncStep := some step }
  let s ← get
  match s.extpiTeacherLastSyncStep with
  | none => throw .noSnapshotStep
  | some snapshotStep => return ⟨if shouldSync then 1 else 0, snapshotStep, syncInterval⟩

/-- How a score batch is scored by the actor: plain, or with one LoRA adapter. -/
inductive ActorScoring where
  | plain
  | adapter (loraAdapterName : String)

/-- `_compute_pi_teacher_log_prob` with the metrics it adds. -/
def computePiTeacherLogProb (refInActor extpiTeacherAdapter : Bool)
    (computeRefLogProb : TrainerM W A) (computeActorLogProb : ActorScoring → TrainerM W A)
    (syncExtpiTeacherSnapshot : EStateM SnapshotError W Unit) (teacherUpdateMode : String)
    (syncInterval : ℤ) : TrainerM W (A × Option SnapshotMetrics) := do
  if teacherUpdateMode = "base_no_adapter" then
    if ¬ refInActor then throw .baseRequiresLora
    return (← computeRefLogProb, none)
  else if teacherUpdateMode = "current_no_grad" then
    return (← computeActorLogProb .plain, none)
  else if teacherUpdateMode = "periodic_snapshot" then
    if ¬ refInActor then throw .snapshotRequiresLora
    if ¬ extpiTeacherAdapter then throw .snapshotRequiresTeacherAdapter
    let metrics ← maybeSyncTeacherSnapshot syncExtpiTeacherSnapshot syncInterval
    return (← computeActorLogProb (.adapter "extpi_teacher"), some metrics)
  else throw (.updateMode teacherUpdateMode)

/-! ### One sync -/

/-- A sync is due at a step. -/
def Due (syncInterval step : ℤ) (s : TrainerState W) : Prop :=
  ∀ lastSync, s.extpiTeacherLastSyncStep = some lastSync → syncInterval ≤ step - lastSync

/-- Where a sync is due the worker decides; where the snapshot is fresh nothing changes. -/
theorem wp_maybeSyncTeacherSnapshot {syncInterval : ℤ} (hk : 1 ≤ syncInterval)
    {sync : EStateM SnapshotError W Unit} {s : TrainerState W}
    {Q : Except SnapshotError SnapshotMetrics → TrainerState W → Prop}
    (hdue : Due syncInterval s.globalSteps s → wp sync (fun r w => match r with
      | .ok _ => Q (.ok ⟨1, s.globalSteps, syncInterval⟩) ⟨s.globalSteps, some s.globalSteps, w⟩
      | .error e => Q (.error e) ⟨s.globalSteps, s.extpiTeacherLastSyncStep, w⟩) s.worker)
    (hfresh : ∀ lastSync, s.extpiTeacherLastSyncStep = some lastSync →
      s.globalSteps - lastSync < syncInterval → Q (.ok ⟨0, lastSync, syncInterval⟩) s) :
    wp (maybeSyncTeacherSnapshot sync syncInterval) Q s := by
  have hpos : ¬ syncInterval ≤ 0 := by omega
  unfold maybeSyncTeacherSnapshot
  rw [if_neg hpos, wp_get_bind]
  by_cases h : Due syncInterval s.globalSteps s
  · have hshould : (match s.extpiTeacherLastSyncStep with
        | none => true
        | some lastSync => decide (syncInterval ≤ s.globalSteps - lastSync)) = true := by
      cases hlast : s.extpiTeacherLastSyncStep with
      | none => rfl
      | some lastSync => exact decide_eq_true (h lastSync hlast)
    simp only [hshould, if_true]
    unfold onWorker
    rw [wp_bind, wp_onPart]
    refine wp_mono (hdue h) ?_
    intro r w hQ
    cases r with
    | ok _ => exact hQ
    | error e => exact hQ
  · obtain ⟨lastSync, hlast, hlt⟩ : ∃ lastSync, s.extpiTeacherLastSyncStep = some lastSync ∧
        ¬ syncInterval ≤ s.globalSteps - lastSync := by
      simpa [Due] using h
    have hresult := hfresh lastSync hlast (by omega)
    simp only [hlast, decide_eq_false hlt, Bool.false_eq_true, if_false]
    rw [wp_get_bind, hlast]
    exact hresult

/-! ### Runs of calls -/

/-- A call at a global step, with what the worker does if it is asked to sync. -/
structure SnapshotCall (W : Type) where
  step : ℤ
  sync : EStateM SnapshotError W Unit

/-- A worker call that leaves a record: whether it returned. -/
def observed (call : EStateM SnapshotError W Unit) : EStateM SnapshotError (W × List Bool) Unit :=
  fun w => match call.run w.1 with
    | .ok _ w' => .ok () (w', w.2 ++ [true])
    | .error e w' => .error e (w', w.2 ++ [false])

/-- One call of the trainer at its global step. -/
def SnapshotCall.exec (syncInterval : ℤ) (c : SnapshotCall W) :
    TrainerM (W × List Bool) SnapshotMetrics := do
  modify fun s => { s with globalSteps := c.step }
  maybeSyncTeacherSnapshot (observed c.sync) syncInterval

/-- The steps of the calls in which the worker was asked to sync and returned. -/
def syncSteps (syncInterval : ℤ) : List (SnapshotCall W) → TrainerState (W × List Bool) → List ℤ
  | [], _ => []
  | c :: calls, s =>
      let s' := after (c.exec syncInterval) s
      (if s'.worker.2 = s.worker.2 ++ [true] then [c.step] else []) ++ syncSteps syncInterval calls s'

/-- The call returned. -/
def Returned (syncInterval : ℤ) (c : SnapshotCall W) (s : TrainerState (W × List Bool)) : Prop :=
  ∃ metrics, outcome (c.exec syncInterval) s = .ok metrics

/-- Calls at consecutive steps from `first` on; a call that raised may be made again at its step. -/
def Consecutive (syncInterval first : ℤ) (calls : List (SnapshotCall W))
    (s : TrainerState (W × List Bool)) : Prop :=
  (∀ c, calls[0]? = some c → c.step = first) ∧
  ∀ i c c', calls[i]? = some c → calls[i + 1]? = some c' →
    c'.step = c.step + 1 ∨
      c'.step = c.step ∧ ¬ Returned syncInterval c (runAll (SnapshotCall.exec syncInterval) (calls.take i) s)

/-! ### One call -/

/-- How a call can end: with a sync, with a sync that raised, or with the snapshot it had. -/
inductive CallResult (syncInterval : ℤ) (c : SnapshotCall W) (s : TrainerState (W × List Bool)) :
    Except SnapshotError SnapshotMetrics → TrainerState (W × List Bool) → Prop where
  | synced {w' : W} : Due syncInterval c.step s →
      CallResult syncInterval c s (.ok ⟨1, c.step, syncInterval⟩)
        ⟨c.step, some c.step, (w', s.worker.2 ++ [true])⟩
  | raised {e : SnapshotError} {w' : W} : Due syncInterval c.step s →
      CallResult syncInterval c s (.error e)
        ⟨c.step, s.extpiTeacherLastSyncStep, (w', s.worker.2 ++ [false])⟩
  | kept {lastSync : ℤ} : s.extpiTeacherLastSyncStep = some lastSync →
      c.step - lastSync < syncInterval →
      CallResult syncInterval c s (.ok ⟨0, lastSync, syncInterval⟩)
        ⟨c.step, some lastSync, s.worker⟩

theorem wp_observed (call : EStateM SnapshotError W Unit) (w : W × List Bool) :
    wp (observed call) (fun r w' =>
      (r = .ok () ∧ ∃ v, w' = (v, w.2 ++ [true])) ∨
      ∃ e v, r = .error e ∧ w' = (v, w.2 ++ [false])) w := by
  simp only [wp, outcome, after, EStateM.run, observed]
  cases call w.1 with
  | ok _ v => exact .inl ⟨rfl, v, rfl⟩
  | error e v => exact .inr ⟨e, v, rfl, rfl⟩

theorem SnapshotCall.spec {syncInterval : ℤ} (hk : 1 ≤ syncInterval) (c : SnapshotCall W)
    (s : TrainerState (W × List Bool)) :
    wp (c.exec syncInterval) (CallResult syncInterval c s) s := by
  unfold SnapshotCall.exec
  rw [wp_bind, wp_modify]
  apply wp_maybeSyncTeacherSnapshot hk
  · intro hdue
    refine wp_mono (wp_observed c.sync s.worker) ?_
    rintro _ _ (⟨rfl, v, rfl⟩ | ⟨e, v, rfl, rfl⟩)
    · exact .synced hdue
    · exact .raised hdue
  · intro lastSync hlast hfresh
    have hlast : s.extpiTeacherLastSyncStep = some lastSync := hlast
    rw [hlast]
    exact .kept hlast hfresh

/-! ### Every run -/

section run
variable {syncInterval first : ℤ} {st : TrainerState (W × List Bool)}

theorem syncSteps_append (calls rest : List (SnapshotCall W)) (s : TrainerState (W × List Bool)) :
    syncSteps syncInterval (calls ++ rest) s = syncSteps syncInterval calls s ++
      syncSteps syncInterval rest (runAll (SnapshotCall.exec syncInterval) calls s) := by
  induction calls generalizing s with
  | nil => rfl
  | cons c calls ih =>
      rw [List.cons_append, syncSteps, syncSteps, ih, List.append_assoc]
      rfl

theorem Consecutive.of_append {calls rest : List (SnapshotCall W)}
    (h : Consecutive syncInterval first (calls ++ rest) st) :
    Consecutive syncInterval first calls st := by
  refine ⟨fun c hc => h.1 c ?_, fun i c c' hc hc' => ?_⟩
  · exact List.getElem?_append_left (List.getElem?_eq_some_iff.mp hc).1 ▸ hc
  · have hi := (List.getElem?_eq_some_iff.mp hc').1
    have hnext := h.2 i c c' (by rw [List.getElem?_append_left (by omega)]; exact hc)
      (by rw [List.getElem?_append_left hi]; exact hc')
    rwa [List.take_append_of_le_length (by omega)] at hnext

/-- The step after a list of calls that ends with `c₀`. -/
theorem Consecutive.next {calls : List (SnapshotCall W)} {c₀ c : SnapshotCall W}
    (h : Consecutive syncInterval first (calls ++ [c₀] ++ [c]) st) :
    c.step = c₀.step + 1 ∨ c.step = c₀.step ∧ ¬ Returned syncInterval c₀
      (runAll (SnapshotCall.exec syncInterval) calls st) := by
  have hnext := h.2 calls.length c₀ c (by simp) (by simp)
  rwa [List.append_assoc, List.take_left] at hnext

/-- What holds after a run: the trainer's own step is that of the last sync the worker saw, and
after the last call it is fresh, or a sync is still due. -/
structure Scheduled (syncInterval : ℤ) (st : TrainerState (W × List Bool))
    (calls : List (SnapshotCall W)) : Prop where
  tracked : (runAll (SnapshotCall.exec syncInterval) calls st).extpiTeacherLastSyncStep =
    (syncSteps syncInterval calls st).getLast?
  fresh : ∀ pre c, calls = pre ++ [c] →
    Returned syncInterval c (runAll (SnapshotCall.exec syncInterval) pre st) →
    ∃ lastSync, (runAll (SnapshotCall.exec syncInterval) calls st).extpiTeacherLastSyncStep =
      some lastSync ∧ 0 ≤ c.step - lastSync ∧ c.step - lastSync < syncInterval
  due : ∀ pre c, calls = pre ++ [c] →
    ¬ Returned syncInterval c (runAll (SnapshotCall.exec syncInterval) pre st) →
    Due syncInterval c.step (runAll (SnapshotCall.exec syncInterval) calls st)

/-- The snapshot of the state before a call is not newer than the step of the call. -/
theorem Scheduled.lastSync_le {calls : List (SnapshotCall W)} {c : SnapshotCall W}
    (h : Scheduled syncInterval st calls) (hst : st.extpiTeacherLastSyncStep = none)
    (hc : Consecutive syncInterval first (calls ++ [c]) st) {lastSync : ℤ}
    (hlast : (runAll (SnapshotCall.exec syncInterval) calls st).extpiTeacherLastSyncStep =
      some lastSync) (hfresh : c.step - lastSync < syncInterval) : lastSync ≤ c.step := by
  rcases List.eq_nil_or_concat calls with rfl | ⟨pre, c₀, hconcat⟩
  · rw [runAll_nil, hst] at hlast
    cases hlast
  · rw [List.concat_eq_append] at hconcat
    subst hconcat
    have hnext := hc.next
    by_cases hreturned : Returned syncInterval c₀
        (runAll (SnapshotCall.exec syncInterval) pre st)
    · obtain ⟨l, hl, hl0, -⟩ := h.fresh pre c₀ rfl hreturned
      rw [hlast] at hl
      obtain rfl := Option.some.inj hl
      omega
    · have hdue := h.due pre c₀ rfl hreturned lastSync hlast
      omega

/-- The step lemma of the schedule. -/
theorem Scheduled.step (hk : 1 ≤ syncInterval) {calls : List (SnapshotCall W)}
    {c : SnapshotCall W} (h : Scheduled syncInterval st calls)
    (hst : st.extpiTeacherLastSyncStep = none)
    (hc : Consecutive syncInterval first (calls ++ [c]) st) :
    Scheduled syncInterval st (calls ++ [c]) := by
  have hspec := c.spec hk (runAll (SnapshotCall.exec syncInterval) calls st)
  have hsteps : syncSteps syncInterval (calls ++ [c]) st = syncSteps syncInterval calls st ++
      (if (after (c.exec syncInterval) (runAll (SnapshotCall.exec syncInterval) calls st)).worker.2 =
        (runAll (SnapshotCall.exec syncInterval) calls st).worker.2 ++ [true] then [c.step]
      else []) := by
    rw [syncSteps_append]
    simp [syncSteps]
  have hpairs : ∀ pre c', calls ++ [c] = pre ++ [c'] → pre = calls ∧ c' = c := by
    intro pre c' heq
    obtain ⟨rfl, hcc⟩ := List.append_inj' heq rfl
    exact ⟨rfl, (List.singleton_inj.mp hcc).symm⟩
  unfold wp at hspec
  generalize hs : runAll (SnapshotCall.exec syncInterval) calls st = s at hspec hsteps
  generalize hr : outcome (c.exec syncInterval) s = r at hspec
  generalize ha : after (c.exec syncInterval) s = s' at hspec hsteps
  have hrun : runAll (SnapshotCall.exec syncInterval) (calls ++ [c]) st = s' := by
    rw [runAll_append_singleton, hs, ha]
  cases hspec with
  | @synced w' hdue =>
      rw [if_pos rfl] at hsteps
      refine ⟨?_, ?_, ?_⟩
      · rw [hrun, hsteps, List.getLast?_append]
        rfl
      · intro pre c' heq _
        obtain ⟨rfl, rfl⟩ := hpairs pre c' heq
        rw [hrun]
        exact ⟨c'.step, rfl, by omega, by omega⟩
      · intro pre c' heq hnot
        obtain ⟨rfl, rfl⟩ := hpairs pre c' heq
        rw [hs] at hnot
        exact absurd ⟨_, hr⟩ hnot
  | @raised e w' hdue =>
      rw [if_neg (by simp), List.append_nil] at hsteps
      refine ⟨?_, ?_, ?_⟩
      · rw [hrun, hsteps, ← h.tracked, hs]
      · intro pre c' heq hreturned
        obtain ⟨rfl, rfl⟩ := hpairs pre c' heq
        rw [hs] at hreturned
        obtain ⟨metrics, hok⟩ := hreturned
        rw [hr] at hok
        cases hok
      · intro pre c' heq _
        obtain ⟨rfl, rfl⟩ := hpairs pre c' heq
        rw [hrun]
        exact hdue
  | @kept lastSync hlast hfresh =>
      rw [if_neg (by simp), List.append_nil] at hsteps
      have hle := h.lastSync_le hst hc (hs ▸ hlast) hfresh
      refine ⟨?_, ?_, ?_⟩
      · rw [hrun, hsteps, ← h.tracked, hs, hlast]
      · intro pre c' heq _
        obtain ⟨rfl, rfl⟩ := hpairs pre c' heq
        rw [hrun]
        exact ⟨lastSync, rfl, by omega, hfresh⟩
      · intro pre c' heq hnot
        obtain ⟨rfl, rfl⟩ := hpairs pre c' heq
        rw [hs] at hnot
        exact absurd ⟨_, hr⟩ hnot

/-- The run lemma of the schedule. -/
theorem scheduled (hk : 1 ≤ syncInterval) (hst : st.extpiTeacherLastSyncStep = none)
    {calls : List (SnapshotCall W)} (hc : Consecutive syncInterval first calls st) :
    Scheduled syncInterval st calls := by
  induction calls using List.reverseRecOn with
  | nil =>
      refine ⟨hst, fun pre c heq => ?_, fun pre c heq => ?_⟩
      · exact absurd heq.symm (by simp)
      · exact absurd heq.symm (by simp)
  | append_singleton calls c ih => exact (ih hc.of_append).step hk hst hc

/-- What the schedule promises of one call: a returned call has a snapshot younger than the
interval and reports the step of the last sync the worker saw; a call that raised changes nothing
the trainer remembers, and the next call asks the worker again. -/
structure SnapshotGuarantee (syncInterval : ℤ) (st : TrainerState (W × List Bool))
    (calls : List (SnapshotCall W)) (i : ℕ) (c : SnapshotCall W) : Prop where
  returned : ∀ metrics, outcome (c.exec syncInterval)
      (runAll (SnapshotCall.exec syncInterval) (calls.take i) st) = .ok metrics →
    ∃ lastSync, (runAll (SnapshotCall.exec syncInterval)
        (calls.take (i + 1)) st).extpiTeacherLastSyncStep = some lastSync ∧
      0 ≤ c.step - lastSync ∧ c.step - lastSync < syncInterval ∧
      metrics.snapshotStep = lastSync ∧
      (syncSteps syncInterval (calls.take (i + 1)) st).getLast? = some lastSync
  raised : ∀ e, outcome (c.exec syncInterval)
      (runAll (SnapshotCall.exec syncInterval) (calls.take i) st) = .error e →
    (runAll (SnapshotCall.exec syncInterval) (calls.take (i + 1)) st).extpiTeacherLastSyncStep =
      (runAll (SnapshotCall.exec syncInterval) (calls.take i) st).extpiTeacherLastSyncStep ∧
    ∀ c', calls[i + 1]? = some c' → ∃ ok,
      (runAll (SnapshotCall.exec syncInterval) (calls.take (i + 2)) st).worker.2 =
        (runAll (SnapshotCall.exec syncInterval) (calls.take (i + 1)) st).worker.2 ++ [ok]

theorem take_succ_of_getElem? {calls : List (SnapshotCall W)} {i : ℕ} {c : SnapshotCall W}
    (h : calls[i]? = some c) : calls.take (i + 1) = calls.take i ++ [c] := by
  rw [List.take_add_one, h]
  rfl

theorem Consecutive.take {calls : List (SnapshotCall W)}
    (h : Consecutive syncInterval first calls st) (i : ℕ) :
    Consecutive syncInterval first (calls.take i) st := by
  rw [← List.take_append_drop i calls] at h
  exact h.of_append

/-- A call at which a sync is due asks the worker. -/
theorem SnapshotCall.asks_worker (hk : 1 ≤ syncInterval) {c : SnapshotCall W}
    {s : TrainerState (W × List Bool)} (hdue : Due syncInterval c.step s) :
    ∃ ok, (after (c.exec syncInterval) s).worker.2 = s.worker.2 ++ [ok] := by
  have hspec := c.spec hk s
  unfold wp at hspec
  generalize outcome (c.exec syncInterval) s = r at hspec
  generalize after (c.exec syncInterval) s = s' at hspec ⊢
  cases hspec with
  | synced _ => exact ⟨true, rfl⟩
  | raised _ => exact ⟨false, rfl⟩
  | @kept lastSync hlast hfresh =>
      have := hdue lastSync hlast
      omega

theorem snapshotGuarantee (hk : 1 ≤ syncInterval) (hst : st.extpiTeacherLastSyncStep = none)
    {calls : List (SnapshotCall W)} (hc : Consecutive syncInterval first calls st) {i : ℕ}
    {c : SnapshotCall W} (hi : calls[i]? = some c) :
    SnapshotGuarantee syncInterval st calls i c := by
  have htake := take_succ_of_getElem? hi
  have hscheduled := scheduled hk hst (hc.take (i + 1))
  have hrun : runAll (SnapshotCall.exec syncInterval) (calls.take (i + 1)) st =
      after (c.exec syncInterval)
        (runAll (SnapshotCall.exec syncInterval) (calls.take i) st) := by
    rw [htake, runAll_append_singleton]
  refine ⟨fun metrics hok => ?_, fun e herror => ?_⟩
  · obtain ⟨lastSync, hlast, hnonneg, hlt⟩ := hscheduled.fresh _ c htake ⟨metrics, hok⟩
    refine ⟨lastSync, hlast, hnonneg, hlt, ?_, ?_⟩
    · have hspec := c.spec hk (runAll (SnapshotCall.exec syncInterval) (calls.take i) st)
      unfold wp at hspec
      rw [hok, ← hrun] at hspec
      generalize runAll (SnapshotCall.exec syncInterval) (calls.take (i + 1)) st = s' at hspec hlast
      cases hspec with
      | synced _ => exact Option.some.inj hlast
      | kept _ _ => exact Option.some.inj hlast
    · rw [← hscheduled.tracked, hlast]
  · have hnot : ¬ Returned syncInterval c
        (runAll (SnapshotCall.exec syncInterval) (calls.take i) st) := by
      rintro ⟨metrics, hok⟩
      rw [herror] at hok
      cases hok
    have hdue := hscheduled.due _ c htake hnot
    refine ⟨?_, fun c' hc' => ?_⟩
    · have hspec := c.spec hk (runAll (SnapshotCall.exec syncInterval) (calls.take i) st)
      unfold wp at hspec
      rw [herror, ← hrun] at hspec
      generalize runAll (SnapshotCall.exec syncInterval) (calls.take (i + 1)) st = s' at hspec ⊢
      cases hspec with
      | raised _ => rfl
    · have hle : c.step ≤ c'.step := by
        rcases hc.2 i c c' hi hc' with h | ⟨h, -⟩
        · omega
        · omega
      rw [take_succ_of_getElem? hc', runAll_append_singleton]
      refine SnapshotCall.asks_worker hk fun lastSync hlast => ?_
      have := hdue lastSync hlast
      omega

/-- After calls that all returned, a sync is due exactly at the steps that lie a multiple of the
interval after the first one. -/
theorem due_iff_dvd (hk : 1 ≤ syncInterval) (hst : st.extpiTeacherLastSyncStep = none)
    {calls : List (SnapshotCall W)} {c : SnapshotCall W}
    (hc : Consecutive syncInterval first (calls ++ [c]) st)
    (hreturned : ∀ i c', calls[i]? = some c' →
      Returned syncInterval c' (runAll (SnapshotCall.exec syncInterval) (calls.take i) st))
    (hsteps : syncSteps syncInterval calls st =
      (calls.map SnapshotCall.step).filter fun step => decide (syncInterval ∣ step - first)) :
    Due syncInterval c.step (runAll (SnapshotCall.exec syncInterval) calls st) ↔
      syncInterval ∣ c.step - first := by
  rcases List.eq_nil_or_concat calls with rfl | ⟨pre, c₀, hconcat⟩
  · have hfirst : c.step = first := hc.1 c rfl
    refine iff_of_true (fun lastSync hlast => ?_) ?_
    · rw [runAll_nil, hst] at hlast
      cases hlast
    · rw [hfirst, sub_self]
      exact Int.dvd_zero _
  · rw [List.concat_eq_append] at hconcat
    subst hconcat
    have hscheduled := scheduled hk hst hc.of_append
    have hlastreturned : Returned syncInterval c₀
        (runAll (SnapshotCall.exec syncInterval) pre st) := by
      have h := hreturned pre.length c₀ (by simp)
      rwa [List.take_left] at h
    obtain ⟨l, hlast, hnonneg, hlt⟩ := hscheduled.fresh pre c₀ rfl hlastreturned
    have hnext : c.step = c₀.step + 1 := hc.next.resolve_right fun h => h.2 hlastreturned
    have hdvd : syncInterval ∣ l - first := by
      have hmem := List.mem_of_getLast? (hscheduled.tracked ▸ hlast)
      rw [hsteps] at hmem
      exact of_decide_eq_true (List.mem_filter.mp hmem).2
    have hsplit : c.step - first = (c.step - l) + (l - first) := by omega
    rw [hsplit, Int.dvd_add_left hdvd]
    constructor
    · intro hdue
      have hge := hdue l hlast
      have heq : c.step - l = syncInterval := by omega
      rw [heq]
    · intro h lastSync hlast'
      rw [hlast] at hlast'
      obtain rfl := Option.some.inj hlast'
      exact Int.le_of_dvd (by omega) h

/-- Calls that all return are made at one step after the other. -/
theorem steps_of_returned {calls : List (SnapshotCall W)}
    (hc : Consecutive syncInterval first calls st)
    (hreturned : ∀ i c, calls[i]? = some c →
      Returned syncInterval c (runAll (SnapshotCall.exec syncInterval) (calls.take i) st))
    {i : ℕ} {c : SnapshotCall W} (hi : calls[i]? = some c) : c.step = first + i := by
  induction i generalizing c with
  | zero =>
      rw [hc.1 c hi]
      omega
  | succ i ih =>
      have hlt : i < calls.length := by
        have := (List.getElem?_eq_some_iff.mp hi).1
        omega
      have hprev := List.getElem?_eq_getElem hlt
      have hstep := ih hprev
      rcases hc.2 i _ c hprev hi with h | ⟨-, hnot⟩
      · rw [h, hstep]
        omega
      · exact absurd (hreturned i _ hprev) hnot

/-- When every call returns, the syncs are at the steps that lie a multiple of the interval after
the first one. -/
theorem syncSteps_of_returned (hk : 1 ≤ syncInterval) (hst : st.extpiTeacherLastSyncStep = none)
    {calls : List (SnapshotCall W)} (hc : Consecutive syncInterval first calls st)
    (hreturned : ∀ i c, calls[i]? = some c →
      Returned syncInterval c (runAll (SnapshotCall.exec syncInterval) (calls.take i) st)) :
    syncSteps syncInterval calls st =
      (calls.map SnapshotCall.step).filter fun step => decide (syncInterval ∣ step - first) := by
  induction calls using List.reverseRecOn with
  | nil => rfl
  | append_singleton calls c ih =>
      have hprev : ∀ i c', calls[i]? = some c' →
          Returned syncInterval c' (runAll (SnapshotCall.exec syncInterval) (calls.take i) st) := by
        intro i c' hi
        have hlt := (List.getElem?_eq_some_iff.mp hi).1
        have h := hreturned i c' (by rw [List.getElem?_append_left hlt]; exact hi)
        rwa [List.take_append_of_le_length (by omega)] at h
      have hsteps := ih hc.of_append hprev
      have hdue := due_iff_dvd hk hst hc hprev hsteps
      obtain ⟨metrics, hok⟩ : Returned syncInterval c
          (runAll (SnapshotCall.exec syncInterval) calls st) := by
        have h := hreturned calls.length c (by simp)
        rwa [List.take_left] at h
      rw [syncSteps_append, hsteps, List.map_append, List.filter_append]
      refine congrArg₂ _ rfl ?_
      have hspec := c.spec hk (runAll (SnapshotCall.exec syncInterval) calls st)
      unfold wp at hspec
      rw [hok] at hspec
      simp only [syncSteps, List.append_nil, List.map_singleton]
      generalize after (c.exec syncInterval)
        (runAll (SnapshotCall.exec syncInterval) calls st) = s' at hspec ⊢
      cases hspec with
      | synced hd =>
          have hdvd := hdue.mp hd
          simp [hdvd]
      | kept hlast hfresh =>
          have hnot : ¬ syncInterval ∣ c.step - first := by
            intro hdvd
            have := hdue.mpr hdvd _ hlast
            omega
          simp [hnot]

end run

/-- **The schedule of the teacher snapshot.**  In a run of calls at consecutive steps every call
keeps its promises, whatever the worker calls do; and when every call returns, the worker has
synced exactly at the steps that lie a multiple of the interval after the first one. -/
theorem snapshotSchedule {syncInterval first : ℤ} (hk : 1 ≤ syncInterval)
    {st : TrainerState (W × List Bool)} (hst : st.extpiTeacherLastSyncStep = none)
    {calls : List (SnapshotCall W)} (hc : Consecutive syncInterval first calls st) :
    (∀ i c, calls[i]? = some c → SnapshotGuarantee syncInterval st calls i c) ∧
    ((∀ i c, calls[i]? = some c → Returned syncInterval c
        (runAll (SnapshotCall.exec syncInterval) (calls.take i) st)) →
      syncSteps syncInterval calls st = ((List.range calls.length).map fun i : ℕ => first + i).filter
        fun step => decide (syncInterval ∣ step - first)) := by
  refine ⟨fun i c hi => snapshotGuarantee hk hst hc hi, fun hreturned => ?_⟩
  rw [syncSteps_of_returned hk hst hc hreturned]
  refine congrArg _ (List.ext_getElem? fun i => ?_)
  rw [List.getElem?_map, List.getElem?_map]
  cases hi : calls[i]? with
  | none =>
      have hlen := List.getElem?_eq_none_iff.mp hi
      rw [List.getElem?_eq_none (by simpa using hlen)]
      rfl
  | some c =>
      have hlt := (List.getElem?_eq_some_iff.mp hi).1
      rw [List.getElem?_range hlt, Option.map_some, Option.map_some,
        steps_of_returned hc hreturned hi]

/-- The first sync raises and is tried again at its step; the next call keeps the snapshot. -/
def retriedCalls : List (SnapshotCall Unit) := [⟨1, throw .worker⟩, ⟨1, pure ()⟩, ⟨2, pure ()⟩]

theorem consecutive_retriedCalls : Consecutive 20 1 retriedCalls ⟨0, none, ((), [])⟩ := by
  refine ⟨fun c hc => ?_, fun i c c' hc hc' => ?_⟩
  · obtain rfl := Option.some.inj hc
    rfl
  · match i with
    | 0 =>
        obtain rfl := Option.some.inj hc
        obtain rfl := Option.some.inj hc'
        refine .inr ⟨rfl, ?_⟩
        rintro ⟨metrics, hok⟩
        cases hok
    | 1 =>
        obtain rfl := Option.some.inj hc
        obtain rfl := Option.some.inj hc'
        exact .inl rfl
    | i + 2 => cases hc'

theorem snapshotSchedule_retriedCalls :
    (∀ i c, retriedCalls[i]? = some c →
      SnapshotGuarantee 20 ⟨0, none, ((), [])⟩ retriedCalls i c) ∧
    ((∀ i c, retriedCalls[i]? = some c → Returned 20 c
        (runAll (SnapshotCall.exec 20) (retriedCalls.take i) ⟨0, none, ((), [])⟩)) →
      syncSteps 20 retriedCalls ⟨0, none, ((), [])⟩ =
        ((List.range retriedCalls.length).map fun i : ℕ => (1 : ℤ) + i).filter
          fun step => decide ((20 : ℤ) ∣ step - 1)) :=
  snapshotSchedule (by decide) rfl consecutive_retriedCalls

end ExtpiRlsd
