import ExtpiRlsd.TeacherSnapshot
import Mathlib

/-! # Resuming a run with a periodic teacher snapshot

The training loop `fit` around the snapshot schedule, with `_save_checkpoint` and
`_load_checkpoint`.  A checkpoint holds the step, the adapters and the position of the data
loader; the trainer's own `_extpi_teacher_last_sync_step` is in none of them, and a new process
starts with `None`.  So a resumed run syncs at its first step, whatever the schedule was, and
counts the interval from there.

`resumePreserves_iff` says for which checkpoints this is the schedule of the uninterrupted run. -/

namespace ExtpiRlsd

open Effects

/-! ### The loop -/

inductive ResumeMode where
  | disable
  | auto
  | resumePath (globalSteps : ℤ)

/-- The options of the loop.  `esi` says at which steps the instance is close to expiration. -/
structure FitConfig where
  totalTrainingSteps : ℤ
  stepsPerEpoch : ℕ
  totalEpochs : ℕ
  criticWarmup : ℤ
  teacherSyncInterval : ℤ
  saveFreq : ℤ
  asyncSave : Bool
  esi : ℤ → Bool

/-- The teacher adapter, by the step at which it was copied from the actor, and a record of the
syncs and of the scorings with the step of the snapshot each used. -/
structure SnapshotWorker where
  teacherTakenAt : Option ℤ
  syncs : List ℤ
  scored : List (ℤ × Option ℤ)
deriving DecidableEq

/-- What `_save_checkpoint` writes: the adapters and the state of the data loader. -/
structure Checkpoint where
  teacherTakenAt : Option ℤ
  drawn : ℕ

/-- The checkpoint folders and the tracker file. -/
structure Disk where
  checkpoints : ℤ → Option Checkpoint
  latestCheckpointedIteration : Option ℤ

/-- The process in the loop: trainer and workers, the epoch and the batches drawn in it. -/
structure FitState where
  trainer : TrainerState SnapshotWorker
  epoch : ℕ
  drawn : ℕ
  disk : Disk

inductive FitError where
  | snapshot (e : SnapshotError)
  | checkpointNotFound
deriving DecidableEq

/-- A process before `fit`; `__init__` leaves the last sync step at `None`. -/
def FitState.new (disk : Disk) : FitState where
  trainer := ⟨0, none, ⟨none, [], []⟩⟩
  epoch := 0
  drawn := 0
  disk := disk

/-- The copy of the actor's adapter, seen at a step. -/
def syncAt (step : ℤ) : EStateM SnapshotError SnapshotWorker Unit :=
  modify fun w => { w with teacherTakenAt := some step, syncs := w.syncs ++ [step] }

/-- Scoring with the teacher adapter, seen at a step. -/
def scoreAt (step : ℤ) : EStateM SnapshotError SnapshotWorker Unit :=
  modify fun w => { w with scored := w.scored ++ [(step, w.teacherTakenAt)] }

section loop
variable (config : FitConfig)

/-- `_before_actor_update` in the mode `periodic_snapshot`. -/
def beforeActorUpdateAt (step : ℤ) : TrainerM SnapshotWorker Unit := do
  let _ ← computePiTeacherLogProb true true (onWorker (pure ()))
    (fun _ => onWorker (scoreAt step)) (syncAt step) "periodic_snapshot" config.teacherSyncInterval
  return ()

/-- The condition for a checkpoint after an actor update. -/
def FitConfig.saves (step : ℤ) : Prop :=
  0 < config.saveFreq ∧
    (config.totalTrainingSteps ≤ step ∨ config.saveFreq ∣ step ∨ config.esi step = true)

instance (step : ℤ) : Decidable (config.saves step) :=
  inferInstanceAs (Decidable (0 < config.saveFreq ∧
    (config.totalTrainingSteps ≤ step ∨ config.saveFreq ∣ step ∨ config.esi step = true)))

/-- A checkpoint is written after the step. -/
def FitConfig.writes (step : ℤ) : Prop := config.criticWarmup ≤ step ∧ config.saves step

/-- `_save_checkpoint`, with no limit on the checkpoints that are kept. -/
def saveCheckpoint (s : FitState) : FitState :=
  { s with disk := {
      checkpoints := fun step =>
        if step = s.trainer.globalSteps then some ⟨s.trainer.worker.teacherTakenAt, s.drawn⟩
        else s.disk.checkpoints step
      latestCheckpointedIteration :=
        if config.asyncSave then s.disk.latestCheckpointedIteration
        else some s.trainer.globalSteps } }

/-- The next batch; behind the last one of an epoch the data loader starts again. -/
def drawBatch (s : FitState) : FitState :=
  if s.drawn = config.stepsPerEpoch then { s with epoch := s.epoch + 1, drawn := 1 }
  else { s with drawn := s.drawn + 1 }

/-- One step of the loop.  During critic warmup neither hook nor checkpoint is reached. -/
def trainStep (s : FitState) : Except FitError FitState :=
  let s := drawBatch config s
  let step := s.trainer.globalSteps
  let advance (s : FitState) : FitState :=
    { s with trainer := { s.trainer with globalSteps := step + 1 } }
  if step < config.criticWarmup then .ok (advance s)
  else match (beforeActorUpdateAt config step).run s.trainer with
    | .error e _ => .error (.snapshot e)
    | .ok _ trainer =>
        let s := { s with trainer }
        .ok (advance (if config.saves step then saveCheckpoint config s else s))

/-- The loop over the remaining batches; after the last step it returns. -/
def fitLoop : ℕ → FitState → Except FitError FitState
  | 0, s => .ok s
  | n + 1, s => do
      let s' ← trainStep config s
      if config.totalTrainingSteps ≤ s.trainer.globalSteps then return s' else fitLoop n s'

/-- The batches of the remaining epochs. -/
def batchesLeft (s : FitState) : ℕ :=
  if s.epoch < config.totalEpochs then
    (config.stepsPerEpoch - s.drawn) + (config.totalEpochs - s.epoch - 1) * config.stepsPerEpoch
  else 0

/-- The restored process: at an epoch boundary the state of the data loader is skipped. -/
def restore (step : ℤ) (checkpoint : Checkpoint) (s : FitState) : FitState :=
  { s with
    trainer := { s.trainer with
      globalSteps := step
      worker := { s.trainer.worker with teacherTakenAt := checkpoint.teacherTakenAt } }
    drawn := if 0 < config.stepsPerEpoch ∧ step % config.stepsPerEpoch = 0 then s.drawn
      else checkpoint.drawn }

/-- `_load_checkpoint`. -/
def loadCheckpoint (mode : ResumeMode) (s : FitState) : Except FitError FitState :=
  match mode with
  | .disable => .ok s
  | .auto => match s.disk.latestCheckpointedIteration with
    | none => .ok s
    | some step => match s.disk.checkpoints step with
      | none => .ok s
      | some checkpoint => .ok (restore config step checkpoint s)
  | .resumePath step => match s.disk.checkpoints step with
    | none => .error .checkpointNotFound
    | some checkpoint => .ok (restore config step checkpoint s)

/-- The start of `fit` up to the loop. -/
def startFit (mode : ResumeMode) (disk : Disk) : Except FitError FitState := do
  let s ← loadCheckpoint config mode (FitState.new disk)
  return { s with
    epoch := (s.trainer.globalSteps / config.stepsPerEpoch).toNat
    trainer := { s.trainer with globalSteps := s.trainer.globalSteps + 1 } }

/-- `fit` in a new process. -/
def fit (mode : ResumeMode) (disk : Disk) : Except FitError FitState := do
  let s ← startFit config mode disk
  fitLoop config (batchesLeft config s) s

/-- `fit` in a new process that is killed after `n` steps. -/
def fitKilled (mode : ResumeMode) (disk : Disk) (n : ℕ) : Except FitError FitState := do
  let s ← startFit config mode disk
  fitLoop config n s

/-- No checkpoint yet. -/
def Disk.empty : Disk := ⟨fun _ => none, none⟩

/-- A run killed after `n` steps and resumed from the checkpoint of step `c` syncs at the steps at
which the uninterrupted run syncs, and scores every step after `c` with a snapshot of the same
step.  What the killed run did after step `c` is done again. -/
def ResumePreserves (mode : ResumeMode) (c n : ℕ) : Prop :=
  ∃ killed resumed full, fitKilled config .auto Disk.empty n = .ok killed ∧
    fit config mode killed.disk = .ok resumed ∧ fit config .auto Disk.empty = .ok full ∧
    (killed.trainer.worker.syncs.filter fun step => decide (step ≤ (c : ℤ))) ++
      resumed.trainer.worker.syncs = full.trainer.worker.syncs ∧
    resumed.trainer.worker.scored =
      full.trainer.worker.scored.filter fun entry => decide ((c : ℤ) < entry.1)

/-- A new run does `n` steps before it is killed, and the mode then finds its checkpoint of step
`c`. -/
structure Interrupted (mode : ResumeMode) (c n : ℕ) : Prop where
  one_le : 1 ≤ c
  le : c ≤ n
  batches : n ≤ config.totalEpochs * config.stepsPerEpoch
  training : (n : ℤ) ≤ config.totalTrainingSteps ∨ n = 1
  written : config.writes c
  found : mode = .resumePath c ∨ mode = .auto ∧ config.asyncSave = false ∧
    ∀ step : ℤ, c < step → step ≤ n → ¬ config.writes step

end loop

/-! ### The schedule of one process -/

/-- The last step up to `step` that lies a multiple of the interval after `first`. -/
def snapshotStep (syncInterval first step : ℤ) : ℤ := step - (step - first) % syncInterval

section arithmetic
variable {syncInterval first step : ℤ}

theorem snapshotStep_of_dvd (h : syncInterval ∣ step - first) :
    snapshotStep syncInterval first step = step := by
  unfold snapshotStep
  rw [Int.emod_eq_zero_of_dvd h, sub_zero]

/-- The remainder grows by one from step to step until it reaches the interval. -/
theorem emod_step (hk : 1 ≤ syncInterval) :
    (syncInterval ∣ step - first ↔ (step - 1 - first) % syncInterval + 1 = syncInterval) ∧
    (¬ syncInterval ∣ step - first →
      (step - first) % syncInterval = (step - 1 - first) % syncInterval + 1) := by
  have hnonneg := Int.emod_nonneg (step - 1 - first) (show syncInterval ≠ 0 by omega)
  have hlt := Int.emod_lt_of_pos (step - 1 - first) (show 0 < syncInterval by omega)
  have hdiv := Int.mul_ediv_add_emod (step - 1 - first) syncInterval
  generalize (step - 1 - first) % syncInterval = r at *
  generalize (step - 1 - first) / syncInterval = q at *
  have hsplit : step - first = syncInterval * q + (r + 1) := by omega
  have hdvd : syncInterval ∣ step - first ↔ syncInterval ∣ r + 1 := by
    rw [hsplit]
    exact Int.dvd_add_right (Int.dvd_mul_right syncInterval q)
  have hiff : syncInterval ∣ step - first ↔ r + 1 = syncInterval := by
    rw [hdvd]
    constructor
    · intro h
      have := Int.le_of_dvd (by omega) h
      omega
    · intro h
      rw [h]
  refine ⟨hiff, fun hnot => ?_⟩
  have hne : ¬ r + 1 = syncInterval := fun h => hnot (hiff.mpr h)
  rw [hsplit, Int.add_comm, Int.add_mul_emod_self_left]
  exact Int.emod_eq_of_lt (by omega) (by omega)

theorem snapshotStep_of_not_dvd (hk : 1 ≤ syncInterval) (h : ¬ syncInterval ∣ step - first) :
    snapshotStep syncInterval first step = snapshotStep syncInterval first (step - 1) := by
  unfold snapshotStep
  rw [(emod_step hk).2 h]
  omega

/-- One step later a sync is due exactly at the multiples. -/
theorem due_snapshotStep_iff (hk : 1 ≤ syncInterval) :
    syncInterval ≤ step - snapshotStep syncInterval first (step - 1) ↔
      syncInterval ∣ step - first := by
  have hlt := Int.emod_lt_of_pos (step - 1 - first) (show 0 < syncInterval by omega)
  unfold snapshotStep
  rw [(emod_step hk).1]
  constructor
  · intro h
    omega
  · intro h
    omega

end arithmetic

section process
variable {config : FitConfig}

/-- The hook at a step: it syncs where a sync is due, and scores with the snapshot it has. -/
theorem beforeActorUpdateAt_spec (hk : 1 ≤ config.teacherSyncInterval)
    (t : TrainerState SnapshotWorker) :
    wp (beforeActorUpdateAt config t.globalSteps) (fun r t' => r = .ok () ∧
      (Due config.teacherSyncInterval t.globalSteps t ∧
        t' = ⟨t.globalSteps, some t.globalSteps, ⟨some t.globalSteps,
          t.worker.syncs ++ [t.globalSteps],
          t.worker.scored ++ [(t.globalSteps, some t.globalSteps)]⟩⟩ ∨
      ¬ Due config.teacherSyncInterval t.globalSteps t ∧
        t' = ⟨t.globalSteps, t.extpiTeacherLastSyncStep, ⟨t.worker.teacherTakenAt,
          t.worker.syncs,
          t.worker.scored ++ [(t.globalSteps, t.worker.teacherTakenAt)]⟩⟩)) t := by
  unfold beforeActorUpdateAt
  rw [wp_bind]
  unfold computePiTeacherLogProb
  rw [if_neg (by decide), if_neg (by decide), if_pos rfl, if_neg (by decide), if_neg (by decide),
    wp_bind]
  apply wp_maybeSyncTeacherSnapshot hk
  · intro hdue
    exact ⟨rfl, .inl ⟨hdue, rfl⟩⟩
  · intro lastSync hlast hfresh
    refine ⟨rfl, .inr ⟨fun hdue => ?_, rfl⟩⟩
    have := hdue lastSync hlast
    omega

/-- The steps of a process from its first one on. -/
def stepsFrom (first : ℤ) (n : ℕ) : List ℤ := (List.range n).map fun i : ℕ => first + i

/-- The step of the first actor update of a process, with which its first sync goes along. -/
def FitConfig.firstUpdate (config : FitConfig) (first : ℤ) : ℤ := max first config.criticWarmup

/-- The disk after `m` steps of a process: a checkpoint has the snapshot and the position in the
data of its step. -/
structure FitConfig.SavedFrom (config : FitConfig) (first : ℤ) (m : ℕ) (disk : Disk) : Prop where
  checkpoint : ∀ step, first ≤ step → step < first + m → config.writes step → ∃ epoch drawn : ℕ,
    disk.checkpoints step = some ⟨some (snapshotStep config.teacherSyncInterval
      (config.firstUpdate first) step), drawn⟩ ∧
    ((epoch * config.stepsPerEpoch + drawn : ℕ) : ℤ) = step ∧ drawn ≤ config.stepsPerEpoch
  latest : config.asyncSave = false → ∀ step, first ≤ step → step < first + m →
    config.writes step → (∀ later, step < later → later < first + m → ¬ config.writes later) →
    disk.latestCheckpointedIteration = some step

theorem FitConfig.SavedFrom.not_written {first : ℤ} {m : ℕ} {disk : Disk}
    (h : config.SavedFrom first m disk) (hnot : ¬ config.writes (first + m)) :
    config.SavedFrom first (m + 1) disk := by
  have hlt : ∀ {step : ℤ}, step < first + (m + 1 : ℕ) → config.writes step → step < first + m := by
    intro step hstep hwrites
    refine lt_of_le_of_ne (by push_cast at hstep; omega) fun heq => hnot ?_
    rwa [← heq]
  refine ⟨fun step hfirst hstep hwrites => ?_, fun hasync step hfirst hstep hwrites hlater => ?_⟩
  · exact h.checkpoint step hfirst (hlt hstep hwrites) hwrites
  · refine h.latest hasync step hfirst (hlt hstep hwrites) hwrites fun later hlt' hle => ?_
    exact hlater later hlt' (by push_cast; omega)

theorem FitConfig.SavedFrom.saveCheckpoint {first : ℤ} {m : ℕ} {s : FitState}
    (h : config.SavedFrom first m s.disk) (hstep : s.trainer.globalSteps = first + m)
    (htaken : s.trainer.worker.teacherTakenAt =
      some (snapshotStep config.teacherSyncInterval (config.firstUpdate first) (first + m)))
    (hposition : ((s.epoch * config.stepsPerEpoch + s.drawn : ℕ) : ℤ) = first + m)
    (hle : s.drawn ≤ config.stepsPerEpoch) (hwrites : config.writes (first + m)) :
    config.SavedFrom first (m + 1) (saveCheckpoint config s).disk := by
  unfold ExtpiRlsd.saveCheckpoint
  rw [hstep, htaken]
  refine ⟨fun step hfirst hlt hw => ?_, fun hasync step hfirst hlt hw hlater => ?_⟩
  · by_cases hnow : step = first + m
    · subst hnow
      exact ⟨s.epoch, s.drawn, if_pos rfl, hposition, hle⟩
    · obtain ⟨epoch, drawn, hcheckpoint, hrest⟩ :=
        h.checkpoint step hfirst (by push_cast at hlt; omega) hw
      exact ⟨epoch, drawn, (if_neg hnow).trans hcheckpoint, hrest⟩
  · have hnow : step = first + m := by
      by_contra hne
      refine hlater (first + m) ?_ ?_ hwrites
      · push_cast at hlt
        omega
      · push_cast
        omega
    rw [hasync, hnow]
    rfl

/-- A process that started at step `first`, after `m` steps. -/
structure Progress (config : FitConfig) (first : ℤ) (m : ℕ) (s : FitState) : Prop where
  step : s.trainer.globalSteps = first + m
  last : s.trainer.extpiTeacherLastSyncStep = if config.firstUpdate first < first + m then
    some (snapshotStep config.teacherSyncInterval (config.firstUpdate first) (first + m - 1))
    else none
  taken : config.firstUpdate first < first + m →
    s.trainer.worker.teacherTakenAt = s.trainer.extpiTeacherLastSyncStep
  syncs : s.trainer.worker.syncs = (stepsFrom first m).filter fun t =>
    decide (config.firstUpdate first ≤ t ∧ config.teacherSyncInterval ∣ t - config.firstUpdate first)
  scored : s.trainer.worker.scored =
    ((stepsFrom first m).filter fun t => decide (config.firstUpdate first ≤ t)).map fun t =>
      (t, some (snapshotStep config.teacherSyncInterval (config.firstUpdate first) t))
  position : ((s.epoch * config.stepsPerEpoch + s.drawn : ℕ) : ℤ) = first + m - 1
  drawn_le : s.drawn ≤ config.stepsPerEpoch
  saved : config.SavedFrom first m s.disk

theorem stepsFrom_succ (first : ℤ) (m : ℕ) :
    stepsFrom first (m + 1) = stepsFrom first m ++ [first + m] := by
  simp [stepsFrom, List.range_succ]

theorem drawBatch_trainer (s : FitState) : (drawBatch config s).trainer = s.trainer := by
  unfold drawBatch
  split <;> rfl

theorem drawBatch_disk (s : FitState) : (drawBatch config s).disk = s.disk := by
  unfold drawBatch
  split <;> rfl

theorem drawBatch_position (s : FitState) :
    (drawBatch config s).epoch * config.stepsPerEpoch + (drawBatch config s).drawn =
      s.epoch * config.stepsPerEpoch + s.drawn + 1 := by
  unfold drawBatch
  by_cases h : s.drawn = config.stepsPerEpoch
  · rw [if_pos h, h]
    show (s.epoch + 1) * config.stepsPerEpoch + 1 = _
    rw [Nat.succ_mul]
  · rw [if_neg h]
    rfl

theorem drawBatch_drawn_le (hL : 0 < config.stepsPerEpoch) {s : FitState}
    (h : s.drawn ≤ config.stepsPerEpoch) : (drawBatch config s).drawn ≤ config.stepsPerEpoch := by
  unfold drawBatch
  by_cases hd : s.drawn = config.stepsPerEpoch
  · rw [if_pos hd]
    exact hL
  · rw [if_neg hd]
    show s.drawn + 1 ≤ config.stepsPerEpoch
    omega

/-- Once the actor is updated, a sync is due exactly at the multiples. -/
theorem Progress.due_iff (hk : 1 ≤ config.teacherSyncInterval) {first : ℤ} {m : ℕ} {s : FitState}
    (h : Progress config first m s) (hupdate : config.firstUpdate first ≤ first + m) :
    Due config.teacherSyncInterval (first + m) s.trainer ↔
      config.teacherSyncInterval ∣ first + m - config.firstUpdate first := by
  unfold Due
  rw [h.last]
  by_cases hlt : config.firstUpdate first < first + m
  · rw [if_pos hlt, ← due_snapshotStep_iff hk]
    constructor
    · intro hdue
      exact hdue _ rfl
    · rintro hdue _ ⟨⟩
      exact hdue
  · rw [if_neg hlt]
    refine iff_of_true (fun _ hnone => by cases hnone) ?_
    have hzero : first + m - config.firstUpdate first = 0 := by omega
    rw [hzero]
    exact Int.dvd_zero _

/-- What the hook leaves behind at a step of the schedule. -/
theorem Progress.hook (hk : 1 ≤ config.teacherSyncInterval) {first : ℤ} {m : ℕ} {s : FitState}
    (h : Progress config first m s) (hupdate : config.firstUpdate first ≤ first + m) :
    ∃ t, (beforeActorUpdateAt config (first + m)).run s.trainer = .ok () t ∧
      t.globalSteps = first + m ∧
      t.extpiTeacherLastSyncStep = some (snapshotStep config.teacherSyncInterval
        (config.firstUpdate first) (first + m)) ∧
      t.worker.teacherTakenAt = t.extpiTeacherLastSyncStep ∧
      t.worker.syncs = s.trainer.worker.syncs ++
        (if config.teacherSyncInterval ∣ first + m - config.firstUpdate first then [first + m]
          else []) ∧
      t.worker.scored = s.trainer.worker.scored ++
        [(first + m, some (snapshotStep config.teacherSyncInterval (config.firstUpdate first)
          (first + m)))] := by
  have hdue := h.due_iff hk hupdate
  have hspec := beforeActorUpdateAt_spec hk s.trainer
  rw [h.step] at hspec
  obtain ⟨hok, hafter⟩ := hspec
  refine ⟨_, run_eq_ok_iff.mpr ⟨hok, rfl⟩, ?_⟩
  rcases hafter with ⟨hd, hafter⟩ | ⟨hd, hafter⟩
  · have hdvd := hdue.mp hd
    rw [hafter, snapshotStep_of_dvd hdvd, if_pos hdvd]
    exact ⟨rfl, rfl, rfl, rfl, rfl⟩
  · have hdvd : ¬ config.teacherSyncInterval ∣ first + m - config.firstUpdate first :=
      fun hdvd => hd (hdue.mpr hdvd)
    have hlt : config.firstUpdate first < first + m := by
      refine lt_of_le_of_ne hupdate fun heq => hdvd ?_
      rw [heq, sub_self]
      exact Int.dvd_zero _
    have hlast := h.last
    rw [if_pos hlt, ← snapshotStep_of_not_dvd hk hdvd] at hlast
    rw [hafter, h.taken hlt, hlast, if_neg hdvd, List.append_nil]
    exact ⟨rfl, rfl, rfl, rfl, rfl⟩

theorem Progress.position_drawBatch {first : ℤ} {m : ℕ} {s : FitState}
    (h : Progress config first m s) :
    (((drawBatch config s).epoch * config.stepsPerEpoch + (drawBatch config s).drawn : ℕ) : ℤ) =
      first + m := by
  have hposition := h.position
  rw [drawBatch_position]
  push_cast at hposition ⊢
  omega

/-- A step before the warm-up ends only counts. -/
theorem Progress.trainStep_warmup (hL : 0 < config.stepsPerEpoch) {first : ℤ} {m : ℕ} {s : FitState}
    (h : Progress config first m s) (hwarm : first + m < config.criticWarmup) :
    ∃ s', trainStep config s = .ok s' ∧ Progress config first (m + 1) s' := by
  have hbefore : first + m < config.firstUpdate first := lt_max_of_lt_right hwarm
  have hdrawn := h.position_drawBatch
  unfold ExtpiRlsd.trainStep
  simp only [drawBatch_trainer, h.step]
  rw [if_pos hwarm]
  refine ⟨_, rfl, ?_, ?_, ?_, ?_, ?_, ?_, drawBatch_drawn_le hL h.drawn_le, ?_⟩
  · push_cast
    exact Int.add_assoc _ _ _
  · show s.trainer.extpiTeacherLastSyncStep = _
    rw [h.last, if_neg (by omega), if_neg (by push_cast; omega)]
  · intro hlt
    push_cast at hlt
    omega
  · show s.trainer.worker.syncs = _
    rw [stepsFrom_succ, List.filter_append, ← h.syncs]
    simp [not_le.mpr hbefore]
  · show s.trainer.worker.scored = _
    rw [stepsFrom_succ, List.filter_append, List.map_append, ← h.scored]
    simp [not_le.mpr hbefore]
  · show (((drawBatch config s).epoch * config.stepsPerEpoch + (drawBatch config s).drawn : ℕ) : ℤ)
      = _
    rw [hdrawn]
    push_cast
    omega
  · show config.SavedFrom first (m + 1) (drawBatch config s).disk
    rw [drawBatch_disk]
    exact h.saved.not_written fun hwrites => not_le.mpr hwarm hwrites.1

/-- The process after the hook has run, whatever becomes of the disk. -/
theorem Progress.hooked (hL : 0 < config.stepsPerEpoch) {first : ℤ} {m : ℕ} {s : FitState}
    (h : Progress config first m s) (hupdate : config.firstUpdate first ≤ first + m)
    {t : TrainerState SnapshotWorker}
    (hlast : t.extpiTeacherLastSyncStep = some (snapshotStep config.teacherSyncInterval
      (config.firstUpdate first) (first + m)))
    (htaken : t.worker.teacherTakenAt = t.extpiTeacherLastSyncStep)
    (hsyncs : t.worker.syncs = s.trainer.worker.syncs ++
      (if config.teacherSyncInterval ∣ first + m - config.firstUpdate first then [first + m]
        else []))
    (hscored : t.worker.scored = s.trainer.worker.scored ++
      [(first + m, some (snapshotStep config.teacherSyncInterval (config.firstUpdate first)
        (first + m)))])
    {disk : Disk} (hdisk : config.SavedFrom first (m + 1) disk) :
    Progress config first (m + 1) ⟨⟨first + m + 1, t.extpiTeacherLastSyncStep, t.worker⟩,
      (drawBatch config s).epoch, (drawBatch config s).drawn, disk⟩ := by
  have hcast : first + ((m + 1 : ℕ) : ℤ) = first + m + 1 := by
    push_cast
    exact (Int.add_assoc _ _ _).symm
  have hcast' : first + ((m + 1 : ℕ) : ℤ) - 1 = first + m := by omega
  refine ⟨hcast.symm, ?_, fun _ => htaken, ?_, ?_, ?_, drawBatch_drawn_le hL h.drawn_le, hdisk⟩
  · rw [hcast', if_pos (by omega)]
    exact hlast
  · show t.worker.syncs = _
    rw [hsyncs, stepsFrom_succ, List.filter_append, ← h.syncs]
    by_cases hdvd : config.teacherSyncInterval ∣ first + m - config.firstUpdate first
    · simp [hdvd, hupdate]
    · simp [hdvd]
  · show t.worker.scored = _
    rw [hscored, stepsFrom_succ, List.filter_append, List.map_append, ← h.scored]
    simp [hupdate]
  · rw [hcast']
    exact h.position_drawBatch

/-- The step lemma: a step never raises, and the process stays on its schedule. -/
theorem Progress.trainStep (hk : 1 ≤ config.teacherSyncInterval) (hL : 0 < config.stepsPerEpoch)
    {first : ℤ} {m : ℕ} {s : FitState} (h : Progress config first m s) :
    ∃ s', trainStep config s = .ok s' ∧ Progress config first (m + 1) s' := by
  by_cases hwarm : first + m < config.criticWarmup
  · exact h.trainStep_warmup hL hwarm
  · have hupdate : config.firstUpdate first ≤ first + m := by
      have hstart : first ≤ first + m := by omega
      exact max_le hstart (not_lt.mp hwarm)
    obtain ⟨t, hrun, hstep, hlast, htaken, hsyncs, hscored⟩ := h.hook hk hupdate
    unfold ExtpiRlsd.trainStep
    simp only [drawBatch_trainer, h.step]
    rw [if_neg hwarm, hrun]
    by_cases hsaves : config.saves (first + m)
    · simp only [if_pos hsaves]
      refine ⟨_, rfl, h.hooked hL hupdate hlast htaken hsyncs hscored ?_⟩
      refine FitConfig.SavedFrom.saveCheckpoint ?_ hstep (htaken.trans hlast) h.position_drawBatch
        (drawBatch_drawn_le hL h.drawn_le) ⟨not_lt.mp hwarm, hsaves⟩
      rw [drawBatch_disk]
      exact h.saved
    · simp only [if_neg hsaves]
      refine ⟨_, rfl, h.hooked hL hupdate hlast htaken hsyncs hscored ?_⟩
      rw [drawBatch_disk]
      exact h.saved.not_written fun h => hsaves h.2

/-- How many of `n` batches the loop uses when it is entered at a step. -/
def FitConfig.loopSteps (config : FitConfig) (step : ℤ) (n : ℕ) : ℕ :=
  min n (max 1 (config.totalTrainingSteps - step + 1)).toNat

/-- The run lemma: the loop never raises, and the process stays on its schedule. -/
theorem Progress.fitLoop (hk : 1 ≤ config.teacherSyncInterval) (hL : 0 < config.stepsPerEpoch)
    {first : ℤ} (n : ℕ) {m : ℕ} {s : FitState} (h : Progress config first m s) :
    ∃ s', fitLoop config n s = .ok s' ∧
      Progress config first (m + config.loopSteps (first + m) n) s' := by
  induction n generalizing m s with
  | zero =>
      refine ⟨s, rfl, ?_⟩
      have hzero : config.loopSteps (first + m) 0 = 0 := Nat.zero_min _
      rw [hzero]
      exact h
  | succ n ih =>
      obtain ⟨s', hs', h'⟩ := h.trainStep hk hL
      unfold ExtpiRlsd.fitLoop
      rw [hs', h.step]
      by_cases hlast : config.totalTrainingSteps ≤ first + m
      · have hone : config.loopSteps (first + m) (n + 1) = 1 := by
          unfold FitConfig.loopSteps
          omega
        rw [hone]
        exact ⟨s', if_pos hlast, h'⟩
      · obtain ⟨s'', hs'', h''⟩ := ih h'
        have hsteps : m + config.loopSteps (first + m) (n + 1) =
            m + 1 + config.loopSteps (first + (m + 1 : ℕ)) n := by
          unfold FitConfig.loopSteps
          push_cast
          omega
        rw [hsteps]
        exact ⟨s'', (if_neg hlast).trans hs'', h''⟩

/-- A process that has begun its epoch has the batches of the whole run left but those done. -/
theorem batchesLeft_eq {s : FitState} (hd : s.drawn < config.stepsPerEpoch) :
    batchesLeft config s = config.totalEpochs * config.stepsPerEpoch -
      (s.epoch * config.stepsPerEpoch + s.drawn) := by
  unfold batchesLeft
  by_cases h : s.epoch < config.totalEpochs
  · obtain ⟨rest, hrest⟩ := Nat.exists_eq_add_of_lt h
    have hsub : config.totalEpochs - s.epoch - 1 = rest := by omega
    rw [if_pos h, hsub, hrest, Nat.add_mul, Nat.add_mul, Nat.one_mul]
    omega
  · have hle := Nat.mul_le_mul_right config.stepsPerEpoch (Nat.le_of_not_lt h)
    rw [if_neg h]
    omega

theorem FitConfig.savedFrom_zero (config : FitConfig) (first : ℤ) (disk : Disk) :
    config.SavedFrom first 0 disk := by
  refine ⟨fun step hfirst hlt _ => ?_, fun _ step hfirst hlt _ _ => ?_⟩
  · push_cast at hlt
    omega
  · push_cast at hlt
    omega

/-- A new run starts at step 1 with all batches. -/
theorem startFit_empty (hL : 0 < config.stepsPerEpoch) :
    ∃ s, startFit config .auto Disk.empty = .ok s ∧ Progress config 1 0 s ∧
      batchesLeft config s = config.totalEpochs * config.stepsPerEpoch := by
  have hfirst : ¬ config.firstUpdate 1 < 1 + ((0 : ℕ) : ℤ) := by
    have := le_max_left (1 : ℤ) config.criticWarmup
    unfold FitConfig.firstUpdate
    omega
  refine ⟨_, rfl, ⟨rfl, ?_, fun h => absurd h hfirst, rfl, rfl, ?_, Nat.zero_le _, ?_⟩, ?_⟩
  · exact (if_neg hfirst).symm
  · simp [FitState.new]
  · exact config.savedFrom_zero 1 _
  · rw [batchesLeft_eq hL]
    simp [FitState.new]

/-- A position in the data that is inside an epoch is the remainder of the step. -/
theorem drawn_eq_mod {c epoch drawn stepsPerEpoch : ℕ} (hposition : epoch * stepsPerEpoch + drawn = c)
    (hle : drawn ≤ stepsPerEpoch) (hinside : ¬ c % stepsPerEpoch = 0) :
    drawn = c % stepsPerEpoch := by
  have hmod : c % stepsPerEpoch = drawn % stepsPerEpoch := by
    rw [← hposition, Nat.add_comm, Nat.add_mul_mod_self_right]
  have hlt : drawn < stepsPerEpoch := by
    refine lt_of_le_of_ne hle fun heq => hinside ?_
    rw [hmod, heq, Nat.mod_self]
  rw [hmod, Nat.mod_eq_of_lt hlt]

/-- The mode finds the checkpoint of step `c`, with the snapshot that the run then had. -/
theorem Interrupted.loadCheckpoint {mode : ResumeMode} {c n : ℕ} (hi : Interrupted config mode c n)
    {killed : FitState} (h : Progress config 1 n killed) : ∃ epoch drawn : ℕ,
      loadCheckpoint config mode (FitState.new killed.disk) =
        .ok (restore config c ⟨some (snapshotStep config.teacherSyncInterval
          (config.firstUpdate 1) c), drawn⟩ (FitState.new killed.disk)) ∧
      epoch * config.stepsPerEpoch + drawn = c ∧ drawn ≤ config.stepsPerEpoch := by
  have hone := hi.one_le
  have hle := hi.le
  obtain ⟨epoch, drawn, hcheckpoint, hposition, hdrawn⟩ :=
    h.saved.checkpoint c (by omega) (by omega) hi.written
  refine ⟨epoch, drawn, ?_, Int.ofNat_inj.mp hposition, hdrawn⟩
  unfold ExtpiRlsd.loadCheckpoint
  rcases hi.found with rfl | ⟨rfl, hasync, hlater⟩
  · simp only [FitState.new, hcheckpoint]
  · have hlatest := h.saved.latest hasync c (by omega) (by omega) hi.written
      fun later hlt hle' => hlater later hlt (by omega)
    simp only [FitState.new, hlatest, hcheckpoint]

/-- A process resumed from the checkpoint of step `c` starts at step `c + 1`, with no sync step
to remember, and the batches that are left. -/
theorem startFit_resumed (hL : 0 < config.stepsPerEpoch) {mode : ResumeMode} {c n : ℕ}
    (hi : Interrupted config mode c n) {killed : FitState} (h : Progress config 1 n killed) :
    ∃ s, startFit config mode killed.disk = .ok s ∧ Progress config (c + 1) 0 s ∧
      batchesLeft config s = config.totalEpochs * config.stepsPerEpoch - c := by
  obtain ⟨epoch, drawn, hload, hposition, hle⟩ := hi.loadCheckpoint h
  have hfirst : ¬ config.firstUpdate (c + 1) < (c : ℤ) + 1 + ((0 : ℕ) : ℤ) := by
    have := le_max_left ((c : ℤ) + 1) config.criticWarmup
    unfold FitConfig.firstUpdate
    omega
  have hepoch : ((c : ℤ) / (config.stepsPerEpoch : ℤ)).toNat = c / config.stepsPerEpoch := by
    rw [← Int.natCast_ediv, Int.toNat_natCast]
  -- the position in the epoch is the one of the checkpoint, also where its state is skipped
  have hdrawn : (if 0 < config.stepsPerEpoch ∧ (c : ℤ) % (config.stepsPerEpoch : ℤ) = 0 then 0
      else drawn) = c % config.stepsPerEpoch := by
    by_cases hboundary : c % config.stepsPerEpoch = 0
    · have hzero : (c : ℤ) % (config.stepsPerEpoch : ℤ) = 0 := by omega
      rw [if_pos ⟨hL, hzero⟩, hboundary]
    · have hne : ¬ (c : ℤ) % (config.stepsPerEpoch : ℤ) = 0 := by omega
      rw [if_neg fun h => hne h.2]
      exact drawn_eq_mod hposition hle hboundary
  have hstart : startFit config mode killed.disk = .ok ⟨⟨c + 1, none, ⟨some (snapshotStep
      config.teacherSyncInterval (config.firstUpdate 1) c), [], []⟩⟩,
      c / config.stepsPerEpoch, c % config.stepsPerEpoch, killed.disk⟩ := by
    unfold startFit
    rw [hload, ← hepoch, ← hdrawn]
    rfl
  have hdiv := Nat.div_add_mod' c config.stepsPerEpoch
  have hmod := Nat.mod_lt c hL
  refine ⟨_, hstart, ⟨?_, (if_neg hfirst).symm, fun h => absurd h hfirst, rfl, rfl, ?_, hmod.le,
    config.savedFrom_zero _ _⟩, ?_⟩
  · show (c : ℤ) + 1 = c + 1 + ((0 : ℕ) : ℤ)
    omega
  · rw [hdiv]
    omega
  · rw [batchesLeft_eq hmod, hdiv]

/-- The three processes: killed after step `n`, resumed from step `c`, and uninterrupted. -/
theorem fit_progress (hk : 1 ≤ config.teacherSyncInterval) (hL : 0 < config.stepsPerEpoch)
    {mode : ResumeMode} {c n : ℕ} (hi : Interrupted config mode c n) :
    ∃ killed resumed full, fitKilled config .auto Disk.empty n = .ok killed ∧
      fit config mode killed.disk = .ok resumed ∧ fit config .auto Disk.empty = .ok full ∧
      Progress config 1 n killed ∧
      Progress config (c + 1) (config.loopSteps (c + 1)
        (config.totalEpochs * config.stepsPerEpoch - c)) resumed ∧
      Progress config 1 (config.loopSteps 1 (config.totalEpochs * config.stepsPerEpoch)) full := by
  obtain ⟨s, hs, hprogress, hbatches⟩ := startFit_empty hL
  obtain ⟨killed, hkilled, hkilledProgress⟩ := hprogress.fitLoop hk hL n
  obtain ⟨full, hfull, hfullProgress⟩ := hprogress.fitLoop hk hL (batchesLeft config s)
  have hone : (1 : ℤ) + ((0 : ℕ) : ℤ) = 1 := by omega
  have hn : config.loopSteps 1 n = n := by
    have htraining := hi.training
    unfold FitConfig.loopSteps
    omega
  rw [hone, Nat.zero_add, hn] at hkilledProgress
  rw [hone, Nat.zero_add, hbatches] at hfullProgress
  obtain ⟨r, hr, hrprogress, hrbatches⟩ := startFit_resumed hL hi hkilledProgress
  obtain ⟨resumed, hresumed, hresumedProgress⟩ := hrprogress.fitLoop hk hL (batchesLeft config r)
  have hzero : (c : ℤ) + 1 + ((0 : ℕ) : ℤ) = c + 1 := by omega
  rw [hzero, Nat.zero_add, hrbatches] at hresumedProgress
  refine ⟨killed, resumed, full, ?_, ?_, ?_, hkilledProgress, hresumedProgress, hfullProgress⟩
  · unfold fitKilled
    rw [hs]
    exact hkilled
  · unfold fit
    rw [hr]
    exact hresumed
  · unfold fit
    rw [hs]
    exact hfull

theorem mem_stepsFrom {first t : ℤ} {n : ℕ} :
    t ∈ stepsFrom first n ↔ first ≤ t ∧ t < first + n := by
  unfold stepsFrom
  rw [List.mem_map]
  constructor
  · rintro ⟨i, hi, rfl⟩
    have := List.mem_range.mp hi
    omega
  · rintro ⟨hle, hlt⟩
    exact ⟨(t - first).toNat, List.mem_range.mpr (by omega), by omega⟩

theorem stepsFrom_add (first : ℤ) (m n : ℕ) :
    stepsFrom first (m + n) = stepsFrom first m ++ stepsFrom (first + m) n := by
  induction n with
  | zero =>
      rw [Nat.add_zero]
      exact (List.append_nil _).symm
  | succ n ih =>
      rw [← Nat.add_assoc, stepsFrom_succ, stepsFrom_succ, ih, List.append_assoc]
      push_cast
      rw [Int.add_assoc]

/-- A schedule that begins at one of its own syncs is the same schedule. -/
theorem snapshotStep_congr {syncInterval first first' : ℤ} (h : syncInterval ∣ first' - first)
    (step : ℤ) : snapshotStep syncInterval first' step = snapshotStep syncInterval first step := by
  have hsplit : step - first = step - first' + (first' - first) := by omega
  unfold snapshotStep
  rw [hsplit, Int.add_emod, Int.emod_eq_zero_of_dvd h, add_zero, Int.emod_emod_of_dvd _ dvd_rfl]

/-- What a process scores behind a step of its schedule. -/
theorem Progress.scored_after {first : ℤ} {m n : ℕ} {s : FitState}
    (h : Progress config first (m + n) s) (hupdate : config.firstUpdate first ≤ first + m) :
    s.trainer.worker.scored.filter (fun entry => decide (first + m - 1 < entry.1)) =
      (stepsFrom (first + m) n).map fun t =>
        (t, some (snapshotStep config.teacherSyncInterval (config.firstUpdate first) t)) := by
  rw [h.scored, List.filter_map, List.filter_filter, stepsFrom_add, List.filter_append]
  have hbefore : (stepsFrom first m).filter (fun t =>
      decide (first + m - 1 < t) && decide (config.firstUpdate first ≤ t)) = [] := by
    rw [List.filter_eq_nil_iff]
    intro t ht
    have := mem_stepsFrom.mp ht
    simp
    omega
  have hafter : (stepsFrom (first + m) n).filter (fun t =>
      decide (first + m - 1 < t) && decide (config.firstUpdate first ≤ t)) =
        stepsFrom (first + m) n := by
    rw [List.filter_eq_self]
    intro t ht
    have := mem_stepsFrom.mp ht
    simp
    omega
  exact congrArg _ ((congrArg₂ _ hbefore hafter).trans (List.nil_append _))

/-- What a process synced up to a step of its schedule. -/
theorem Progress.syncs_before {first : ℤ} {m n : ℕ} {s : FitState}
    (h : Progress config first (m + n) s) :
    s.trainer.worker.syncs.filter (fun step => decide (step ≤ first + m - 1)) =
      (stepsFrom first m).filter fun t => decide (config.firstUpdate first ≤ t ∧
        config.teacherSyncInterval ∣ t - config.firstUpdate first) := by
  rw [h.syncs, stepsFrom_add, List.filter_append, List.filter_append, List.filter_filter]
  have hafter : ((stepsFrom (first + m) n).filter fun t => decide (config.firstUpdate first ≤ t ∧
      config.teacherSyncInterval ∣ t - config.firstUpdate first)).filter
        (fun step => decide (step ≤ first + m - 1)) = [] := by
    rw [List.filter_eq_nil_iff]
    intro t ht
    have := mem_stepsFrom.mp (List.mem_filter.mp ht).1
    simp
    omega
  rw [hafter, List.append_nil]
  refine List.filter_congr fun t ht => ?_
  have hbefore : t ≤ first + m - 1 := by
    have := mem_stepsFrom.mp ht
    omega
  rw [decide_eq_true hbefore, Bool.true_and]

/-- A resumed process that begins at a sync of the schedule goes on with it. -/
theorem Progress.resume {c m n : ℕ} {killed resumed full : FitState}
    (hkilled : Progress config 1 (c + n) killed) (hresumed : Progress config (c + 1) m resumed)
    (hfull : Progress config 1 (c + m) full) (hfirst : config.firstUpdate 1 ≤ c)
    (hdvd : 0 < m → config.teacherSyncInterval ∣ c + 1 - config.firstUpdate 1) :
    (killed.trainer.worker.syncs.filter fun step => decide (step ≤ (c : ℤ))) ++
        resumed.trainer.worker.syncs = full.trainer.worker.syncs ∧
      resumed.trainer.worker.scored =
        full.trainer.worker.scored.filter fun entry => decide ((c : ℤ) < entry.1) := by
  have hwarm := le_max_right (1 : ℤ) config.criticWarmup
  have hresumedFirst : config.firstUpdate (c + 1) = c + 1 := by
    unfold FitConfig.firstUpdate at hfirst ⊢
    omega
  have hshift : (1 : ℤ) + c = c + 1 := Int.add_comm 1 c
  have hpred : (1 : ℤ) + c - 1 = c := by omega
  have hsteps : ∀ t ∈ stepsFrom (c + 1) m, (c : ℤ) + 1 ≤ t ∧
      config.teacherSyncInterval ∣ c + 1 - config.firstUpdate 1 := by
    intro t ht
    obtain ⟨hle, hlt⟩ := mem_stepsFrom.mp ht
    exact ⟨hle, hdvd (by omega)⟩
  constructor
  · have hbefore := hkilled.syncs_before
    rw [hpred] at hbefore
    rw [hbefore, hfull.syncs, hresumed.syncs, stepsFrom_add, List.filter_append, hshift,
      hresumedFirst]
    refine congrArg _ (List.filter_congr fun t ht => ?_)
    obtain ⟨hle, hd⟩ := hsteps t ht
    have hsplit : t - config.firstUpdate 1 = t - (c + 1) + (c + 1 - config.firstUpdate 1) := by
      omega
    rw [decide_eq_decide, hsplit, Int.dvd_add_left hd]
    exact and_congr_left fun _ => iff_of_true hle (by omega)
  · have hafter := hfull.scored_after (by omega)
    rw [hpred, hshift] at hafter
    have hall : (stepsFrom (c + 1) m).filter (fun t => decide (config.firstUpdate (c + 1) ≤ t)) =
        stepsFrom (c + 1) m := by
      rw [List.filter_eq_self, hresumedFirst]
      intro t ht
      exact decide_eq_true (hsteps t ht).1
    rw [hafter, hresumed.scored, hall, hresumedFirst]
    refine List.map_congr_left fun t ht => ?_
    rw [snapshotStep_congr (hsteps t ht).2]

/-- The three runs of the statement are determined. -/
theorem resumePreserves_iff_of_runs {mode : ResumeMode} {c n : ℕ} {killed resumed full : FitState}
    (hkilled : fitKilled config .auto Disk.empty n = .ok killed)
    (hresumed : fit config mode killed.disk = .ok resumed)
    (hfull : fit config .auto Disk.empty = .ok full) :
    ResumePreserves config mode c n ↔
      (killed.trainer.worker.syncs.filter fun step => decide (step ≤ (c : ℤ))) ++
        resumed.trainer.worker.syncs = full.trainer.worker.syncs ∧
      resumed.trainer.worker.scored =
        full.trainer.worker.scored.filter fun entry => decide ((c : ℤ) < entry.1) := by
  constructor
  · rintro ⟨killed', resumed', full', hkilled', hresumed', hfull', hrest⟩
    obtain rfl := Except.ok.inj (hkilled.symm.trans hkilled')
    obtain rfl := Except.ok.inj (hresumed.symm.trans hresumed')
    obtain rfl := Except.ok.inj (hfull.symm.trans hfull')
    exact hrest
  · intro hrest
    exact ⟨killed, resumed, full, hkilled, hresumed, hfull, hrest⟩

end process

/-- **Resuming keeps the snapshot schedule exactly at its sync points.**  A run interrupted after
step `c` goes on as the uninterrupted run if and only if no batch is left at `c`, or `c` lies
before the last training step and the uninterrupted run syncs at step `c + 1`. -/
theorem resumePreserves_iff {config : FitConfig} (hk : 1 ≤ config.teacherSyncInterval)
    {mode : ResumeMode} {c n : ℕ} (hi : Interrupted config mode c n) :
    ResumePreserves config mode c n ↔ c = config.totalEpochs * config.stepsPerEpoch ∨
      (c : ℤ) < config.totalTrainingSteps ∧
        config.teacherSyncInterval ∣ c + 1 - max 1 config.criticWarmup := by
  have hone := hi.one_le
  have hbatches := hi.batches
  have htraining := hi.training
  obtain ⟨r, rfl⟩ := Nat.exists_eq_add_of_le hi.le
  have hL : 0 < config.stepsPerEpoch := by
    rcases Nat.eq_zero_or_pos config.stepsPerEpoch with hzero | hpos
    · rw [hzero, Nat.mul_zero] at hbatches
      omega
    · exact hpos
  have hfirst : config.firstUpdate 1 ≤ c := max_le (by omega) hi.written.1
  obtain ⟨killed, resumed, full, hkilled, hresumed, hfull, hprogress, hrprogress, hfprogress⟩ :=
    fit_progress hk hL hi
  rw [resumePreserves_iff_of_runs hkilled hresumed hfull]
  show _ ↔ _ ∨ _ ∧ config.teacherSyncInterval ∣ c + 1 - config.firstUpdate 1
  constructor
  · rintro ⟨hsyncs, -⟩
    by_cases hexhausted : c = config.totalEpochs * config.stepsPerEpoch
    · exact .inl hexhausted
    · -- the resumed process syncs at its first step, so the uninterrupted run does
      have hmem : (c : ℤ) + 1 ∈ resumed.trainer.worker.syncs := by
        have hstart : config.firstUpdate (c + 1) = c + 1 := by
          have := hi.written.1
          unfold FitConfig.firstUpdate
          omega
        rw [hrprogress.syncs, List.mem_filter, hstart, mem_stepsFrom]
        refine ⟨⟨le_refl _, ?_⟩, by simp⟩
        unfold FitConfig.loopSteps
        omega
      have hmem' : (c : ℤ) + 1 ∈ full.trainer.worker.syncs := by
        rw [← hsyncs]
        exact List.mem_append_right _ hmem
      rw [hfprogress.syncs, List.mem_filter, mem_stepsFrom] at hmem'
      obtain ⟨⟨-, hlt⟩, hdue⟩ := hmem'
      refine .inr ⟨?_, (of_decide_eq_true hdue).2⟩
      unfold FitConfig.loopSteps at hlt
      omega
  · intro h
    have hsteps : config.loopSteps 1 (config.totalEpochs * config.stepsPerEpoch) = c +
        config.loopSteps (c + 1) (config.totalEpochs * config.stepsPerEpoch - c) := by
      unfold FitConfig.loopSteps
      rcases h with h | ⟨h, -⟩
      · omega
      · omega
    rw [hsteps] at hfprogress
    refine hprogress.resume hrprogress hfprogress hfirst fun hpos => ?_
    rcases h with h | ⟨-, hdvd⟩
    · unfold FitConfig.loopSteps at hpos
      omega
    · exact hdvd

/-- Four training steps with a sync at every second one and a checkpoint at each. -/
def everySecondStep : FitConfig where
  totalTrainingSteps := 4
  stepsPerEpoch := 2
  totalEpochs := 3
  criticWarmup := 0
  teacherSyncInterval := 2
  saveFreq := 1
  asyncSave := false
  esi := fun _ => false

theorem everySecondStep_interrupted {c : ℕ} (h1 : 1 ≤ c) (h4 : c ≤ 4) :
    Interrupted everySecondStep .auto c c where
  one_le := h1
  le := le_refl c
  batches := h4.trans (by decide)
  training := .inl (Int.ofNat_le.mpr h4)
  written := ⟨Int.natCast_nonneg c, by decide, .inr (.inl (Int.one_dvd _))⟩
  found := .inr ⟨rfl, rfl, fun _ hlt hle => absurd hle (not_le.mpr hlt)⟩

/-- At step 3 the uninterrupted run syncs, so the checkpoint of step 2 is resumed in time. -/
theorem resumePreserves_everySecondStep : ResumePreserves everySecondStep .auto 2 2 :=
  (resumePreserves_iff (by decide) (everySecondStep_interrupted (by decide) (by decide))).mpr
    (.inr ⟨by decide, by decide⟩)

/-- From the checkpoint of step 1 the resumed run syncs at the steps 2 and 4; the uninterrupted
run syncs at 1 and 3. -/
theorem resumed_between_syncs : Interrupted everySecondStep .auto 1 1 ∧
    ¬ ResumePreserves everySecondStep .auto 1 1 := by
  refine ⟨everySecondStep_interrupted (by decide) (by decide), ?_⟩
  rintro ⟨killed, resumed, full, hkilled, hresumed, hfull, hsyncs, -⟩
  have hk : killed.trainer.worker.syncs = [1] := by
    cases hkilled
    rfl
  have hf : full.trainer.worker.syncs = [1, 3] := by
    cases hfull
    rfl
  have hr : resumed.trainer.worker.syncs = [2, 4] := by
    cases hkilled
    cases hresumed
    rfl
  rw [hk, hr, hf] at hsyncs
  exact absurd hsyncs (by decide)

end ExtpiRlsd
