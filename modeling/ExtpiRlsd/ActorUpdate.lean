import ExtpiRlsd.DirectOpd
import ExtpiRlsd.Rlsd

/-! # The hook before an actor update

`_before_actor_update` of `trainer.py` with what it calls on the way: the schedule of the RLSD
weight, the token mask, and for either mode the score batch, its log-probs, the shape check and
the tensor it stores.  How the privileged batch is scored is a parameter, since the update mode
of the teacher chooses the worker call; the student-prompt batch is scored in micro-batches.

The diagnostics of the hook that only time or size the device are left out. -/

namespace ExtpiRlsd

open Tensors Masks PyText Checked

variable {Tok : Type}

/-! ### The weight and the token mask -/

/-- The options of `policy_loss` and `extpi_rlsd` that the hook reads. -/
structure ActorUpdateConfig where
  rlsdEnabled : Bool
  opdPgEnabled : Bool
  rlsdLambda : ℝ
  rlsdLambdaWarmupSteps : ℤ
  rlsdLambdaDecaySteps : ℤ
  rlsdTokenMask : PyStr
  directOpdTeacherBackend : PyStr
  directOpdTeacherMaxPromptLength : ℕ
  directOpdTeacherThinking : Bool
  directOpdTeacherMicroBatchSize : ℕ
  directOpdTeacherTemperature : ℝ
  teacherMaxPromptLength : ℕ
  allowTeacherPromptTruncation : Bool
  onlineTeacherThinking : Bool
  piTraceField : PyStr

/-- `_compute_effective_rlsd_lambda` at a global step. -/
noncomputable def computeEffectiveRlsdLambda (config : ActorUpdateConfig) (step : ℤ) :
    Except TrainerError ℝ :=
  let targetLambda := config.rlsdLambda
  let warmupSteps := config.rlsdLambdaWarmupSteps
  let decaySteps := config.rlsdLambdaDecaySteps
  if warmupSteps < 0 then .error .lambdaWarmup
  else if decaySteps < 0 then .error .lambdaDecay
  else if 0 < warmupSteps ∧ step < warmupSteps then .ok (targetLambda * (step / warmupSteps))
  else if 0 < decaySteps ∧ warmupSteps ≤ step then
    let decayProgress : ℝ := (step - warmupSteps) / decaySteps
    .ok (targetLambda * max (1 - decayProgress) 0)
  else .ok targetLambda

/-- The aliases of the token mask with their first-token count; `none` selects all tokens. -/
def tokenMaskAliases : List (PyStr × Option ℕ) :=
  [("all".toList, none), ("all8k".toList, none), ("all-8k".toList, none),
    ("2k+ans".toList, some 2048), ("first2k+tail256".toList, some 2048),
    ("first-2k+tail-256".toList, some 2048), ("4k+ans".toList, some 4096),
    ("first4k+tail256".toList, some 4096), ("first-4k+tail-256".toList, some 4096),
    ("6k+ans".toList, some 6144), ("first6k+tail256".toList, some 6144),
    ("first-6k+tail-256".toList, some 6144)]

/-- The valid tokens of a row among the first `firstK` or the last 256 valid ones; the running
count of valid tokens is compared. -/
def firstAndTail (firstK : ℕ) (m : List Bool) : List Bool :=
  let tokenIndex := cumsum 0 (m.map Bool.toNat)
  let validLength := m.count true
  List.zipWith (fun b idx => b && (decide (idx ≤ firstK) || decide (validLength - 256 < idx)))
    m tokenIndex

theorem length_firstAndTail (firstK : ℕ) (m : List Bool) :
    (firstAndTail firstK m).length = m.length := by
  simp [firstAndTail, length_cumsum]

/-- `_build_rlsd_token_mask`; an empty specification stands for `all`. -/
def buildRlsdTokenMask (responseMask : Tensor Bool) (spec : PyStr) :
    Except TrainerError (Tensor Bool) :=
  let normalized := normalizeName (if spec = [] then "all".toList else spec)
  match tokenMaskAliases.find? fun entry => entry.1 == normalized with
  | none => .error (.tokenMaskSpec spec)
  | some (_, none) => .ok responseMask
  | some (_, some firstK) =>
      .ok (responseMask.mapRows (firstAndTail firstK) (length_firstAndTail firstK))

/-! ### The hook -/

/-- The log-probs of the teacher, checked against the response mask and multiplied by it. -/
noncomputable def storeTeacherLogProbs (name : String) (teacherLogProbs : Tensor ℝ)
    (responseMask : Tensor Bool) : Except TrainerError (Tensor ℝ) :=
  if teacherLogProbs.shape ≠ responseMask.shape then
    .error (.teacherShape name teacherLogProbs.shape responseMask.shape)
  else .ok (Tensor.map₂ (· * ·) teacherLogProbs (asMask responseMask))

/-- `verl.utils.torch_functional.masked_mean`. -/
noncomputable def masked_mean (values : Tensor ℝ) (mask : Tensor Bool) : ℝ :=
  (whereElse 0 mask values).total / (mask.count + 1e-8)

/-- What the hook adds to the batch and to the metrics. -/
structure ActorUpdate where
  rlsdEffectiveLambda : Option ℝ
  rlsdTokenMask : Option (Tensor Bool)
  teacherPiLogProbs : Option (Tensor ℝ)
  teacherOpdLogProbs : Option (Tensor ℝ)
  buildMetrics : Option BuildMetrics
  teacherLogpMean : Option ℝ
  teacherDeltaMean : Option ℝ

section hook
variable [Zero Tok] (printable : Char → Bool) (config : ActorUpdateConfig)
  (tokenizer : Tokenizer Tok)

/-- The branch of the hook for direct OPD. -/
noncomputable def beforeActorUpdateOpd
    (scoreDirectOpd : PaddedBatch Tok → Except TrainerError (Tensor ℝ))
    (batch : SourceBatch Tok) (oldLogProbs : Tensor ℝ) : Except TrainerError ActorUpdate := do
  if config.directOpdTeacherBackend ≠ "inline_external_hf".toList then throw .backend
  let build ← buildDirectOpdTeacherScoreBatch batch tokenizer
    config.directOpdTeacherMaxPromptLength config.directOpdTeacherThinking
  let teacherLogProbs ← scoreDirectOpd build.batch
  let mask := build.batch.responseMask
  let stored ← storeTeacherLogProbs "teacher_opd_log_probs" teacherLogProbs mask
  return {
    rlsdEffectiveLambda := none
    rlsdTokenMask := none
    teacherPiLogProbs := none
    teacherOpdLogProbs := some stored
    buildMetrics := some build.metrics
    teacherLogpMean := some (masked_mean teacherLogProbs mask)
    teacherDeltaMean :=
      some (masked_mean (Tensor.map₂ (· - ·) teacherLogProbs oldLogProbs) mask) }

/-- The branch of the hook for RLSD. -/
noncomputable def beforeActorUpdateRlsd (globalSteps : ℤ)
    (computePiTeacherLogProb : PaddedBatch Tok → Except TrainerError (Tensor ℝ))
    (batch : SourceBatch Tok) (oldLogProbs : Tensor ℝ) : Except TrainerError ActorUpdate := do
  let effectiveLambda ← computeEffectiveRlsdLambda config globalSteps
  let some responseMask := batch.responseMask | throw (.missingKey "response_mask")
  let tokenMask ← buildRlsdTokenMask responseMask config.rlsdTokenMask
  let build ← buildPiTeacherScoreBatch printable tokenizer batch config.teacherMaxPromptLength
    config.allowTeacherPromptTruncation config.onlineTeacherThinking config.piTraceField
  let teacherLogProbs ← computePiTeacherLogProb build.batch
  let stored ← storeTeacherLogProbs "teacher_pi_log_probs" teacherLogProbs responseMask
  return {
    rlsdEffectiveLambda := some effectiveLambda
    rlsdTokenMask := some tokenMask
    teacherPiLogProbs := some stored
    teacherOpdLogProbs := none
    buildMetrics := some build.metrics
    teacherLogpMean := some (masked_mean teacherLogProbs responseMask)
    teacherDeltaMean :=
      some (masked_mean (Tensor.map₂ (· - ·) teacherLogProbs oldLogProbs) responseMask) }

/-- `_before_actor_update`; `none` when neither mode is enabled. -/
noncomputable def beforeActorUpdate (globalSteps : ℤ)
    (computePiTeacherLogProb scoreDirectOpd : PaddedBatch Tok → Except TrainerError (Tensor ℝ))
    (batch : SourceBatch Tok) (oldLogProbs : Tensor ℝ) :
    Except TrainerError (Option ActorUpdate) :=
  if config.rlsdEnabled && config.opdPgEnabled then .error .exclusiveModes
  else if config.opdPgEnabled then
    (beforeActorUpdateOpd config tokenizer scoreDirectOpd batch oldLogProbs).map some
  else if config.rlsdEnabled then
    (beforeActorUpdateRlsd printable config tokenizer globalSteps computePiTeacherLogProb batch
      oldLogProbs).map some
  else .ok none

end hook

/-! ### The hook in RLSD mode -/

/-- RLSD is the enabled mode, and its weight schedule and token mask are accepted. -/
structure RlsdMode (config : ActorUpdateConfig) : Prop where
  enabled : config.rlsdEnabled = true
  exclusive : config.opdPgEnabled = false
  warmup : 0 ≤ config.rlsdLambdaWarmupSteps
  decay : 0 ≤ config.rlsdLambdaDecaySteps
  tokenMask : normalizeName (if config.rlsdTokenMask = [] then "all".toList
    else config.rlsdTokenMask) ∈ tokenMaskAliases.map Prod.fst

theorem computeEffectiveRlsdLambda_eq_ok {config : ActorUpdateConfig}
    (hwarmup : 0 ≤ config.rlsdLambdaWarmupSteps) (hdecay : 0 ≤ config.rlsdLambdaDecaySteps)
    (step : ℤ) : ∃ effective, computeEffectiveRlsdLambda config step = .ok effective := by
  simp only [computeEffectiveRlsdLambda, if_neg (not_lt.mpr hwarmup), if_neg (not_lt.mpr hdecay)]
  split
  · exact ⟨_, rfl⟩
  · split
    · exact ⟨_, rfl⟩
    · exact ⟨_, rfl⟩

theorem buildRlsdTokenMask_eq_ok {spec : PyStr}
    (h : normalizeName (if spec = [] then "all".toList else spec) ∈ tokenMaskAliases.map Prod.fst)
    (responseMask : Tensor Bool) : ∃ mask, buildRlsdTokenMask responseMask spec = .ok mask := by
  obtain ⟨entry, hentry, hname⟩ := List.mem_map.mp h
  unfold buildRlsdTokenMask
  cases hfind : tokenMaskAliases.find? fun entry =>
      entry.1 == normalizeName (if spec = [] then "all".toList else spec) with
  | none => exact absurd (beq_iff_eq.mpr hname) (List.find?_eq_none.mp hfind entry hentry)
  | some found =>
      obtain ⟨_, count⟩ := found
      cases count with
      | none => exact ⟨responseMask, by simp only [hfind]⟩
      | some firstK => exact ⟨_, by simp only [hfind]; rfl⟩

section rlsd
variable [Zero Tok] {printable : Char → Bool} {config : ActorUpdateConfig}
  {tokenizer : Tokenizer Tok} {globalSteps : ℤ}
  {computePiTeacherLogProb scoreDirectOpd : PaddedBatch Tok → Except TrainerError (Tensor ℝ)}
  {batch : SourceBatch Tok} {oldLogProbs : Tensor ℝ} {build : PiTeacherBatchBuild Tok}

/-- In RLSD mode an accepted batch goes to the teacher, and an error of the teacher is that of
the hook. -/
theorem beforeActorUpdate_teacherError (hmode : RlsdMode config)
    (hbuild : buildPiTeacherScoreBatch printable tokenizer batch config.teacherMaxPromptLength
      config.allowTeacherPromptTruncation config.onlineTeacherThinking config.piTraceField =
        .ok build) {e : TrainerError} (hteacher : computePiTeacherLogProb build.batch = .error e) :
    beforeActorUpdate printable config tokenizer globalSteps computePiTeacherLogProb
      scoreDirectOpd batch oldLogProbs = .error e := by
  obtain ⟨_, _, _, _, built⟩ := buildPiTeacherScoreBatch_eq_ok hbuild
  obtain ⟨effective, heffective⟩ :=
    computeEffectiveRlsdLambda_eq_ok hmode.warmup hmode.decay globalSteps
  obtain ⟨tokenMask, htokenMask⟩ :=
    buildRlsdTokenMask_eq_ok hmode.tokenMask build.batch.responseMask
  simp only [beforeActorUpdate, hmode.enabled, hmode.exclusive, beforeActorUpdateRlsd, heffective,
    built.responseMask, htokenMask, hbuild, bind, Except.bind, hteacher]
  rfl

/-- In RLSD mode the hook stores the teacher's log-probs multiplied by the response mask. -/
theorem beforeActorUpdate_stored (globalSteps : ℤ)
    (scoreDirectOpd : PaddedBatch Tok → Except TrainerError (Tensor ℝ)) (oldLogProbs : Tensor ℝ)
    (hmode : RlsdMode config)
    (hbuild : buildPiTeacherScoreBatch printable tokenizer batch config.teacherMaxPromptLength
      config.allowTeacherPromptTruncation config.onlineTeacherThinking config.piTraceField =
        .ok build) {T : Tensor ℝ} (hteacher : computePiTeacherLogProb build.batch = .ok T)
    (hshape : T.shape = build.batch.responseMask.shape) :
    ∃ update, beforeActorUpdate printable config tokenizer globalSteps computePiTeacherLogProb
        scoreDirectOpd batch oldLogProbs = .ok (some update) ∧
      update.teacherPiLogProbs =
        some (Tensor.map₂ (· * ·) T (asMask build.batch.responseMask)) := by
  obtain ⟨_, _, _, _, built⟩ := buildPiTeacherScoreBatch_eq_ok hbuild
  obtain ⟨effective, heffective⟩ :=
    computeEffectiveRlsdLambda_eq_ok hmode.warmup hmode.decay globalSteps
  obtain ⟨tokenMask, htokenMask⟩ :=
    buildRlsdTokenMask_eq_ok hmode.tokenMask build.batch.responseMask
  have hstored : storeTeacherLogProbs "teacher_pi_log_probs" T build.batch.responseMask =
      .ok (Tensor.map₂ (· * ·) T (asMask build.batch.responseMask)) :=
    if_neg (not_not_intro hshape)
  simp only [beforeActorUpdate, hmode.enabled, hmode.exclusive, beforeActorUpdateRlsd, heffective,
    built.responseMask, htokenMask, hbuild, bind, Except.bind, hteacher, hstored]
  exact ⟨_, rfl, rfl⟩

end rlsd

end ExtpiRlsd
