import ExtpiRlsd.Lib.RowWise
import ExtpiRlsd.RlsdLocality

/-! # The policy loss of a micro-batch

`agg_loss`, `compute_policy_loss_vanilla` and `kl_penalty` of `core_algos.py`, and `ppo_loss` of
`losses.py`, which puts them together behind the token-level credit of `rlsd.py`.

The columns of a micro-batch are one tensor of tokens.  Every loss matrix is computed from it
row by row (`creditAdvantages_byRows`), and `agg_loss` adds up the rows; so the loss of a
micro-batch is a sum over its rows (`ppoLoss_additive`). -/

namespace ExtpiRlsd

open Tensors Masks

/-- `config.global_batch_info`. -/
structure GlobalBatchInfo where
  dpSize : ℕ
  batchNumTokens : Option ℕ
  globalBatchSize : Option ℕ
  lossScaleFactor : Option ℕ

inductive LossError (α : Type) where
  | batchNumTokens
  | globalBatchSize
  | aggMode (got : String)
  | clipRatioC (got : α)
  | exclusive
  | missing (flag column : String)
  | deltaSource (got : String)
  | credit (e : RlsdError α)
  | klPenalty
deriving DecidableEq

/-- The text of a failure; `NotImplementedError` has none. -/
def LossError.message {α : Type} (fmt : α → String) : LossError α → String
  | batchNumTokens => "(global) batch_num_tokens is required when dp_size > 1"
  | globalBatchSize => "global_batch_size is required when dp_size > 1"
  | aggMode got => "Invalid loss_agg_mode: " ++ got
  | clipRatioC got =>
      "The lower bound of the clip_ratio_c for dual-clip PPO should be greater than 1.0, but get the value: " ++
        fmt got ++ "."
  | exclusive =>
      "actor.policy_loss.rlsd_enabled and opd_pg_enabled are mutually exclusive"
  | missing flag column =>
      "actor.policy_loss." ++ flag ++ "=True requires " ++ column ++ " in the update batch"
  | deltaSource got =>
      "actor.policy_loss.rlsd_delta_student_logp_source must be 'current' or 'old', got '" ++ got ++ "'"
  | credit e => e.message fmt
  | klPenalty => ""

/-- One response position of an update batch. -/
structure PolicyToken (α : Type) where
  oldLogProb : α
  logProb : α
  entropy : α
  refLogProb : α
  advantage : α
  rolloutIsWeight : α
  teacherPiLogProb : α
  rlsdTokenMask : α
  teacherOpdLogProb : α
  responseMask : Bool

/-- The columns a batch may lack.  Absent importance weights are ones. -/
structure PolicyColumns where
  entropy : Bool
  teacherPiLogProbs : Bool
  rlsdTokenMask : Bool
  teacherOpdLogProbs : Bool

/-- The fields of the actor config that the loss reads. -/
structure ActorLossConfig (α : Type) where
  clipRatio : α
  clipRatioLow : Option α
  clipRatioHigh : Option α
  clipRatioC : α
  lossAggMode : String
  entropyCoeff : α
  useKlLoss : Bool
  klLossCoef : α
  klLossType : String
  rlsdEnabled : Bool
  rlsdDeltaSource : String
  rlsdConfig : RLSDConfig α
  opdPgEnabled : Bool
  opdLogratioClipAbs : α

section definitions
variable {α : Type} [Zero α] [One α] [Neg α] [Add α] [Sub α] [Mul α] [Div α] [NatCast α]
  [LT α] [LE α] [DecidableLT α] [DecidableLE α] [DecidableEq α] [OfScientific α] [Scalar α]

/-! ### Aggregation -/

/-- The sum of a row under its mask. -/
def tokenSum (r : List (α × Bool)) : α := (r.map fun p => if p.2 then p.1 else 0).sum

def tokenCount (r : List (α × Bool)) : ℕ := r.countP Prod.snd

/-- A number of the global batch, or the local one without data-parallel ranks. -/
def globalNumber (given : Option ℕ) (dpSize localNumber : ℕ) (e : LossError α) :
    Except (LossError α) ℕ :=
  match given with
  | some n => .ok n
  | none => if 1 < dpSize then .error e else .ok localNumber

/-- The loss of a row that has a valid position. -/
def seqLoss (lossAggMode : String) (r : List (α × Bool)) : α :=
  if lossAggMode = "seq-mean-token-mean" then tokenSum r / ((tokenCount r : α) + 1e-8)
  else tokenSum r

/-- `agg_loss` of a loss matrix beside its mask. -/
def aggLoss (loss : Tensor (α × Bool)) (lossAggMode : String) (info : GlobalBatchInfo) :
    Except (LossError α) α := do
  if lossAggMode = "token-mean" then
    let batchNumTokens ← globalNumber info.batchNumTokens info.dpSize
      (loss.rows.map tokenCount).sum .batchNumTokens
    return (loss.rows.map tokenSum).sum / (batchNumTokens : α) * (info.dpSize : α)
  if lossAggMode ≠ "seq-mean-token-sum" ∧ lossAggMode ≠ "seq-mean-token-sum-norm" ∧
      lossAggMode ≠ "seq-mean-token-mean" then throw (.aggMode lossAggMode)
  -- fully masked rows are left out
  let seqLosses := loss.rows.map fun r => if 0 < tokenCount r then seqLoss lossAggMode r else 0
  let globalBatchSize ← globalNumber info.globalBatchSize info.dpSize
    (loss.rows.countP fun r => decide (0 < tokenCount r)) .globalBatchSize
  let total := seqLosses.sum / (globalBatchSize : α) * (info.dpSize : α)
  return if lossAggMode = "seq-mean-token-sum-norm" then
    total / (info.lossScaleFactor.getD loss.cols : α) else total

/-! ### Token losses -/

/-- The ratio of the policies at a token. -/
def policyRatio (tok : PolicyToken α) : α :=
  Scalar.exp (clamp (-20.0) 20.0 (tok.logProb - tok.oldLogProb))

/-- The dual-clip loss of `compute_policy_loss_vanilla` at a token with an advantage. -/
def vanillaTokenLoss (config : ActorLossConfig α) (tok : PolicyToken α) (advantage : α) : α :=
  let low := config.clipRatioLow.getD config.clipRatio
  let high := config.clipRatioHigh.getD config.clipRatio
  let pgLosses1 := -advantage * policyRatio tok
  let pgLosses2 := -advantage * clamp (1 - low) (1 + high) (policyRatio tok)
  let clipPgLosses1 := if pgLosses1 < pgLosses2 then pgLosses2 else pgLosses1
  let pgLosses3 := -advantage * config.clipRatioC
  let clipPgLosses2 := if clipPgLosses1 < pgLosses3 then clipPgLosses1 else pgLosses3
  (if advantage < 0 then clipPgLosses2 else clipPgLosses1) * tok.rolloutIsWeight

/-- `kl_penalty_forward`, by the name of the estimator. -/
def klPenaltyForward? (kind : String) : Option (α → α → α) :=
  if kind = "kl" ∨ kind = "k1" then some fun logprob ref => logprob - ref
  else if kind = "abs" then some fun logprob ref => Tensors.abs (logprob - ref)
  else if kind = "mse" ∨ kind = "k2" then
    some fun logprob ref => 0.5 * ((logprob - ref) * (logprob - ref))
  else if kind = "low_var_kl" ∨ kind = "k3" then
    some fun logprob ref =>
      let kl := clamp (-20.0) 20.0 (ref - logprob)
      clamp (-10.0) 10.0 (Scalar.exp kl - kl - 1)
  else none

/-- The values of `kl_penalty`: a trailing plus only changes its gradient. -/
def klPenalty? (kind : String) : Option (α → α → α) :=
  klPenaltyForward? (if kind.endsWith "+" then (kind.dropEnd 1).copy else kind)

/-! ### The loss of the actor -/

/-- The loss matrix of a function of a token and its advantage. -/
def lossMatrix (f : PolicyToken α → α → α) (tokens : Tensor (PolicyToken α))
    (advantages : Tensor α) : Tensor (α × Bool) :=
  Tensor.map₂ (fun tok a => (f tok a, tok.responseMask)) tokens advantages

/-- The log-probs of the student behind the credit: the current ones or the old ones. -/
def studentLogProb (source : String) : Option (PolicyToken α → α) :=
  if source.toLower = "current" then some PolicyToken.logProb
  else if source.toLower = "old" then some PolicyToken.oldLogProb
  else none

/-- The advantages of `ppo_loss` with `rlsd_enabled`. -/
def rlsdCredit (config : ActorLossConfig α) (columns : PolicyColumns)
    (tokens : Tensor (PolicyToken α)) : Except (LossError α) (Tensor α) := do
  if ¬ columns.teacherPiLogProbs then throw (.missing "rlsd_enabled" "teacher_pi_log_probs")
  let student ← (studentLogProb config.rlsdDeltaSource).elim
    (.error (.deltaSource config.rlsdDeltaSource.toLower)) .ok
  ((computeRlsdAdvantages (tokens.map PolicyToken.teacherPiLogProb) (tokens.map student)
    (tokens.map PolicyToken.advantage) (tokens.map PolicyToken.responseMask)
    (if columns.rlsdTokenMask then some (tokens.map PolicyToken.rlsdTokenMask) else none)
    config.rlsdConfig).mapError .credit).map Prod.fst

/-- The advantages of `ppo_loss` with `opd_pg_enabled`. -/
def opdCredit (config : ActorLossConfig α) (columns : PolicyColumns)
    (tokens : Tensor (PolicyToken α)) : Except (LossError α) (Tensor α) := do
  if ¬ columns.teacherOpdLogProbs then throw (.missing "opd_pg_enabled" "teacher_opd_log_probs")
  ((computeOpdPgAdvantages (tokens.map PolicyToken.teacherOpdLogProb)
    (tokens.map PolicyToken.oldLogProb) (tokens.map PolicyToken.responseMask)
    config.opdLogratioClipAbs).mapError .credit).map Prod.fst

/-- The advantages of `ppo_loss`: those of the batch, or those of a teacher. -/
def creditAdvantages (config : ActorLossConfig α) (columns : PolicyColumns)
    (tokens : Tensor (PolicyToken α)) : Except (LossError α) (Tensor α) :=
  if config.rlsdEnabled ∧ config.opdPgEnabled then .error .exclusive
  else if config.rlsdEnabled then rlsdCredit config columns tokens
  else if config.opdPgEnabled then opdCredit config columns tokens
  else .ok (tokens.map PolicyToken.advantage)

/-- The entropy loss of `ppo_loss`, nothing without entropies. -/
def entropyLoss (config : ActorLossConfig α) (columns : PolicyColumns) (info : GlobalBatchInfo)
    (tokens : Tensor (PolicyToken α)) (advantages : Tensor α) : Except (LossError α) α :=
  if columns.entropy then
    aggLoss (lossMatrix (fun tok _ => tok.entropy) tokens advantages) config.lossAggMode info
  else .ok 0

/-- The KL loss of `ppo_loss`, nothing without `use_kl_loss`. -/
def klLoss (config : ActorLossConfig α) (info : GlobalBatchInfo) (tokens : Tensor (PolicyToken α))
    (advantages : Tensor α) : Except (LossError α) α :=
  if config.useKlLoss then
    match klPenalty? config.klLossType with
    | none => .error .klPenalty
    | some kld =>
        aggLoss (lossMatrix (fun tok _ => kld tok.logProb tok.refLogProb) tokens advantages)
          config.lossAggMode info
  else .ok 0

/-- `ppo_loss` with the vanilla policy loss: the loss of a micro-batch. -/
def ppoLoss (config : ActorLossConfig α) (columns : PolicyColumns) (info : GlobalBatchInfo)
    (tokens : Tensor (PolicyToken α)) : Except (LossError α) α := do
  let advantages ← creditAdvantages config columns tokens
  if ¬ 1.0 < config.clipRatioC then throw (.clipRatioC config.clipRatioC)
  let pgLoss ← aggLoss (lossMatrix (vanillaTokenLoss config) tokens advantages)
    config.lossAggMode info
  let entropyLoss ← entropyLoss config columns info tokens advantages
  let klLoss ← klLoss config info tokens advantages
  return pgLoss - config.entropyCoeff * entropyLoss + klLoss * config.klLossCoef

end definitions

/-- The response positions of a row of an update batch. -/
structure UpdateRow (α : Type) (width : ℕ) where
  tokens : List (PolicyToken α)
  length_tokens : tokens.length = width

/-- The columns of a micro-batch. -/
def updateTensor {α : Type} {width : ℕ} (rows : List (UpdateRow α width)) :
    Tensor (PolicyToken α) where
  cols := width
  rows := rows.map UpdateRow.tokens
  rect := by
    intro r hr
    obtain ⟨row, -, rfl⟩ := List.mem_map.mp hr
    exact row.length_tokens

/-! ### Aggregation is a sum over rows -/

/-- The names `agg_loss` knows. -/
def aggModes : List String :=
  ["token-mean", "seq-mean-token-sum", "seq-mean-token-sum-norm", "seq-mean-token-mean"]

/-- What a row contributes to the aggregated loss of a global batch. -/
noncomputable def rowLoss (mode : String) (N G scale : ℕ) (r : List (ℝ × Bool)) : ℝ :=
  if mode = "token-mean" then tokenSum r / N
  else if 0 < tokenCount r then
    seqLoss mode r / G / (if mode = "seq-mean-token-sum-norm" then scale else 1)
  else 0

theorem sum_map_div {β : Type*} (xs : List β) (f : β → ℝ) (c : ℝ) :
    (xs.map fun x => f x / c).sum = (xs.map f).sum / c := by
  simp only [div_eq_mul_inv, List.sum_map_mul_right]

theorem aggLoss_eq_ok {mode : String} (hmode : mode ∈ aggModes) (loss : Tensor (ℝ × Bool))
    (d N G : ℕ) (s : Option ℕ) :
    aggLoss loss mode ⟨d, some N, some G, s⟩ =
      .ok ((loss.rows.map (rowLoss mode N G (s.getD loss.cols))).sum * d) := by
  by_cases htoken : mode = "token-mean"
  · have hrow : rowLoss mode N G (s.getD loss.cols) =
        fun r : List (ℝ × Bool) => tokenSum r / (N : ℝ) := by
      funext r
      rw [rowLoss, if_pos htoken]
    rw [hrow, sum_map_div, aggLoss, if_pos htoken]
    rfl
  · have hseq : ¬ (mode ≠ "seq-mean-token-sum" ∧ mode ≠ "seq-mean-token-sum-norm" ∧
        mode ≠ "seq-mean-token-mean") := by
      simp only [aggModes, List.mem_cons, List.not_mem_nil, or_false] at hmode
      tauto
    have hrow : rowLoss mode N G (s.getD loss.cols) = fun r =>
        (if 0 < tokenCount r then seqLoss mode r else 0) / (G : ℝ) /
          (if mode = "seq-mean-token-sum-norm" then ((s.getD loss.cols : ℕ) : ℝ) else 1) := by
      funext r
      rw [rowLoss, if_neg htoken]
      split_ifs <;> simp
    rw [hrow, sum_map_div, sum_map_div, aggLoss, if_neg htoken, if_neg hseq]
    simp only [globalNumber, pure, Except.pure, bind, Except.bind]
    split_ifs with hnorm
    · congr 1
      ring
    · rw [div_one]

theorem aggLoss_eq_error {α : Type} [Zero α] [One α] [Neg α] [Add α] [Sub α] [Mul α] [Div α]
    [NatCast α] [LT α] [LE α] [DecidableLT α] [DecidableLE α] [DecidableEq α] [OfScientific α]
    [Scalar α] {mode : String} (hmode : mode ∉ aggModes) (loss : Tensor (α × Bool))
    (info : GlobalBatchInfo) : aggLoss loss mode info = .error (.aggMode mode) := by
  simp only [aggModes, List.mem_cons, List.not_mem_nil, or_false, not_or] at hmode
  rw [aggLoss, if_neg hmode.1, if_pos ⟨hmode.2.1, hmode.2.2.1, hmode.2.2.2⟩]
  rfl

/-! ### The credit of a row -/

section credit
variable {config : ActorLossConfig ℝ}

/-- The inputs of the credit of the privileged teacher. -/
noncomputable def rlsdInputs (student : PolicyToken ℝ → ℝ) (columns : PolicyColumns)
    (tokens : Tensor (PolicyToken ℝ)) : RlsdBatch where
  teacher := tokens.map PolicyToken.teacherPiLogProb
  student := tokens.map student
  advantages := tokens.map PolicyToken.advantage
  responseMask := tokens.map PolicyToken.responseMask
  tokenMask := if columns.rlsdTokenMask then some (tokens.map PolicyToken.rlsdTokenMask) else none
  shapes :=
    { teacher := by simp
      student := by simp
      advantages := by simp
      tokenMask := by
        intro m hm
        split_ifs at hm
        rw [← Option.some.inj hm]
        simp }

/-- The inputs of the on-policy distillation advantages. -/
noncomputable def opdInputs (tokens : Tensor (PolicyToken ℝ)) : OpdBatch where
  teacher := tokens.map PolicyToken.teacherOpdLogProb
  studentOld := tokens.map PolicyToken.oldLogProb
  responseMask := tokens.map PolicyToken.responseMask
  teacher_shape := by simp
  studentOld_shape := by simp

/-- A row of mapped tokens has the entries of the row by itself. -/
theorem get?_map_row {β : Type*} (g : PolicyToken ℝ → β) {tokens : Tensor (PolicyToken ℝ)} {i : ℕ}
    {r : List (PolicyToken ℝ)} (hr : tokens.rows[i]? = some r) (t : ℕ) :
    (tokens.map g).get? i t = ((Tensor.expand 1 r).map g).get? 0 t := by
  rw [Tensor.get?_map, Tensor.get?_map, Tensor.get?_of_row hr, Tensor.get?_of_row (r := r) rfl]

theorem maskedRowSum_row {tokens : Tensor (PolicyToken ℝ)} {i : ℕ} {r : List (PolicyToken ℝ)}
    (hr : tokens.rows[i]? = some r) :
    maskedRowSum (tokens.map PolicyToken.advantage) (tokens.map PolicyToken.responseMask) i =
      maskedRowSum ((Tensor.expand 1 r).map PolicyToken.advantage)
        ((Tensor.expand 1 r).map PolicyToken.responseMask) 0 := by
  simp [maskedRowSum, Tensor.map, hr, Tensor.expand]

/-- The entries of a tensor of one row. -/
theorem get?_single {β : Type*} {x : Tensor β} (h : x.rows.length = 1) (t : ℕ) :
    x.get? 0 t = x.rows.flatten[t]? := by
  obtain ⟨r, hr⟩ := List.length_eq_one_iff.mp h
  rw [hr, Tensor.get?_of_row (r := r) (by rw [hr]; rfl), List.flatten_singleton]

theorem shape_rlsdCredit (config : RLSDConfig ℝ) (student : PolicyToken ℝ → ℝ)
    (columns : PolicyColumns) (tokens : Tensor (PolicyToken ℝ)) :
    ((rlsdInputs student columns tokens).terms config).reweightedAdvantages.shape = tokens.shape := by
  rw [RlsdBatch.terms, shape_reweightedAdvantages (rlsdInputs student columns tokens).shapes]
  exact Tensor.shape_map _ _

theorem shape_opdCredit (clip : ℝ) (tokens : Tensor (PolicyToken ℝ)) :
    ((opdInputs tokens).tokenAdvantages clip).shape = tokens.shape := by
  rw [OpdBatch.shape_tokenAdvantages]
  exact Tensor.shape_map _ _

theorem rlsdTerms_rows (hv : config.rlsdConfig.validate = .ok ()) (student : PolicyToken ℝ → ℝ)
    (columns : PolicyColumns) (tokens : Tensor (PolicyToken ℝ)) :
    ((rlsdInputs student columns tokens).terms config.rlsdConfig).reweightedAdvantages.rows =
      tokens.rows.map fun r => ((rlsdInputs student columns
        (Tensor.expand 1 r)).terms config.rlsdConfig).reweightedAdvantages.rows.flatten := by
  have hshape := shape_rlsdCredit config.rlsdConfig student columns
  refine Tensor.rows_eq_map (congrArg Prod.fst (hshape tokens)) fun i r hr t => ?_
  have hentry : ((rlsdInputs student columns tokens).terms
      config.rlsdConfig).reweightedAdvantages.get? i t =
      ((rlsdInputs student columns (Tensor.expand 1 r)).terms
        config.rlsdConfig).reweightedAdvantages.get? 0 t := by
    refine RlsdBatch.entry_congr hv ⟨get?_map_row _ hr t, get?_map_row _ hr t, get?_map_row _ hr t,
      get?_map_row _ hr t, ?_⟩ fun _ => ?_
    · simp only [rlsdInputs]
      split_ifs
      · exact congrArg some (get?_map_row _ hr t)
      · rfl
    · exact (congrArg (· < 0) (maskedRowSum_row hr)).to_iff
  rw [hentry]
  exact get?_single (congrArg Prod.fst (hshape (Tensor.expand 1 r))) t

theorem opdAdvantages_rows (clip : ℝ) (tokens : Tensor (PolicyToken ℝ)) :
    ((opdInputs tokens).tokenAdvantages clip).rows =
      tokens.rows.map fun r => ((opdInputs (Tensor.expand 1 r)).tokenAdvantages clip).rows.flatten := by
  have hshape := shape_opdCredit clip
  refine Tensor.rows_eq_map (congrArg Prod.fst (hshape tokens)) fun i r hr t => ?_
  have hentry : ((opdInputs tokens).tokenAdvantages clip).get? i t =
      ((opdInputs (Tensor.expand 1 r)).tokenAdvantages clip).get? 0 t :=
    OpdBatch.entry_congr ⟨get?_map_row _ hr t, get?_map_row _ hr t, get?_map_row _ hr t⟩
  rw [hentry]
  exact get?_single (congrArg Prod.fst (hshape (Tensor.expand 1 r))) t

/-- A function of tokens that works row by row, and fails for all tokens or for none. -/
def ByRows (credit : Tensor (PolicyToken ℝ) → Except (LossError ℝ) (Tensor ℝ)) : Prop :=
  (∃ e, ∀ tokens, credit tokens = .error e) ∨
    ∃ creditRow : List (PolicyToken ℝ) → List ℝ, ∀ tokens, ∃ advantages,
      credit tokens = .ok advantages ∧ advantages.cols = tokens.cols ∧
        advantages.rows = tokens.rows.map creditRow

/-- The credit of the privileged teacher fails on a column or on the name of the student, or is a
run on the inputs. -/
theorem rlsdCredit_cases (config : ActorLossConfig ℝ) (columns : PolicyColumns) :
    (∃ e, ∀ tokens, rlsdCredit config columns tokens = .error e) ∨
      ∃ student, ∀ tokens, rlsdCredit config columns tokens =
        (((rlsdInputs student columns tokens).run config.rlsdConfig).mapError
          LossError.credit).map Prod.fst := by
  cases hpi : columns.teacherPiLogProbs with
  | false =>
      refine .inl ⟨.missing "rlsd_enabled" "teacher_pi_log_probs", fun tokens => ?_⟩
      simp only [rlsdCredit, hpi]
      rfl
  | true => cases hs : studentLogProb (α := ℝ) config.rlsdDeltaSource with
    | none =>
        refine .inl ⟨.deltaSource config.rlsdDeltaSource.toLower, fun tokens => ?_⟩
        simp only [rlsdCredit, hpi, hs]
        rfl
    | some student =>
        refine .inr ⟨student, fun tokens => ?_⟩
        simp only [rlsdCredit, hpi, hs]
        rfl

theorem rlsdCredit_byRows (config : ActorLossConfig ℝ) (columns : PolicyColumns) :
    ByRows (rlsdCredit config columns) := by
  rcases rlsdCredit_cases config columns with hfails | ⟨student, hrun⟩
  · exact .inl hfails
  · cases hv : config.rlsdConfig.validate with
    | error e =>
        refine .inl ⟨.credit e, fun tokens => ?_⟩
        rw [hrun, RlsdBatch.run, computeRlsdAdvantages, hv]
        rfl
    | ok _ =>
        refine .inr ⟨_, fun tokens => ⟨_, ?_, ?_, rlsdTerms_rows hv student columns tokens⟩⟩
        · rw [hrun, RlsdBatch.run_eq_ok hv]
          rfl
        · exact congrArg Prod.snd (shape_rlsdCredit config.rlsdConfig student columns tokens)

theorem opdCredit_byRows (config : ActorLossConfig ℝ) (columns : PolicyColumns) :
    ByRows (opdCredit config columns) := by
  cases hopd : columns.teacherOpdLogProbs with
  | false =>
      refine .inl ⟨.missing "opd_pg_enabled" "teacher_opd_log_probs", fun tokens => ?_⟩
      simp only [opdCredit, hopd]
      rfl
  | true =>
      have hrun : ∀ tokens, opdCredit config columns tokens =
          (((opdInputs tokens).run config.opdLogratioClipAbs).mapError
            LossError.credit).map Prod.fst := by
        intro tokens
        simp only [opdCredit, hopd]
        rfl
      by_cases hclip : 0 < config.opdLogratioClipAbs
      · refine .inr ⟨_, fun tokens => ⟨_, ?_, ?_,
          opdAdvantages_rows config.opdLogratioClipAbs tokens⟩⟩
        · obtain ⟨metrics, hmetrics⟩ := OpdBatch.run_fst hclip (opdInputs tokens)
          rw [hrun, hmetrics]
          rfl
        · exact congrArg Prod.snd (shape_opdCredit config.opdLogratioClipAbs tokens)
      · refine .inl ⟨.credit .logratioClip, fun tokens => ?_⟩
        rw [hrun, OpdBatch.run, computeOpdPgAdvantages, if_neg (by simp [opdInputs]),
          if_pos (not_lt.mp hclip)]
        rfl

/-- The advantages of the loss are computed row by row. -/
theorem creditAdvantages_byRows (config : ActorLossConfig ℝ) (columns : PolicyColumns) :
    ByRows (creditAdvantages config columns) := by
  unfold creditAdvantages
  split_ifs
  · exact .inl ⟨.exclusive, fun _ => rfl⟩
  · exact rlsdCredit_byRows config columns
  · exact opdCredit_byRows config columns
  · exact .inr ⟨List.map PolicyToken.advantage, fun tokens => ⟨_, rfl, rfl, rfl⟩⟩

end credit

/-! ### The loss is a sum over rows -/

section additive
variable {width : ℕ}

theorem aggLoss_lossMatrix {mode : String} (hmode : mode ∈ aggModes) (N G : ℕ) (s : Option ℕ)
    {creditRow : List (PolicyToken ℝ) → List ℝ} (f : PolicyToken ℝ → ℝ → ℝ)
    (rows : List (UpdateRow ℝ width)) {advantages : Tensor ℝ} (hcols : advantages.cols = width)
    (hrows : advantages.rows = (rows.map UpdateRow.tokens).map creditRow) (d : ℕ) :
    aggLoss (lossMatrix f (updateTensor rows) advantages) mode ⟨d, some N, some G, s⟩ =
      .ok ((rows.map fun row => rowLoss mode N G (s.getD width) (List.zipWith
        (fun tok a => (f tok a, tok.responseMask)) row.tokens (creditRow row.tokens))).sum * d) := by
  have hmatrix : (lossMatrix f (updateTensor rows) advantages).rows = rows.map fun row =>
      List.zipWith (fun tok a => (f tok a, tok.responseMask)) row.tokens
        (creditRow row.tokens) := by
    show List.zipWith (List.zipWith fun tok a => (f tok a, tok.responseMask))
      (rows.map UpdateRow.tokens) advantages.rows = _
    rw [hrows, List.map_map, List.zipWith_map, List.zipWith_self]
    rfl
  have hwidth : (lossMatrix f (updateTensor rows) advantages).cols = width := by
    show min width advantages.cols = width
    rw [hcols, min_self]
  rw [aggLoss_eq_ok hmode, hwidth, hmatrix, List.map_map]
  rfl

/-- **The loss of a micro-batch is a sum over its rows**, for every number of tokens of the global
batch, or fails for every micro-batch. -/
theorem ppoLoss_additive (config : ActorLossConfig ℝ) (columns : PolicyColumns) (G : ℕ)
    (s : Option ℕ) :
    AdditiveOrFails fun N d (rows : List (UpdateRow ℝ width)) =>
      ppoLoss config columns ⟨d, some N, some G, s⟩ (updateTensor rows) := by
  rcases creditAdvantages_byRows config columns with ⟨e, he⟩ | ⟨creditRow, hcredit⟩
  · refine .inl ⟨e, fun N d rows => ?_⟩
    simp only [ppoLoss, he]
    rfl
  choose advantages hadv hcols hrows using hcredit
  by_cases hclip : 1.0 < config.clipRatioC
  swap
  · refine .inl ⟨.clipRatioC config.clipRatioC, fun N d rows => ?_⟩
    simp only [ppoLoss, hadv, hclip]
    rfl
  -- every part is an aggregated loss matrix
  have hagg : ∀ f : PolicyToken ℝ → ℝ → ℝ,
      AdditiveOrFails fun N d (rows : List (UpdateRow ℝ width)) =>
        aggLoss (lossMatrix f (updateTensor rows) (advantages (updateTensor rows)))
          config.lossAggMode ⟨d, some N, some G, s⟩ := by
    intro f
    by_cases hmode : config.lossAggMode ∈ aggModes
    · exact .inr fun N => ⟨_, fun d rows =>
        aggLoss_lossMatrix hmode N G s f rows (hcols _) (hrows _) d⟩
    · exact .inl ⟨.aggMode config.lossAggMode, fun N d rows => aggLoss_eq_error hmode _ _⟩
  have hentropy : AdditiveOrFails fun N d (rows : List (UpdateRow ℝ width)) =>
      entropyLoss config columns ⟨d, some N, some G, s⟩ (updateTensor rows)
        (advantages (updateTensor rows)) := by
    unfold entropyLoss
    split_ifs
    · exact hagg _
    · exact .zero
  have hkl : AdditiveOrFails fun N d (rows : List (UpdateRow ℝ width)) =>
      klLoss config ⟨d, some N, some G, s⟩ (updateTensor rows)
        (advantages (updateTensor rows)) := by
    unfold klLoss
    split_ifs
    · cases klPenalty? (α := ℝ) config.klLossType with
      | none => exact .inl ⟨.klPenalty, fun _ _ _ => rfl⟩
      | some kld => exact hagg _
    · exact .zero
  have hloss := (hagg (vanillaTokenLoss config)).linear hentropy hkl config.entropyCoeff
    config.klLossCoef
  refine (congrArg AdditiveOrFails (funext fun N => funext fun d => funext fun rows => ?_)).mpr hloss
  simp only [ppoLoss, hadv, hclip]
  rfl

end additive

end ExtpiRlsd
