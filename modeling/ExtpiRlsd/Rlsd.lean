import ExtpiRlsd.Lib.MaskedRow
import ExtpiRlsd.Lib.Scalar
import ExtpiRlsd.Lib.Tensor

/-! # Token-level credit

The two advantage functions of `rlsd.py`: `computeRlsdAdvantages` reweights advantages by the
evidence of a privileged teacher, `computeOpdPgAdvantages` turns the log ratio of teacher and
old policy into advantages.  Both are written over an arbitrary scalar type, tensor expression
by tensor expression, so that they can be read beside the source and instantiated at the reals
or at any other scalar with comparisons.

The intermediate tensors of `computeRlsdAdvantages` are the fields of `RlsdTerms`; the function
itself is the checks, then the terms, then the metrics computed from them.  A 0/1 response mask
is a tensor of booleans; the token mask may hold any numbers, of which only zero deselects. -/

namespace ExtpiRlsd

open Tensors Masks

/-- Configuration for RLSD advantage reweighting. -/
structure RLSDConfig (α : Type) where
  lam : α
  clipRange : α
  negativeOnly : Bool

/-- The errors of the two functions, with the values their texts quote. -/
inductive RlsdError (α : Type) where
  | lam (got : α)
  | clipRange (got : α)
  | shapes
  | tokenMaskShape
  | nonFinite (name : String) (bad : ℕ)
  | opdShapes
  | logratioClip
deriving DecidableEq

/-- The text of an error; `fmt` prints a number. -/
def RlsdError.message {α : Type} (fmt : α → String) : RlsdError α → String
  | lam got => "lam must be in [0, 1], got " ++ fmt got
  | clipRange got => "clip_range must be in [0, 1), got " ++ fmt got
  | shapes =>
      "teacher_log_probs, student_log_probs, advantages, and response_mask must share the same shape"
  | tokenMaskShape => "rlsd_token_mask must share the same shape as response_mask"
  | nonFinite name bad => "RLSD found non-finite " ++ name ++ " on " ++ toString bad ++ " valid tokens"
  | opdShapes =>
      "teacher_log_probs, student_log_probs, and response_mask must share the same shape"
  | logratioClip => "logratio_clip_abs must be positive"

section definitions
variable {α : Type} [Zero α] [One α] [Neg α] [Add α] [Sub α] [Mul α] [Div α] [NatCast α]
  [LT α] [LE α] [DecidableLT α] [DecidableLE α] [DecidableEq α] [Scalar α]

/-- The defaults of the dataclass. -/
def RLSDConfig.default [OfScientific α] : RLSDConfig α where
  lam := 0.5
  clipRange := 0.2
  negativeOnly := false

def RLSDConfig.validate (config : RLSDConfig α) : Except (RlsdError α) Unit := do
  if ¬ (0 ≤ config.lam ∧ config.lam ≤ 1) then throw (.lam config.lam)
  if ¬ (0 ≤ config.clipRange ∧ config.clipRange < 1) then throw (.clipRange config.clipRange)

/-- `_as_mask`: a 0/1 mask in the dtype of the values. -/
def asMask (m : Tensor Bool) : Tensor α := m.map fun b => if b then 1 else 0

/-- `mask.bool()` of a mask in the dtype of the values. -/
def asBool (m : Tensor α) : Tensor Bool := m.map fun v => decide (v ≠ 0)

/-- `torch.where(mask, value, other)` for a scalar `other`. -/
def whereElse (other : α) (m : Tensor Bool) (value : Tensor α) : Tensor α :=
  Tensor.map₂ (fun b v => if b then v else other) m value

/-- `_masked_mean`. -/
def maskedMean (value mask : Tensor α) : α :=
  let denom := clampMin 1 mask.total
  (whereElse 0 (asBool mask) value).total / denom

/-- `_masked_std`. -/
def maskedStd (value mask : Tensor α) : α :=
  let mean := maskedMean value mask
  Scalar.sqrt (clampMin 0 (maskedMean (value.map fun v => (v - mean) * (v - mean)) mask))

/-- The finiteness loop: the first named tensor with a non-finite valid entry is reported with
the number of such entries. -/
def checkFinite (valid : Tensor Bool) : List (String × Tensor α) → Except (RlsdError α) Unit
  | [] => pure ()
  | (name, x) :: rest =>
      let bad := (Tensor.map₂ (fun b v => b && !Scalar.isFinite v) valid x).count
      if bad ≠ 0 then throw (.nonFinite name bad) else checkFinite valid rest

/-- The intermediate tensors of `compute_rlsd_advantages`. -/
structure RlsdTerms (α : Type) where
  mask : Tensor α
  creditMask : Tensor α
  delta : Tensor α
  signedDelta : Tensor α
  logLow : α
  logHigh : α
  clippedWeights : Tensor α
  reweight : Tensor α
  reweightedAdvantages : Tensor α

/-- `mask` without a token mask, else `_as_mask(rlsd_token_mask, advantages) * mask`. -/
def creditMask (mask : Tensor α) (rlsdTokenMask : Option (Tensor α)) : Tensor α :=
  match rlsdTokenMask with
  | none => mask
  | some tokenMask => Tensor.map₂ (· * ·) tokenMask mask

/-- Rows whose masked advantage sum is negative, as a 0/1 column. -/
def negativeSeq (advantages mask : Tensor α) : List α :=
  (Tensor.map₂ (· * ·) advantages mask).rowSums.map fun s => if s < 0 then 1 else 0

/-- `negative_seq * reweight + (1 - negative_seq) * mask`. -/
def negativeOnlyReweight (negSeq : List α) (reweight mask : Tensor α) : Tensor α :=
  Tensor.map₂ (· + ·) (Tensor.mapCol (fun n r => n * r) negSeq reweight)
    (Tensor.mapCol (fun n m => (1 - n) * m) negSeq mask)

def rlsdTerms (teacherLogProbs studentLogProbs advantages : Tensor α) (responseMask : Tensor Bool)
    (rlsdTokenMask : Option (Tensor α)) (config : RLSDConfig α) : RlsdTerms α :=
  let mask := asMask responseMask
  let creditMask := creditMask mask rlsdTokenMask
  let delta := Tensor.map₂ (· - ·) teacherLogProbs studentLogProbs
  let signAdv := advantages.map sign
  let signedDelta := Tensor.map₂ (· * ·) signAdv delta
  let logLow := Scalar.log (1 - config.clipRange)
  let logHigh := Scalar.log (1 + config.clipRange)
  let clippedLogWeight := signedDelta.map (clamp logLow logHigh)
  let clippedWeights := clippedLogWeight.map Scalar.exp
  let rlsdReweight := clippedWeights.map fun w => (1 - config.lam) + config.lam * w
  let reweight := Tensor.map₂ (· * ·) (whereElse 1 (asBool creditMask) rlsdReweight) mask
  let reweight := if config.negativeOnly then
      negativeOnlyReweight (negativeSeq advantages mask) reweight mask
    else reweight
  let reweightedAdvantages :=
    Tensor.map₂ (· * ·) (Tensor.map₂ (· * ·) advantages reweight) mask
  { mask, creditMask, delta, signedDelta, logLow, logHigh, clippedWeights, reweight,
    reweightedAdvantages }

/-- The metrics of `compute_rlsd_advantages`, under `rlsd/`, in the order of the source. -/
@[ext] structure RlsdMetrics (α : Type) where
  deltaMean : α
  deltaStd : α
  logWeightMean : α
  logWeightStd : α
  weightMean : α
  weightStd : α
  clipLowRatio : α
  clipHighRatio : α
  tokenMaskRatio : α
  effectiveLambda : α
  advAbsMeanBefore : α
  advAbsMeanAfter : α
  signFlipCount : ℕ
  deltaPosAdvMean : α
  deltaNegAdvMean : α

/-- Valid tokens with a non-zero advantage whose sign the reweighting changed. -/
def signFlips (reweighted advantages mask : Tensor α) : Tensor Bool :=
  let validNonzero := Tensor.map₂ (fun m a => decide (0 < m) && decide (a ≠ 0)) mask advantages
  let flipped := Tensor.map₂ (fun r a => decide (sign r ≠ sign a)) reweighted advantages
  Tensor.map₂ (fun f v => f && v) flipped validNonzero

/-- A comparison with a scalar as a 0/1 tensor. -/
def indicator (p : α → Bool) (x : Tensor α) : Tensor α := x.map fun v => if p v then 1 else 0

def rlsdMetrics (advantages : Tensor α) (config : RLSDConfig α) (t : RlsdTerms α) :
    RlsdMetrics α where
  deltaMean := maskedMean t.delta t.mask
  deltaStd := maskedStd t.delta t.mask
  logWeightMean := maskedMean t.signedDelta t.creditMask
  logWeightStd := maskedStd t.signedDelta t.creditMask
  weightMean := maskedMean t.clippedWeights t.creditMask
  weightStd := maskedStd t.clippedWeights t.creditMask
  clipLowRatio := maskedMean (indicator (fun s => decide (s < t.logLow)) t.signedDelta) t.creditMask
  clipHighRatio :=
    maskedMean (indicator (fun s => decide (t.logHigh < s)) t.signedDelta) t.creditMask
  tokenMaskRatio := t.creditMask.total / clampMin 1 t.mask.total
  effectiveLambda := config.lam
  advAbsMeanBefore := maskedMean (advantages.map Tensors.abs) t.mask
  advAbsMeanAfter := maskedMean (t.reweightedAdvantages.map Tensors.abs) t.mask
  signFlipCount := (signFlips t.reweightedAdvantages advantages t.mask).count
  deltaPosAdvMean := maskedMean t.delta
    (Tensor.map₂ (· * ·) t.mask (indicator (fun a => decide (0 < a)) advantages))
  deltaNegAdvMean := maskedMean t.delta
    (Tensor.map₂ (· * ·) t.mask (indicator (fun a => decide (a < 0)) advantages))

def computeRlsdAdvantages (teacherLogProbs studentLogProbs advantages : Tensor α)
    (responseMask : Tensor Bool) (rlsdTokenMask : Option (Tensor α)) (config : RLSDConfig α) :
    Except (RlsdError α) (Tensor α × RlsdMetrics α) := do
  config.validate
  if ¬ (teacherLogProbs.shape = studentLogProbs.shape ∧ studentLogProbs.shape = advantages.shape ∧
      advantages.shape = responseMask.shape) then throw .shapes
  if rlsdTokenMask.any fun m => decide (m.shape ≠ responseMask.shape) then throw .tokenMaskShape
  let t := rlsdTerms teacherLogProbs studentLogProbs advantages responseMask rlsdTokenMask config
  if responseMask.any then
    checkFinite responseMask [("teacher_log_probs", teacherLogProbs),
      ("student_log_probs", studentLogProbs), ("advantages", advantages),
      ("signed_delta", t.signedDelta)]
  return (t.reweightedAdvantages, rlsdMetrics advantages config t)

/-- The metrics of `compute_opd_pg_advantages`, under `opd/`, in the order of the source. -/
structure OpdMetrics (α : Type) where
  logratioMean : α
  logratioAbsMean : α
  logratioP99 : α
  logratioClampRatio : α
  teacherLogpMean : α
  studentOldLogpMean : α

/-- The entries at the true positions of a mask, in row-major order, as in `x[mask]`. -/
def maskedEntries (m : Tensor Bool) (x : Tensor α) : List α :=
  (List.zipWith select m.rows x.rows).flatten

def rawLogratio (teacherLogProbs studentOldLogProbs : Tensor α) (responseMask : Tensor Bool) :
    Tensor α :=
  Tensor.map₂ (· * ·) (Tensor.map₂ (· - ·) teacherLogProbs studentOldLogProbs) (asMask responseMask)

def computeOpdPgAdvantages (teacherLogProbs studentOldLogProbs : Tensor α)
    (responseMask : Tensor Bool) (logratioClipAbs : α) :
    Except (RlsdError α) (Tensor α × OpdMetrics α) := do
  if teacherLogProbs.shape ≠ studentOldLogProbs.shape ∨
      teacherLogProbs.shape ≠ responseMask.shape then throw .opdShapes
  if logratioClipAbs ≤ 0 then throw .logratioClip
  let mask := asMask responseMask
  let raw := rawLogratio teacherLogProbs studentOldLogProbs responseMask
  let tokenAdvantages := Tensor.map₂ (· * ·)
    (raw.map (clamp (-logratioClipAbs) logratioClipAbs)) mask
  return (tokenAdvantages, {
    logratioMean := maskedMean raw mask
    logratioAbsMean := maskedMean (raw.map Tensors.abs) mask
    logratioP99 := if responseMask.any then
        percentile 99 (maskedEntries responseMask (raw.map Tensors.abs)) else 0
    logratioClampRatio :=
      maskedMean (indicator (fun v => decide (logratioClipAbs < v)) (raw.map Tensors.abs)) mask
    teacherLogpMean := maskedMean teacherLogProbs mask
    studentOldLogpMean := maskedMean studentOldLogProbs mask })

end definitions

end ExtpiRlsd
