import ExtpiRlsd.Lib.Effect
import ExtpiRlsd.Lib.Tensor

/-! # LoRA adapters of the engine

The adapter operations of the FSDP engine and of the worker above it: the adapter contexts, the
copy of one adapter's weights over another's, `infer_batch` with its adapter options and a
training step.  Python's `finally` runs after a raise too, and what was changed before a raise
stays changed, so every operation is a computation that keeps its effects.

PEFT itself is a parameter (`Peft`): which adapter is active and which adapters can be trained
is its state, and `Peft.Documented` says what its operations do to it. -/

namespace ExtpiRlsd

open Effects Tensors

variable {σ α : Type}

/-! ### PEFT -/

/-- The part of PEFT that the engine calls. -/
structure Peft (σ : Type) where
  /-- the keys of `peft_config` -/
  adapters : σ → List String
  activeAdapter : σ → String
  /-- whether the parameters of an adapter require gradients -/
  trainable : σ → String → Bool
  setAdapter : String → σ → σ
  addAdapter : String → σ → σ
  freeze : String → σ → σ
  enterDisabled : σ → σ
  exitDisabled : σ → σ

/-- `set_adapter` makes an adapter the active one and the only one that can be trained; leaving
`disable_adapter` does so with the adapter that is active. -/
structure Peft.Documented (peft : Peft σ) : Prop where
  adapters_setAdapter : ∀ a s, peft.adapters (peft.setAdapter a s) = peft.adapters s
  activeAdapter_setAdapter : ∀ a s, a ∈ peft.adapters s →
    peft.activeAdapter (peft.setAdapter a s) = a
  trainable_setAdapter : ∀ a s b, a ∈ peft.adapters s →
    (peft.trainable (peft.setAdapter a s) b = true ↔ b = a)
  adapters_addAdapter : ∀ a s, peft.adapters s ⊆ peft.adapters (peft.addAdapter a s)
  adapters_freeze : ∀ a s, peft.adapters (peft.freeze a s) = peft.adapters s
  adapters_enterDisabled : ∀ s, peft.adapters (peft.enterDisabled s) = peft.adapters s
  activeAdapter_enterDisabled : ∀ s,
    peft.activeAdapter (peft.enterDisabled s) = peft.activeAdapter s
  adapters_exitDisabled : ∀ s, peft.adapters (peft.exitDisabled s) = peft.adapters s
  activeAdapter_exitDisabled : ∀ s,
    peft.activeAdapter (peft.exitDisabled s) = peft.activeAdapter s
  trainable_exitDisabled : ∀ s b,
    peft.trainable (peft.exitDisabled s) b = true ↔ b = peft.activeAdapter s

/-! ### The engine's state -/

inductive LoraAttr where
  | loraA
  | loraB
  | loraEmbeddingA
  | loraEmbeddingB
deriving DecidableEq

/-- The attributes in the order of the copy. -/
def loraAttrs : List LoraAttr := [.loraA, .loraB, .loraEmbeddingA, .loraEmbeddingB]

/-- What an attribute holds for one adapter: a parameter, or a module with named parameters and
buffers. -/
inductive LoraEntry (α : Type) where
  | tensor (value : Tensor α)
  | module (params buffers : List (String × Tensor α))

structure LoraLayer (α : Type) where
  entry : LoraAttr → String → Option (LoraEntry α)
  scaling : String → Option α

structure EngineState (σ α : Type) where
  peft : σ
  layers : List (LoraLayer α)

inductive EngineError where
  | adapterUnavailable (name : String)
  | missingSourceParameter (name : String)
  | missingSourceBuffer (name : String)
  | copySize
  | notATensor
  | fsdpVersion (version : ℕ)
  | nothingCopied (source target : String)
  | exclusiveAdapterOptions
  | forward
  | training
deriving DecidableEq

def EngineError.message : EngineError → String
  | adapterUnavailable name => "LoRA adapter '" ++ name ++ "' is not available"
  | missingSourceParameter name => "Missing LoRA source parameter '" ++ name ++ "'"
  | missingSourceBuffer name => "Missing LoRA source buffer '" ++ name ++ "'"
  | copySize => "The size of the target must match the size of the source"
  | notATensor => "the target is not a tensor"
  | fsdpVersion version =>
      "ExtPI teacher snapshot sync does not support FSDP version " ++ toString version
  | nothingCopied source target =>
      "No LoRA weights copied from '" ++ source ++ "' to '" ++ target ++ "'"
  | exclusiveAdapterOptions => "no_lora_adapter and lora_adapter_name are mutually exclusive"
  | forward => "the forward pass failed"
  | training => "the training step failed"

abbrev EngineM (σ α β : Type) := EStateM EngineError (EngineState σ α) β

/-! ### Copying one adapter over another -/

/-- `_copy_lora_tensor`; sizes that would be broadcast do not occur between adapters of one
configuration and are refused like all others that differ. -/
def copyLoraTensor (source : Tensor α) : EStateM EngineError (Tensor α) Unit := fun target =>
  if source.shape = target.shape then .ok () source else .error .copySize target

/-- The loop over the named tensors of the target. -/
def copyNamed (missing : String → EngineError) (source : List (String × Tensor α)) :
    EStateM EngineError (List (String × Tensor α)) ℕ :=
  forEach fun target => match source.lookup target.1 with
    | none => .error (missing target.1) target
    | some value => match (copyLoraTensor value).run target.2 with
      | .ok _ copied => .ok copied.numel (target.1, copied)
      | .error e kept => .error e (target.1, kept)

/-- `_copy_lora_module_weights`: the parameters of a module, then its buffers. -/
def copyLoraModuleWeights (params buffers : List (String × Tensor α)) :
    EStateM EngineError (List (String × Tensor α) × List (String × Tensor α)) ℕ := do
  let copied ← onPart Prod.fst (fun x s => (x, s.2)) (copyNamed .missingSourceParameter params)
  let rest ← onPart Prod.snd (fun x s => (s.1, x)) (copyNamed .missingSourceBuffer buffers)
  return copied + rest

/-- One attribute of one layer; a module is not copied onto a parameter. -/
def copyLoraEntry (source : LoraEntry α) : EStateM EngineError (LoraEntry α) ℕ := fun target =>
  match source, target with
  | .tensor value, .tensor kept => match (copyLoraTensor value).run kept with
    | .ok _ copied => .ok copied.numel (.tensor copied)
    | .error e kept => .error e (.tensor kept)
  | .tensor _, .module params buffers => .error .notATensor (.module params buffers)
  | .module params buffers, .module params' buffers' =>
      match (copyLoraModuleWeights params buffers).run (params', buffers') with
      | .ok copied kept => .ok copied (.module kept.1 kept.2)
      | .error e kept => .error e (.module kept.1 kept.2)
  | .module _ _, .tensor kept => .ok 0 (.tensor kept)

def LoraLayer.setEntry (l : LoraLayer α) (attr : LoraAttr) (adapter : String)
    (e : LoraEntry α) : LoraLayer α :=
  { l with entry := fun attr' adapter' =>
      if attr' = attr ∧ adapter' = adapter then some e else l.entry attr' adapter' }

/-- An attribute of a layer that holds both adapters is copied. -/
def copyLoraAttr (sourceAdapter targetAdapter : String) (attr : LoraAttr) :
    EStateM EngineError (LoraLayer α) ℕ := fun l =>
  match l.entry attr sourceAdapter, l.entry attr targetAdapter with
  | some source, some target => match (copyLoraEntry source).run target with
    | .ok copied e => .ok copied (l.setEntry attr targetAdapter e)
    | .error err e => .error err (l.setEntry attr targetAdapter e)
  | _, _ => .ok 0 l

/-- The scaling of a layer follows its weights. -/
def copyScaling (sourceAdapter targetAdapter : String) (l : LoraLayer α) : LoraLayer α :=
  match l.scaling sourceAdapter with
  | some v => { l with scaling := fun a => if a = targetAdapter then some v else l.scaling a }
  | none => l

def copyLoraLayer (sourceAdapter targetAdapter : String) :
    EStateM EngineError (LoraLayer α) ℕ := do
  let copied ← sumOver (copyLoraAttr sourceAdapter targetAdapter) loraAttrs
  modify (copyScaling sourceAdapter targetAdapter)
  return copied

/-- `_copy_lora_adapter_weights`. -/
def copyLoraAdapterWeights (sourceAdapter targetAdapter : String) :
    EStateM EngineError (List (LoraLayer α)) ℕ :=
  forEach (copyLoraLayer sourceAdapter targetAdapter)

/-! ### Contexts -/

section engine
variable (peft : Peft σ)

/-- `_active_adapter_name`; an empty name counts as none. -/
def activeAdapterName (s : σ) : Option String :=
  if peft.activeAdapter s = "" then none else some (peft.activeAdapter s)

/-- `set_adapter` of the module. -/
def setAdapter (name : String) : EngineM σ α Unit :=
  modify fun s => { s with peft := peft.setAdapter name s.peft }

/-- `module.set_adapter(previous)` where there is a previous adapter. -/
def restoreAdapter : Option String → EngineM σ α Unit
  | some previous => setAdapter peft previous
  | none => pure ()

/-- `adapter_context` around a body. -/
def adapterContext (adapterName : String) (body : EngineM σ α Unit) : EngineM σ α Unit := do
  let s ← get
  if adapterName ∉ peft.adapters s.peft then throw (.adapterUnavailable adapterName)
  let previous := activeAdapterName peft s.peft
  setAdapter peft adapterName
  tryFinally body (restoreAdapter peft previous)

/-- `disable_adapter` around a body. -/
def disableAdapter (body : EngineM σ α Unit) : EngineM σ α Unit := do
  modify fun s => { s with peft := peft.enterDisabled s.peft }
  tryFinally body
    (modify fun s => { s with peft := peft.exitDisabled s.peft } : EngineM σ α Unit)

/-- `sync_lora_adapter_snapshot`; summoning the full parameters changes none of them. -/
def syncLoraAdapterSnapshot (version : ℕ) (sourceAdapter targetAdapter : String) :
    EngineM σ α ℕ := do
  let s ← get
  if sourceAdapter ∉ peft.adapters s.peft then throw (.adapterUnavailable sourceAdapter)
  if targetAdapter ∉ peft.adapters s.peft then throw (.adapterUnavailable targetAdapter)
  if ¬ (version = 1 ∨ version = 0) then throw (.fsdpVersion version)
  let active := activeAdapterName peft s.peft
  let copied ← onPart EngineState.layers (fun layers s => { s with layers })
    (copyLoraAdapterWeights sourceAdapter targetAdapter)
  if copied = 0 then throw (.nothingCopied sourceAdapter targetAdapter)
  restoreAdapter peft active
  return copied

/-! ### Operations -/

/-- What runs inside `infer_batch`: forward passes without gradients, which return or raise, in
adapter contexts nested in any way. -/
inductive InferBody where
  | forward
  | raise
  | inAdapter (adapterName : String) (body : InferBody)
  | withoutAdapter (body : InferBody)
  | andThen (first second : InferBody)

def InferBody.run : InferBody → EngineM σ α Unit
  | forward => pure ()
  | raise => throw .forward
  | inAdapter adapterName body => adapterContext peft adapterName body.run
  | withoutAdapter body => disableAdapter peft body.run
  | andThen first second => do
      first.run
      second.run

/-- `infer_batch` with its two adapter options. -/
def inferBatch (noLoraAdapter : Bool) (loraAdapterName : Option String) (body : InferBody) :
    EngineM σ α Unit := do
  if noLoraAdapter ∧ loraAdapterName.isSome then throw .exclusiveAdapterOptions
  if noLoraAdapter then disableAdapter peft (body.run peft)
  else match loraAdapterName with
    | some name => adapterContext peft name (body.run peft)
    | none => body.run peft

/-- A change of parameters by layer, attribute, adapter and parameter name. -/
structure WeightUpdate (α : Type) where
  apply : ℕ → LoraAttr → String → String → Tensor α → Tensor α
  shape_apply : ∀ i attr a name x, (apply i attr a name x).shape = x.shape

/-- The parameters of an entry change, its buffers do not. -/
def LoraEntry.update (f : String → Tensor α → Tensor α) : LoraEntry α → LoraEntry α
  | .tensor value => .tensor (f "" value)
  | .module params buffers => .module (params.map fun p => (p.1, f p.1 p.2)) buffers

/-- The layers after a change of the adapters that require gradients. -/
def trainLayers (trainable : String → Bool) (update : WeightUpdate α)
    (layers : List (LoraLayer α)) : List (LoraLayer α) :=
  layers.mapIdx fun i l => { l with
    entry := fun attr a =>
      if trainable a then (l.entry attr a).map (LoraEntry.update (update.apply i attr a))
      else l.entry attr a }

/-- A training step changes the parameters that require gradients; it may raise after that. -/
def trainBatch (update : WeightUpdate α) (raises : Bool) : EngineM σ α Unit := do
  modify fun s => { s with layers := trainLayers (peft.trainable s.peft) update s.layers }
  if raises then throw .training

/-- An operation on the worker. -/
inductive AdapterOp (α : Type) where
  | infer (noLoraAdapter : Bool) (loraAdapterName : Option String) (body : InferBody)
  | sync
  | train (update : WeightUpdate α) (raises : Bool)

/-- An operation, with the adapters that `sync_extpi_teacher_snapshot` names. -/
def AdapterOp.exec (version : ℕ) : AdapterOp α → EngineM σ α ℕ
  | infer noLoraAdapter loraAdapterName body => do
      inferBatch peft noLoraAdapter loraAdapterName body
      return 0
  | sync => syncLoraAdapterSnapshot peft version "default" "extpi_teacher"
  | train update raises => do
      trainBatch peft update raises
      return 0

/-- The end of `_build_lora_module`: the teacher adapter is added, frozen, and the default one
made active again. -/
def buildLoraModule (extpiTeacherAdapter : Bool) (s : σ) : σ :=
  if extpiTeacherAdapter then
    let s := if "extpi_teacher" ∉ peft.adapters s then peft.addAdapter "extpi_teacher" s else s
    peft.setAdapter "default" (peft.freeze "extpi_teacher" s)
  else s

end engine

end ExtpiRlsd
