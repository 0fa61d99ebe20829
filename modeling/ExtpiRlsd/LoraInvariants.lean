import ExtpiRlsd.LoraCopy

/-! # The adapters over whole runs

The contexts put back the adapter that was active, whatever their bodies do
(`InferBody.restored`); a sync copies one adapter over the other or changes no weights
(`syncLoraAdapterSnapshot_spec`); a training step reaches only what requires gradients
(`trainBatch_spec`).  Together they give the state machine of `adapterOps_guarantee`. -/

namespace ExtpiRlsd

open Effects Tensors

variable {σ α : Type}

/-! ### Contexts -/

section engine
variable {peft : Peft σ}

/-- The active adapter exists and has a name. -/
def Live (peft : Peft σ) (s : σ) : Prop :=
  peft.activeAdapter s ∈ peft.adapters s ∧ peft.activeAdapter s ≠ ""

/-- Only the active adapter can be trained. -/
def OnlyActive (peft : Peft σ) (s : σ) : Prop :=
  ∀ b, peft.trainable s b = true ↔ b = peft.activeAdapter s

/-- The weights and the adapters are as before, and a live adapter is active again. -/
structure Restored (peft : Peft σ) (s s' : EngineState σ α) : Prop where
  layers : s'.layers = s.layers
  adapters : peft.adapters s'.peft = peft.adapters s.peft
  active : Live peft s.peft → peft.activeAdapter s'.peft = peft.activeAdapter s.peft
  only : Live peft s.peft → OnlyActive peft s.peft → OnlyActive peft s'.peft

theorem Restored.refl (s : EngineState σ α) : Restored peft s s :=
  ⟨rfl, rfl, fun _ => rfl, fun _ h => h⟩

theorem Restored.trans {s s' s'' : EngineState σ α} (h : Restored peft s s')
    (h' : Restored peft s' s'') : Restored peft s s'' := by
  have hlive : Live peft s.peft → Live peft s'.peft := by
    rintro ⟨hin, hname⟩
    have hactive := h.active ⟨hin, hname⟩
    unfold Live
    rw [hactive, h.adapters]
    exact ⟨hin, hname⟩
  refine ⟨h'.layers.trans h.layers, h'.adapters.trans h.adapters, fun hl => ?_, fun hl ho => ?_⟩
  · exact (h'.active (hlive hl)).trans (h.active hl)
  · exact h'.only (hlive hl) (h.only hl ho)

/-- An adapter context puts back what was active before, whatever its body does. -/
theorem adapterContext_restored (hdoc : peft.Documented) (adapterName : String)
    {body : EngineM σ α Unit} (hbody : ∀ s, wp body (fun _ s' => Restored peft s s') s)
    (s : EngineState σ α) :
    wp (adapterContext peft adapterName body) (fun _ s' => Restored peft s s') s := by
  unfold adapterContext
  rw [wp_get_bind]
  by_cases havailable : adapterName ∈ peft.adapters s.peft
  · rw [if_neg (not_not_intro havailable)]
    unfold setAdapter
    rw [wp_bind, wp_modify, wp_finally]
    refine wp_mono (hbody _) ?_
    intro r s' h
    have hadapters : peft.adapters s'.peft = peft.adapters s.peft :=
      h.adapters.trans (hdoc.adapters_setAdapter adapterName s.peft)
    by_cases hname : peft.activeAdapter s.peft = ""
    · rw [activeAdapterName, if_pos hname]
      exact ⟨h.layers, hadapters, fun hl => absurd hname hl.2, fun hl => absurd hname hl.2⟩
    · rw [activeAdapterName, if_neg hname]
      refine ⟨h.layers, ?_, fun hl => ?_, fun hl _ b => ?_⟩
      · exact (hdoc.adapters_setAdapter _ _).trans hadapters
      · exact hdoc.activeAdapter_setAdapter _ _ (hadapters ▸ hl.1)
      · have hin : peft.activeAdapter s.peft ∈ peft.adapters s'.peft := hadapters ▸ hl.1
        show peft.trainable (peft.setAdapter (peft.activeAdapter s.peft) s'.peft) b = true ↔
          b = peft.activeAdapter (peft.setAdapter (peft.activeAdapter s.peft) s'.peft)
        rw [hdoc.activeAdapter_setAdapter _ _ hin]
        exact hdoc.trainable_setAdapter _ _ b hin
  · rw [if_pos havailable]
    exact Restored.refl s

/-- Leaving `disable_adapter` turns the active adapter on again. -/
theorem disableAdapter_restored (hdoc : peft.Documented) {body : EngineM σ α Unit}
    (hbody : ∀ s, wp body (fun _ s' => Restored peft s s') s) (s : EngineState σ α) :
    wp (disableAdapter peft body) (fun _ s' => Restored peft s s') s := by
  unfold disableAdapter
  rw [wp_bind, wp_modify, wp_finally]
  refine wp_mono (hbody _) ?_
  intro r s' h
  rw [wp_modify]
  have hactive : Live peft s.peft → peft.activeAdapter s'.peft = peft.activeAdapter s.peft := by
    rintro ⟨hin, hname⟩
    have hentered := hdoc.activeAdapter_enterDisabled s.peft
    refine (h.active ⟨?_, ?_⟩).trans hentered
    · show peft.activeAdapter (peft.enterDisabled s.peft) ∈ peft.adapters (peft.enterDisabled s.peft)
      rw [hentered, hdoc.adapters_enterDisabled]
      exact hin
    · show peft.activeAdapter (peft.enterDisabled s.peft) ≠ ""
      rw [hentered]
      exact hname
  refine ⟨h.layers, ?_, fun hl => ?_, fun hl _ b => ?_⟩
  · exact (hdoc.adapters_exitDisabled _).trans
      (h.adapters.trans (hdoc.adapters_enterDisabled s.peft))
  · exact (hdoc.activeAdapter_exitDisabled _).trans (hactive hl)
  · show peft.trainable (peft.exitDisabled s'.peft) b = true ↔
      b = peft.activeAdapter (peft.exitDisabled s'.peft)
    rw [hdoc.activeAdapter_exitDisabled]
    exact hdoc.trainable_exitDisabled s'.peft b

/-- The bodies of `infer_batch` change no weights and leave a live adapter active. -/
theorem InferBody.restored (hdoc : peft.Documented) (body : InferBody) (s : EngineState σ α) :
    wp (body.run peft) (fun _ s' => Restored peft s s') s := by
  induction body generalizing s with
  | forward => exact Restored.refl s
  | raise => exact Restored.refl s
  | inAdapter adapterName body ih => exact adapterContext_restored hdoc adapterName ih s
  | withoutAdapter body ih => exact disableAdapter_restored hdoc ih s
  | andThen first second ih₁ ih₂ =>
      unfold InferBody.run
      rw [wp_bind]
      refine wp_mono (ih₁ s) ?_
      intro r s' h
      cases r with
      | error e => exact h
      | ok _ => exact wp_mono (ih₂ s') fun _ _ h' => h.trans h'

theorem inferBatch_restored (hdoc : peft.Documented) (noLoraAdapter : Bool)
    (loraAdapterName : Option String) (body : InferBody) (s : EngineState σ α) :
    wp (inferBatch peft noLoraAdapter loraAdapterName body) (fun _ s' => Restored peft s s') s := by
  unfold inferBatch
  by_cases hboth : noLoraAdapter ∧ loraAdapterName.isSome
  · rw [if_pos hboth]
    exact Restored.refl s
  · rw [if_neg hboth]
    cases noLoraAdapter with
    | true => exact disableAdapter_restored hdoc (body.restored hdoc) s
    | false => cases loraAdapterName with
      | none => exact body.restored hdoc s
      | some name => exact adapterContext_restored hdoc name (body.restored hdoc) s

/-! ### One operation -/

/-- The default adapter is the active one and the only one that can be trained. -/
structure Serving (peft : Peft σ) (s : σ) : Prop where
  available : "default" ∈ peft.adapters s
  active : peft.activeAdapter s = "default"
  only : ∀ a, peft.trainable s a = true ↔ a = "default"

/-- So it is at the end of `_build_lora_module`. -/
theorem buildLoraModule_serving (hdoc : peft.Documented) {s : σ} (h : "default" ∈ peft.adapters s) :
    Serving peft (buildLoraModule peft true s) := by
  have hadded : ∀ s', "default" ∈ peft.adapters s' →
      Serving peft (peft.setAdapter "default" (peft.freeze "extpi_teacher" s')) := by
    intro s' hs'
    have hin : "default" ∈ peft.adapters (peft.freeze "extpi_teacher" s') := by
      rw [hdoc.adapters_freeze]
      exact hs'
    refine ⟨?_, hdoc.activeAdapter_setAdapter _ _ hin, fun a => hdoc.trainable_setAdapter _ _ a hin⟩
    rw [hdoc.adapters_setAdapter]
    exact hin
  unfold buildLoraModule
  rw [if_pos rfl]
  by_cases hteacher : "extpi_teacher" ∈ peft.adapters s
  · simp only [if_neg (not_not_intro hteacher)]
    exact hadded s h
  · simp only [if_pos hteacher]
    exact hadded _ (hdoc.adapters_addAdapter _ _ h)

theorem Serving.restored {s s' : EngineState σ α} (h : Serving peft s.peft)
    (hr : Restored peft s s') : Serving peft s'.peft := by
  have hlive : Live peft s.peft := by
    unfold Live
    rw [h.active]
    exact ⟨h.available, by decide⟩
  have hactive : peft.activeAdapter s'.peft = "default" := (hr.active hlive).trans h.active
  refine ⟨hr.adapters ▸ h.available, hactive, fun a => ?_⟩
  have honly : OnlyActive peft s.peft := by
    intro b
    rw [h.active]
    exact h.only b
  rw [hr.only hlive honly a, hactive]

theorem LoraEntry.SameKind.refl_left {x y : LoraEntry α} (h : x.SameKind y) : x.SameKind x := by
  have htensors : ∀ {ps ps' : List (String × Tensor α)}, SameTensors ps ps' → SameTensors ps ps :=
    fun h => ⟨h.nodup, List.forall₂_same.mpr fun _ _ => ⟨rfl, rfl⟩⟩
  cases h with
  | tensor h => exact .tensor rfl
  | module hp hb => exact .module (htensors hp) (htensors hb)

/-- A change that keeps sizes keeps the kind. -/
theorem LoraEntry.SameKind.update_left {f : String → Tensor α → Tensor α}
    (hf : ∀ name x, (f name x).shape = x.shape) {x y : LoraEntry α} (h : x.SameKind y) :
    (x.update f).SameKind y := by
  cases h with
  | tensor h => exact .tensor ((hf _ _).trans h)
  | module hp hb =>
      refine .module ⟨?_, ?_⟩ hb
      · rw [List.map_map]
        exact hp.nodup
      · exact List.forall₂_map_left_iff.mpr (hp.pairs.imp fun _ _ ⟨hn, hs⟩ => ⟨hn, (hf _ _).trans hs⟩)

/-- One configuration, in terms of the weights of the two adapters. -/
theorem sameConfig_iff {layers : List (LoraLayer α)} :
    SameConfig layers ↔ List.Forall₂ (fun d t => ∀ attr, Option.Rel LoraEntry.SameKind (d attr)
      (t attr)) (weights "default" layers) (weights "extpi_teacher" layers) := by
  unfold weights SameConfig
  rw [List.forall₂_map_left_iff, List.forall₂_map_right_iff, List.forall₂_same]
  rfl

theorem SameConfig.copied {layers layers' : List (LoraLayer α)} (h : SameConfig layers)
    (hd : weights "default" layers' = weights "default" layers)
    (ht : weights "extpi_teacher" layers' = weights "default" layers) : SameConfig layers' := by
  rw [sameConfig_iff, hd, ht]
  unfold weights
  rw [List.forall₂_map_left_iff, List.forall₂_map_right_iff, List.forall₂_same]
  intro l hl attr
  have hpair := h l hl attr
  show Option.Rel LoraEntry.SameKind (l.entry attr "default") (l.entry attr "default")
  generalize l.entry attr "default" = d at hpair ⊢
  generalize l.entry attr "extpi_teacher" = t at hpair
  cases hpair with
  | none => exact .none
  | some hkind => exact .some hkind.refl_left

/-- A sync that returns makes the teacher's weights those of the default adapter; one that raises
changes no weights. -/
theorem syncLoraAdapterSnapshot_spec (hdoc : peft.Documented) (version : ℕ) {s : EngineState σ α}
    (hs : Serving peft s.peft) (hc : SameConfig s.layers) :
    wp (syncLoraAdapterSnapshot peft version "default" "extpi_teacher") (fun r s' =>
      Serving peft s'.peft ∧ SameConfig s'.layers ∧
      weights "default" s'.layers = weights "default" s.layers ∧
      match r with
      | .ok _ => weights "extpi_teacher" s'.layers = weights "default" s'.layers
      | .error _ => weights "extpi_teacher" s'.layers = weights "extpi_teacher" s.layers) s := by
  unfold syncLoraAdapterSnapshot
  rw [wp_get_bind, if_neg (not_not_intro hs.available)]
  by_cases hteacher : "extpi_teacher" ∈ peft.adapters s.peft
  · rw [if_neg (not_not_intro hteacher)]
    by_cases hversion : version = 1 ∨ version = 0
    · rw [if_neg (not_not_intro hversion)]
      apply wp_bind_ok
      rw [wp_onPart]
      refine wp_mono (wp_copyLoraAdapterWeights (by decide) hc) ?_
      rintro _ layers' ⟨n, rfl, htarget, hothers, hzero⟩
      have hdefault := hothers "default" (by decide)
      have hconfig : SameConfig layers' := hc.copied hdefault htarget
      refine ⟨n, rfl, ?_⟩
      by_cases hn : n = 0
      · rw [if_pos hn]
        exact ⟨hs, hconfig, hdefault, htarget.trans (hzero hn).symm⟩
      · have hname : ¬ peft.activeAdapter s.peft = "" := by
          rw [hs.active]
          decide
        rw [if_neg hn, activeAdapterName, if_neg hname, hs.active]
        refine ⟨⟨?_, ?_, fun a => ?_⟩, hconfig, hdefault, htarget.trans hdefault.symm⟩
        · exact (hdoc.adapters_setAdapter "default" s.peft).symm ▸ hs.available
        · exact hdoc.activeAdapter_setAdapter _ _ hs.available
        · exact hdoc.trainable_setAdapter _ _ a hs.available
    · rw [if_pos hversion]
      exact ⟨hs, hc, rfl, rfl⟩
  · rw [if_pos hteacher]
    exact ⟨hs, hc, rfl, rfl⟩

theorem weights_trainLayers {trainable : String → Bool} (update : WeightUpdate α)
    (layers : List (LoraLayer α)) {a : String} (ha : ¬ trainable a = true) :
    weights a (trainLayers trainable update layers) = weights a layers := by
  refine List.ext_getElem (by simp [weights, trainLayers]) fun i hi hj => ?_
  simp [weights, trainLayers, ha]

theorem SameConfig.trainLayers {trainable : String → Bool} (update : WeightUpdate α)
    {layers : List (LoraLayer α)} (h : SameConfig layers) (hd : trainable "default" = true)
    (ht : ¬ trainable "extpi_teacher" = true) :
    SameConfig (trainLayers trainable update layers) := by
  intro l hl attr
  obtain ⟨i, hi, rfl⟩ := List.mem_mapIdx.mp hl
  have hpair := h layers[i] (List.getElem_mem hi) attr
  simp only [if_pos hd, if_neg ht]
  generalize layers[i].entry attr "default" = d at hpair
  generalize layers[i].entry attr "extpi_teacher" = t at hpair
  cases hpair with
  | none => exact .none
  | some hkind => exact .some (hkind.update_left (update.shape_apply i attr "default"))

/-- A training step reaches only the default adapter. -/
theorem trainBatch_spec {s : EngineState σ α} (hs : Serving peft s.peft) (hc : SameConfig s.layers)
    (update : WeightUpdate α) (raises : Bool) :
    wp (trainBatch peft update raises) (fun _ s' => s'.peft = s.peft ∧ SameConfig s'.layers ∧
      weights "extpi_teacher" s'.layers = weights "extpi_teacher" s.layers) s := by
  have hteacher : ¬ peft.trainable s.peft "extpi_teacher" = true := by
    rw [hs.only]
    decide
  have hdefault : peft.trainable s.peft "default" = true := (hs.only _).mpr rfl
  have hconfig := hc.trainLayers update hdefault hteacher
  have hweights := weights_trainLayers update s.layers hteacher
  unfold trainBatch
  rw [wp_bind, wp_modify]
  cases raises with
  | true => exact ⟨rfl, hconfig, hweights⟩
  | false => exact ⟨rfl, hconfig, hweights⟩

/-! ### Every run -/

/-- What the state and the operation promise: after it the default adapter is active and alone
trainable; the teacher's weights change in a sync that returns only, and are the default's then;
the default's weights change in a training step only. -/
structure OpGuarantee (peft : Peft σ) (version : ℕ) (s : EngineState σ α) (op : AdapterOp α) :
    Prop where
  active : peft.activeAdapter (after (op.exec peft version) s).peft = "default"
  trainable : ∀ a, peft.trainable (after (op.exec peft version) s).peft a = true ↔ a = "default"
  teacher_changes : weights "extpi_teacher" (after (op.exec peft version) s).layers ≠
      weights "extpi_teacher" s.layers →
    op = .sync ∧ ∃ copied, outcome (op.exec peft version) s = .ok copied
  teacher_synced : op = .sync → ∀ copied, outcome (op.exec peft version) s = .ok copied →
    ∀ l ∈ (after (op.exec peft version) s).layers, ∀ attr d t, l.entry attr "default" = some d →
      l.entry attr "extpi_teacher" = some t → t = d
  default_changes : weights "default" (after (op.exec peft version) s).layers ≠
      weights "default" s.layers → ∃ update raises, op = .train update raises

/-- Equal weights are equal entries in every layer. -/
theorem entry_eq_of_weights {a b : String} {layers : List (LoraLayer α)}
    (h : weights a layers = weights b layers) {l : LoraLayer α} (hl : l ∈ layers)
    (attr : LoraAttr) : l.entry attr a = l.entry attr b := by
  obtain ⟨i, hi, rfl⟩ := List.mem_iff_getElem.mp hl
  have hrow := congrArg (fun ws => ws[i]?) h
  simp only [weights, List.getElem?_map, List.getElem?_eq_getElem hi, Option.map_some,
    Option.some.injEq] at hrow
  exact congrFun hrow attr

/-- What holds between operations. -/
structure Ready (peft : Peft σ) (s : EngineState σ α) : Prop where
  serving : Serving peft s.peft
  sameConfig : SameConfig s.layers

/-- One operation from a ready state: it ends in a ready state and keeps its promises. -/
theorem AdapterOp.step (hdoc : peft.Documented) (version : ℕ) {s : EngineState σ α}
    (h : Ready peft s) (op : AdapterOp α) :
    Ready peft (after (op.exec peft version) s) ∧ OpGuarantee peft version s op := by
  cases op with
  | infer noLoraAdapter loraAdapterName body =>
      have hr : Restored peft s (after ((AdapterOp.infer noLoraAdapter loraAdapterName body :
          AdapterOp α).exec peft version) s) := by
        have hbatch := inferBatch_restored hdoc noLoraAdapter loraAdapterName body s
        unfold AdapterOp.exec
        show wp _ (fun _ s' => Restored peft s s') s
        rw [wp_bind]
        refine wp_mono hbatch fun r s' h' => ?_
        cases r with
        | error e => exact h'
        | ok _ => exact h'
      have hserving := h.serving.restored hr
      have hconfig : SameConfig (after ((AdapterOp.infer noLoraAdapter loraAdapterName body :
          AdapterOp α).exec peft version) s).layers := hr.layers ▸ h.sameConfig
      refine ⟨⟨hserving, hconfig⟩, hserving.active, hserving.only, ?_, ?_, ?_⟩
      · intro hne
        exact absurd (congrArg (weights "extpi_teacher") hr.layers) hne
      · rintro ⟨⟩
      · intro hne
        exact absurd (congrArg (weights "default") hr.layers) hne
  | sync =>
      obtain ⟨hserving, hconfig, hdefault, hteacher⟩ :=
        syncLoraAdapterSnapshot_spec hdoc version h.serving h.sameConfig
      refine ⟨⟨hserving, hconfig⟩, hserving.active, hserving.only, ?_, ?_, ?_⟩
      · intro hne
        refine ⟨rfl, ?_⟩
        cases hout : outcome (AdapterOp.sync.exec peft version) s with
        | ok copied => exact ⟨copied, rfl⟩
        | error e =>
            have hout' : outcome (syncLoraAdapterSnapshot peft version "default" "extpi_teacher") s =
                .error e := hout
            rw [hout'] at hteacher
            exact absurd hteacher hne
      · intro _ copied hout l hl attr d t hd ht
        have hout' : outcome (syncLoraAdapterSnapshot peft version "default" "extpi_teacher") s =
            .ok copied := hout
        rw [hout'] at hteacher
        have hentry := entry_eq_of_weights hteacher hl attr
        rw [hd, ht] at hentry
        exact Option.some.inj hentry
      · intro hne
        exact absurd hdefault hne
  | train update raises =>
      have hspec : wp ((AdapterOp.train update raises).exec peft version) (fun _ s' =>
          s'.peft = s.peft ∧ SameConfig s'.layers ∧
          weights "extpi_teacher" s'.layers = weights "extpi_teacher" s.layers) s := by
        unfold AdapterOp.exec
        rw [wp_bind]
        refine wp_mono (trainBatch_spec h.serving h.sameConfig update raises) fun r s' h' => ?_
        cases r with
        | error e => exact h'
        | ok _ => exact h'
      obtain ⟨hpeft, hconfig, hteacher⟩ := hspec
      have hserving : Serving peft (after ((AdapterOp.train update raises).exec peft version)
        s).peft := hpeft ▸ h.serving
      refine ⟨⟨hserving, hconfig⟩, hserving.active, hserving.only, ?_, ?_, ?_⟩
      · intro hne
        exact absurd hteacher hne
      · rintro ⟨⟩
      · intro _
        exact ⟨update, raises, rfl⟩

/-- **The adapter state machine.**  From a state in which the default adapter is active and alone
trainable, with both adapters built from one configuration, every operation after every list of
operations keeps its promises. -/
theorem adapterOps_guarantee (hdoc : peft.Documented) (version : ℕ) {s : EngineState σ α}
    (hserving : Serving peft s.peft) (hconfig : SameConfig s.layers) (ops : List (AdapterOp α))
    (op : AdapterOp α) :
    OpGuarantee peft version (runAll (AdapterOp.exec peft version) ops s) op := by
  have hready : Ready peft (runAll (AdapterOp.exec peft version) ops s) :=
    runAll_invariant (Ready peft) (fun op _ h => (op.step hdoc version h).1) ops
      ⟨hserving, hconfig⟩
  exact (op.step hdoc version hready).2

end engine

/-! ### One layer -/

/-- PEFT as documented, with its state written out. -/
structure PeftState where
  adapters : List String
  activeAdapter : String
  trainable : String → Bool
  disabled : Bool

def documentedPeft : Peft PeftState where
  adapters := PeftState.adapters
  activeAdapter := PeftState.activeAdapter
  trainable := PeftState.trainable
  setAdapter a s := { s with activeAdapter := a, trainable := fun b => b == a }
  addAdapter a s := { s with adapters := s.adapters ++ [a] }
  freeze a s := { s with trainable := fun b => b != a && s.trainable b }
  enterDisabled s := { s with disabled := true, trainable := fun _ => false }
  exitDisabled s := { s with disabled := false, trainable := fun b => b == s.activeAdapter }

theorem documentedPeft_documented : documentedPeft.Documented where
  adapters_setAdapter _ _ := rfl
  activeAdapter_setAdapter _ _ _ := rfl
  trainable_setAdapter _ _ _ _ := beq_iff_eq
  adapters_addAdapter _ _ := List.subset_append_left _ _
  adapters_freeze _ _ := rfl
  adapters_enterDisabled _ := rfl
  activeAdapter_enterDisabled _ := rfl
  adapters_exitDisabled _ := rfl
  activeAdapter_exitDisabled _ := rfl
  trainable_exitDisabled _ _ := beq_iff_eq

/-- One layer whose two adapters hold one module with a 1 × 1 weight each. -/
def oneLayer : EngineState PeftState ℕ where
  peft := buildLoraModule documentedPeft true ⟨["default"], "default", fun b => b == "default", false⟩
  layers := [{
    entry := fun attr a =>
      if attr = .loraA ∧ a = "default" then some (.module [("weight", ⟨1, [[3]], by simp⟩)] [])
      else if attr = .loraA ∧ a = "extpi_teacher" then
        some (.module [("weight", ⟨1, [[5]], by simp⟩)] [])
      else none
    scaling := fun _ => some 1 }]

theorem sameConfig_oneLayer : SameConfig oneLayer.layers := by
  intro l hl attr
  obtain rfl := List.mem_singleton.mp hl
  cases attr with
  | loraA => exact .some (.module ⟨by decide, .cons ⟨rfl, rfl⟩ .nil⟩ ⟨by decide, .nil⟩)
  | loraB => exact .none
  | loraEmbeddingA => exact .none
  | loraEmbeddingB => exact .none

/-- A sync after a scoring pass of the teacher that raised. -/
theorem adapterOps_guarantee_oneLayer :
    OpGuarantee documentedPeft 1 (runAll (AdapterOp.exec documentedPeft 1)
      [.infer false (some "extpi_teacher") (.withoutAdapter .raise)] oneLayer) .sync :=
  adapterOps_guarantee documentedPeft_documented 1
    (buildLoraModule_serving documentedPeft_documented (by decide)) sameConfig_oneLayer _ .sync

end ExtpiRlsd
