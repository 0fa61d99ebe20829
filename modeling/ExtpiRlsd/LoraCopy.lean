import ExtpiRlsd.Lib.Checked
import ExtpiRlsd.LoraAdapters

/-! # The copy of an adapter

Two adapters built from one configuration occur in the same attributes of the same layers, with
tensors of the same names and sizes.  A copy between them never raises in the middle and leaves
the target equal to the source; where it counts no element at all the target was equal to it
before (`wp_copyLoraAdapterWeights`). -/

namespace ExtpiRlsd

open Effects Tensors

variable {α : Type}

/-! ### One configuration -/

/-- Named tensors of one configuration: the same distinct names in one order, with equal sizes. -/
structure SameTensors (source target : List (String × Tensor α)) : Prop where
  nodup : (source.map Prod.fst).Nodup
  pairs : List.Forall₂ (fun x y => x.1 = y.1 ∧ x.2.shape = y.2.shape) source target

inductive LoraEntry.SameKind : LoraEntry α → LoraEntry α → Prop where
  | tensor {x y : Tensor α} : x.shape = y.shape → SameKind (.tensor x) (.tensor y)
  | module {ps bs ps' bs' : List (String × Tensor α)} : SameTensors ps ps' → SameTensors bs bs' →
      SameKind (.module ps bs) (.module ps' bs')

/-- Both adapters occur in the same attributes of the layer, with entries of one kind. -/
def LoraLayer.Paired (sourceAdapter targetAdapter : String) (l : LoraLayer α) : Prop :=
  ∀ attr, Option.Rel LoraEntry.SameKind (l.entry attr sourceAdapter) (l.entry attr targetAdapter)

/-- The two adapters are built from one configuration. -/
def SameConfig (layers : List (LoraLayer α)) : Prop :=
  ∀ l ∈ layers, l.Paired "default" "extpi_teacher"

/-- The weights of an adapter, layer by layer. -/
def weights (adapter : String) (layers : List (LoraLayer α)) :
    List (LoraAttr → Option (LoraEntry α)) :=
  layers.map fun l attr => l.entry attr adapter

/-! ### The copy -/

theorem lookup_of_getElem? {xs : List (String × Tensor α)} (hnodup : (xs.map Prod.fst).Nodup)
    {i : ℕ} {x : String × Tensor α} (h : xs[i]? = some x) : xs.lookup x.1 = some x.2 := by
  induction xs generalizing i with
  | nil => cases h
  | cons y ys ih =>
      obtain ⟨hy, hys⟩ := List.nodup_cons.mp hnodup
      cases i with
      | zero =>
          obtain rfl : y = x := Option.some.inj h
          simp [List.lookup]
      | succ i =>
          have hx : ys[i]? = some x := h
          have hne : ¬ x.1 = y.1 := by
            intro heq
            exact hy (heq ▸ List.mem_map_of_mem (List.mem_of_getElem? hx))
          rw [List.lookup_cons, beq_false_of_ne hne]
          exact ih hys hx

theorem SameTensors.exists_source {source target : List (String × Tensor α)}
    (h : SameTensors source target) {t : String × Tensor α} (ht : t ∈ target) :
    ∃ v, source.lookup t.1 = some v ∧ v.shape = t.2.shape := by
  obtain ⟨i, hi⟩ := List.mem_iff_getElem?.mp ht
  have his : i < source.length := by
    rw [h.pairs.length_eq]
    exact (List.getElem?_eq_some_iff.mp hi).1
  obtain ⟨hname, hshape⟩ :=
    Checked.of_forall₂_getElem? h.pairs (List.getElem?_eq_getElem his) hi
  refine ⟨source[i].2, ?_, hshape⟩
  have hlookup := lookup_of_getElem? h.nodup (List.getElem?_eq_getElem his)
  rwa [hname] at hlookup

/-- A list with the names of the target and the values looked up in the source is the source. -/
theorem SameTensors.eq_source {source target copied : List (String × Tensor α)}
    (h : SameTensors source target)
    (hc : List.Forall₂ (fun t c => c.1 = t.1 ∧ source.lookup t.1 = some c.2) target copied) :
    copied = source := by
  refine List.ext_getElem (by rw [← hc.length_eq, h.pairs.length_eq]) fun i hi his => ?_
  have hit : i < target.length := by rw [hc.length_eq]; exact hi
  have hsource := List.getElem?_eq_getElem his
  have htarget := List.getElem?_eq_getElem hit
  obtain ⟨hname, -⟩ := Checked.of_forall₂_getElem? h.pairs hsource htarget
  obtain ⟨hcname, hcvalue⟩ :=
    Checked.of_forall₂_getElem? hc htarget (List.getElem?_eq_getElem hi)
  have hlookup := lookup_of_getElem? h.nodup hsource
  rw [hname, hcvalue] at hlookup
  exact Prod.ext (hcname.trans hname.symm) (Option.some.inj hlookup)

/-- The copy of named tensors of one configuration makes them equal; a count of zero means that
they were equal. -/
theorem wp_copyNamed (missing : String → EngineError) {source target : List (String × Tensor α)}
    (h : SameTensors source target) :
    wp (copyNamed missing source) (fun r t => ∃ n, r = .ok n ∧ t = source ∧
      (n = 0 → target = source)) target := by
  have hloop : wp (copyNamed missing source) (fun r t => ∃ n, r = .ok n ∧
      List.Forall₂ (fun s s' => ∃ m, m ≤ n ∧ (s'.1 = s.1 ∧ source.lookup s.1 = some s'.2) ∧
        (m = 0 → s = s')) target t) target := by
    unfold copyNamed
    apply wp_forEach
    intro t ht
    obtain ⟨v, hv, hshape⟩ := h.exists_source ht
    refine ⟨v.numel, ?_, ?_, ?_⟩
    · simp [outcome, EStateM.run, hv, copyLoraTensor, hshape]
    · simp [after, EStateM.run, hv, copyLoraTensor, hshape]
    · intro hzero
      have heq := Tensor.eq_of_numel_eq_zero hshape hzero
      simp [after, EStateM.run, hv, copyLoraTensor, heq]
  refine wp_mono hloop ?_
  rintro _ copied ⟨n, rfl, hc⟩
  have hcopied : copied = source := h.eq_source (hc.imp fun _ _ hs => hs.choose_spec.2.1)
  refine ⟨n, rfl, hcopied, ?_⟩
  rintro rfl
  rw [← hcopied]
  refine List.forall₂_eq_eq_eq ▸ hc.imp fun _ _ hs => ?_
  obtain ⟨m, hm, -, hzero⟩ := hs
  exact hzero (Nat.le_zero.mp hm)

theorem wp_copyLoraModuleWeights {ps bs ps' bs' : List (String × Tensor α)}
    (hp : SameTensors ps ps') (hb : SameTensors bs bs') :
    wp (copyLoraModuleWeights ps bs) (fun r s => ∃ n, r = .ok n ∧ s = (ps, bs) ∧
      (n = 0 → (ps', bs') = (ps, bs))) (ps', bs') := by
  unfold copyLoraModuleWeights
  apply wp_bind_ok
  rw [wp_onPart]
  refine wp_mono (wp_copyNamed .missingSourceParameter hp) ?_
  rintro _ _ ⟨n, rfl, rfl, hn⟩
  refine ⟨n, rfl, ?_⟩
  apply wp_bind_ok
  rw [wp_onPart]
  refine wp_mono (wp_copyNamed .missingSourceBuffer hb) ?_
  rintro _ _ ⟨m, rfl, rfl, hm⟩
  refine ⟨m, rfl, n + m, rfl, rfl, fun hzero => ?_⟩
  exact Prod.ext (hn (by omega)) (hm (by omega))

/-- The copy between entries of one kind makes them equal. -/
theorem wp_copyLoraEntry {source target : LoraEntry α} (h : source.SameKind target) :
    wp (copyLoraEntry source) (fun r t => ∃ n, r = .ok n ∧ t = source ∧
      (n = 0 → target = source)) target := by
  cases h with
  | @tensor x y hshape =>
      refine ⟨x.numel, ?_, ?_, ?_⟩
      · simp [outcome, EStateM.run, copyLoraEntry, copyLoraTensor, hshape]
      · simp [after, EStateM.run, copyLoraEntry, copyLoraTensor, hshape]
      · intro hzero
        rw [Tensor.eq_of_numel_eq_zero hshape hzero]
  | @module ps bs ps' bs' hp hb =>
      obtain ⟨n, hn, hs, hzero⟩ := wp_copyLoraModuleWeights hp hb
      simp only [outcome, after, wp, EStateM.run, copyLoraEntry] at hn hs ⊢
      cases hrun : copyLoraModuleWeights ps bs (ps', bs') with
      | error e s =>
          rw [hrun] at hn
          cases hn
      | ok m s =>
          rw [hrun] at hn hs
          obtain rfl := Except.ok.inj hn
          obtain rfl := hs
          refine ⟨m, rfl, rfl, fun hm => ?_⟩
          obtain ⟨rfl, rfl⟩ := Prod.mk.inj (hzero hm)
          rfl

/-- What a copy between two adapters does to a layer that holds both in the same attributes. -/
structure CopiedLayer (sourceAdapter targetAdapter : String) (n : ℕ) (l l' : LoraLayer α) :
    Prop where
  target : ∀ attr, l'.entry attr targetAdapter = l.entry attr sourceAdapter
  others : ∀ attr a, a ≠ targetAdapter → l'.entry attr a = l.entry attr a
  zero : n = 0 → ∀ attr, l.entry attr targetAdapter = l.entry attr sourceAdapter

theorem wp_copyLoraAttr {sourceAdapter targetAdapter : String} {attr : LoraAttr}
    {l : LoraLayer α} (h : Option.Rel LoraEntry.SameKind (l.entry attr sourceAdapter)
      (l.entry attr targetAdapter)) :
    wp (copyLoraAttr sourceAdapter targetAdapter attr) (fun r l' => ∃ n, r = .ok n ∧
      l'.entry attr targetAdapter = l.entry attr sourceAdapter ∧
      (∀ attr' a, ¬ (attr' = attr ∧ a = targetAdapter) → l'.entry attr' a = l.entry attr' a) ∧
      (n = 0 → l.entry attr targetAdapter = l.entry attr sourceAdapter)) l := by
  simp only [wp, outcome, after, EStateM.run, copyLoraAttr]
  generalize hs : l.entry attr sourceAdapter = es at h
  generalize ht : l.entry attr targetAdapter = et at h
  cases h with
  | none => exact ⟨0, rfl, ht, fun _ _ _ => rfl, fun _ => rfl⟩
  | @some source target hkind =>
      obtain ⟨n, hn, hsame, hzero⟩ := wp_copyLoraEntry hkind
      simp only [outcome, after, EStateM.run] at hn hsame
      cases hrun : copyLoraEntry source target with
      | error e t =>
          rw [hrun] at hn
          cases hn
      | ok m t =>
          rw [hrun] at hn hsame
          obtain rfl := Except.ok.inj hn
          have hsame : t = source := hsame
          simp only [hrun]
          refine ⟨m, rfl, ?_, ?_, ?_⟩
          · simp [LoraLayer.setEntry, hsame]
          · intro attr' a hne
            simp only [LoraLayer.setEntry, if_neg hne]
          · intro hm
            rw [hzero hm]

/-- What the copies of some attributes do to the layer. -/
structure CopiedAttrs (sourceAdapter targetAdapter : String) (done : List LoraAttr) (n : ℕ)
    (l l' : LoraLayer α) : Prop where
  target : ∀ attr ∈ done, l'.entry attr targetAdapter = l.entry attr sourceAdapter
  others : ∀ attr a, a ≠ targetAdapter ∨ attr ∉ done → l'.entry attr a = l.entry attr a
  zero : n = 0 → ∀ attr ∈ done, l.entry attr targetAdapter = l.entry attr sourceAdapter

/-- The step lemma: one more attribute is copied. -/
theorem CopiedAttrs.copy {sourceAdapter targetAdapter : String} (hne : sourceAdapter ≠ targetAdapter)
    {done : List LoraAttr} {n : ℕ} {l l' : LoraLayer α} (h : l.Paired sourceAdapter targetAdapter)
    (hdone : CopiedAttrs sourceAdapter targetAdapter done n l l') {attr : LoraAttr}
    (hfresh : attr ∉ done) :
    wp (copyLoraAttr sourceAdapter targetAdapter attr) (fun r l'' => ∃ m, r = .ok m ∧
      CopiedAttrs sourceAdapter targetAdapter (done ++ [attr]) (n + m) l l'') l' := by
  have hsource := hdone.others attr sourceAdapter (.inl hne)
  have hkept := hdone.others attr targetAdapter (.inr hfresh)
  have hpair : Option.Rel LoraEntry.SameKind (l'.entry attr sourceAdapter)
      (l'.entry attr targetAdapter) := by
    rw [hsource, hkept]
    exact h attr
  refine wp_mono (wp_copyLoraAttr hpair) ?_
  rintro _ l'' ⟨m, rfl, hset, hrest, hm⟩
  refine ⟨m, rfl, ?_, ?_, ?_⟩
  · intro attr' hin
    rcases List.mem_append.mp hin with hin | hin
    · have hattr : ¬ (attr' = attr ∧ targetAdapter = targetAdapter) := by
        rintro ⟨heq, -⟩
        exact hfresh (heq ▸ hin)
      rw [hrest attr' targetAdapter hattr]
      exact hdone.target attr' hin
    · obtain rfl := List.mem_singleton.mp hin
      rw [hset, hsource]
  · intro attr' a hor
    have hattr : ¬ (attr' = attr ∧ a = targetAdapter) := by
      rintro ⟨rfl, rfl⟩
      rcases hor with hor | hor
      · exact hor rfl
      · exact hor (List.mem_append_right _ (List.mem_singleton_self _))
    rw [hrest attr' a hattr]
    refine hdone.others attr' a (hor.imp_right fun hnot hin => ?_)
    exact hnot (List.mem_append_left _ hin)
  · intro hsum attr' hin
    rcases List.mem_append.mp hin with hin | hin
    · exact hdone.zero (by omega) attr' hin
    · obtain rfl := List.mem_singleton.mp hin
      rw [← hkept, ← hsource]
      exact hm (by omega)

theorem wp_copyLoraAttrs {sourceAdapter targetAdapter : String} (hne : sourceAdapter ≠ targetAdapter)
    {l : LoraLayer α} (h : l.Paired sourceAdapter targetAdapter) :
    wp (sumOver (copyLoraAttr sourceAdapter targetAdapter) loraAttrs) (fun r l' =>
      ∃ n, r = .ok n ∧ CopiedLayer sourceAdapter targetAdapter n l l') l := by
  refine wp_mono (wp_sumOver (fun done n l' =>
    CopiedAttrs sourceAdapter targetAdapter done n l l') ?_ ?_) ?_
  · rintro done attr n l' hpre hdone
    have hnodup : (done ++ [attr]).Nodup := hpre.sublist.nodup (by decide)
    apply hdone.copy hne h
    intro hin
    exact (List.disjoint_of_nodup_append hnodup) hin (List.mem_singleton_self attr)
  · exact ⟨fun _ hin => absurd hin List.not_mem_nil, fun _ _ _ => rfl,
      fun _ _ hin => absurd hin List.not_mem_nil⟩
  · rintro _ l' ⟨n, rfl, hcopied⟩
    have hall : ∀ attr, attr ∈ loraAttrs := by
      intro attr
      cases attr <;> decide
    exact ⟨n, rfl, fun attr => hcopied.target attr (hall attr),
      fun attr a ha => hcopied.others attr a (.inl ha), fun hn attr => hcopied.zero hn attr (hall attr)⟩

/-- The scaling is not an entry. -/
theorem entry_copyScaling (sourceAdapter targetAdapter : String) (l : LoraLayer α) (attr : LoraAttr)
    (a : String) : (copyScaling sourceAdapter targetAdapter l).entry attr a = l.entry attr a := by
  unfold copyScaling
  cases l.scaling sourceAdapter <;> rfl

theorem wp_copyLoraLayer {sourceAdapter targetAdapter : String} (hne : sourceAdapter ≠ targetAdapter)
    {l : LoraLayer α} (h : l.Paired sourceAdapter targetAdapter) :
    wp (copyLoraLayer sourceAdapter targetAdapter) (fun r l' => ∃ n, r = .ok n ∧
      CopiedLayer sourceAdapter targetAdapter n l l') l := by
  unfold copyLoraLayer
  apply wp_bind_ok
  refine wp_mono (wp_copyLoraAttrs hne h) ?_
  rintro _ l' ⟨n, rfl, hcopied⟩
  refine ⟨n, rfl, n, rfl, ?_⟩
  show CopiedLayer sourceAdapter targetAdapter n l (copyScaling sourceAdapter targetAdapter l')
  refine ⟨fun attr => ?_, fun attr a ha => ?_, hcopied.zero⟩
  · rw [entry_copyScaling]
    exact hcopied.target attr
  · rw [entry_copyScaling]
    exact hcopied.others attr a ha

theorem weights_eq_of_forall₂ {a b : String} {layers layers' : List (LoraLayer α)}
    (h : List.Forall₂ (fun l l' => ∀ attr, l'.entry attr b = l.entry attr a) layers layers') :
    weights b layers' = weights a layers := by
  induction h with
  | nil => rfl
  | cons hl _ ih => exact congrArg₂ List.cons (funext hl) ih

/-- **The copy of an adapter.**  Between adapters of one configuration it never raises, and the
target has the weights of the source; a count of zero means that it had them before. -/
theorem wp_copyLoraAdapterWeights {sourceAdapter targetAdapter : String}
    (hne : sourceAdapter ≠ targetAdapter) {layers : List (LoraLayer α)}
    (h : ∀ l ∈ layers, l.Paired sourceAdapter targetAdapter) :
    wp (copyLoraAdapterWeights sourceAdapter targetAdapter) (fun r layers' => ∃ n, r = .ok n ∧
      weights targetAdapter layers' = weights sourceAdapter layers ∧
      (∀ a, a ≠ targetAdapter → weights a layers' = weights a layers) ∧
      (n = 0 → weights targetAdapter layers = weights sourceAdapter layers)) layers := by
  have hloop := wp_forEach fun l hl => wp_copyLoraLayer hne (h l hl)
  refine wp_mono hloop ?_
  rintro _ layers' ⟨n, rfl, hc⟩
  have htarget : weights targetAdapter layers' = weights sourceAdapter layers :=
    weights_eq_of_forall₂ (hc.imp fun _ _ ⟨_, _, hl⟩ => hl.target)
  refine ⟨n, rfl, htarget, fun a ha => ?_, fun hn => ?_⟩
  · exact weights_eq_of_forall₂ (hc.imp fun _ _ ⟨_, _, hl⟩ attr => hl.others attr a ha)
  · have hsame : weights targetAdapter layers' = weights targetAdapter layers := by
      refine weights_eq_of_forall₂ (hc.imp fun _ _ ⟨m, hm, hl⟩ attr => ?_)
      rw [hl.target, hl.zero (by omega)]
    exact hsame.symm.trans htarget

end ExtpiRlsd
