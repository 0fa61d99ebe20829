import ExtpiRlsd.ActorUpdate
import ExtpiRlsd.Privacy
import ExtpiRlsd.RlsdCredit

/-! # Exact tokens of the privileged teacher

What the hook stores in RLSD mode, traced from the accepted batch through packing, scorer and
padding.  Under a causal scorer a stored entry should be the log-prob of the response token in
its own column, after the privileged prefix and the valid response tokens before it.

The worker reads a row as the prefix followed by its valid response tokens, and the result is
padded on the right: column `t` holds the log-prob of the `t`-th valid token.  On a row whose
valid tokens come first this is the token of column `t`; behind a masked token it is another one,
or none.  `beforeActorUpdate_exactTokens_iff` says that the stored tensor is exact for every
scorer exactly when every response mask row is right padded. -/

namespace ExtpiRlsd

open Tensors Masks PyText Checked

variable {Tok : Type}

/-- The privileged prefixes: the tokenised prompts, cut to the maximal length. -/
def privilegedPrefixes (tokenizer : Tokenizer Tok) (maxLength : ℕ) (allowTruncation : Bool)
    (prompts : List PyStr) : List (List Tok) :=
  (tokenizer.encode prompts).filterMap fun ids =>
    (normalizeIds maxLength allowTruncation tokenizer.truncationLeft ids).toOption

/-- The worker call of the teacher: packed, scored by a causal scorer, padded again. -/
def packedTeacherLogProb {α : Type} [Zero α] (scorer : List Tok → Tok → α) (b : PaddedBatch Tok) :
    Except TrainerError (Tensor α) :=
  (computeLogProb (fun ctx v => scorer (ctx.map Prod.fst) v) b).mapError .padding

/-- A valid entry is the log-prob of the response token in its column after the prefix of the
row and the valid response tokens before that column; a masked entry is zero. -/
structure ExactTokens (scorer : List Tok → Tok → ℝ) (prefixes : List (List Tok))
    (b : PaddedBatch Tok) (T : Tensor ℝ) : Prop where
  rows : prefixes.length = b.responses.rows.length
  shape : T.shape = b.responseMask.shape
  valid : ∀ i t ids rm r v, prefixes[i]? = some ids → b.responseMask.rows[i]? = some rm →
    b.responses.rows[i]? = some r → rm[t]? = some true → r[t]? = some v →
    T.get? i t = some (scorer (ids ++ select (rm.take t) (r.take t)) v)
  masked : ∀ i t, b.responseMask.get? i t = some false → T.get? i t = some 0

/-- The hook stores an exact tensor; only a batch without rows is refused, by the worker. -/
def StoresExactTokens (scorer : List Tok → Tok → ℝ) (prefixes : List (List Tok))
    (b : PaddedBatch Tok) : Except TrainerError (Option ActorUpdate) → Prop
  | .ok (some update) => ∃ T, update.teacherPiLogProbs = some T ∧ ExactTokens scorer prefixes b T
  | .ok none => False
  | .error _ => b.responses.rows = []

/-! ### What the worker returns -/

theorem filterMap_toOption {ε α β : Type} {f : α → Except ε β} {xs : List α} {ys : List β}
    (h : List.Forall₂ (fun x y => f x = .ok y) xs ys) :
    (xs.filterMap fun x => (f x).toOption) = ys := by
  induction h with
  | nil => rfl
  | cons hx _ ih =>
      rw [List.filterMap_cons, hx, ih]
      rfl

section built
variable [Zero Tok] {printable : Char → Bool} {tokenizer : Tokenizer Tok}
  {sourceBatch : SourceBatch Tok} {maxPromptLength : ℕ}
  {allowPromptTruncation teacherThinking : Bool} {piTraceField : PyStr}
  {build : PiTeacherBatchBuild Tok} {extraInfos : List (List (PyStr × PyVal))}
  {counts : PrivacyCounts} {normalized : List (List Tok)} {prefixMask : Tensor Bool}

theorem PiBuilt.privilegedPrefixes (built : PiBuilt printable tokenizer sourceBatch
    maxPromptLength allowPromptTruncation teacherThinking piTraceField build extraInfos counts
    normalized prefixMask) :
    privilegedPrefixes tokenizer maxPromptLength allowPromptTruncation build.prompts =
      normalized :=
  filterMap_toOption built.tokenized

theorem PiBuilt.length_normalized (built : PiBuilt printable tokenizer sourceBatch
    maxPromptLength allowPromptTruncation teacherThinking piTraceField build extraInfos counts
    normalized prefixMask) : normalized.length = build.batch.responses.rows.length := by
  rw [← build.batch.shape_prompts, built.prefixRows, List.length_map]

/-- Column `t` of the worker's result scores the `t`-th valid response token of the row. -/
theorem PiBuilt.packedTeacherLogProb (built : PiBuilt printable tokenizer sourceBatch
    maxPromptLength allowPromptTruncation teacherThinking piTraceField build extraInfos counts
    normalized prefixMask) {α : Type} [Zero α] (scorer : List Tok → Tok → α)
    (hne : build.batch.responses.rows ≠ []) :
    ∃ T, packedTeacherLogProb scorer build.batch = .ok T ∧
      T.shape = build.batch.responseMask.shape ∧
      ∀ i ids rm r t, normalized[i]? = some ids → build.batch.responseMask.rows[i]? = some rm →
        build.batch.responses.rows[i]? = some r → t < build.batch.responses.cols →
        T.get? i t = some (((select rm r)[t]?.map
          (scorer (ids ++ (select rm r).take t))).getD 0) := by
  have hleft : ∀ m ∈ prefixMask.rows, LeftPadded m := by
    intro m hm
    rw [built.maskRows] at hm
    obtain ⟨ids, hids, rfl⟩ := List.mem_map.mp hm
    exact leftPadded_paddedMask (built.nonempty ids hids)
  obtain ⟨T, hT, hshape, hentry⟩ := built.joined.computeLogProb_entries
    (fun ctx v => scorer (ctx.map Prod.fst) v) hne hleft
  refine ⟨T, ?_, hshape.trans build.batch.shape_responseMask.symm, ?_⟩
  · rw [ExtpiRlsd.packedTeacherLogProb, hT]
    rfl
  · intro i ids rm r t hids hrm hr ht
    have hpm : prefixMask.rows[i]? = some (paddedMask maxPromptLength ids) := by
      rw [built.maskRows, List.getElem?_map, hids, Option.map_some]
    have hp : build.batch.prompts.rows[i]? =
        some (paddedIds maxPromptLength (padId tokenizer) ids) := by
      rw [built.prefixRows, List.getElem?_map, hids, Option.map_some]
    rw [hentry i _ _ rm r t hpm hp hrm hr ht, select_paddedMask]
    simp only [List.zipIdx_map_fst]

end built

/-! ### What the hook stores -/

section hook
variable [Zero Tok] {printable : Char → Bool} {config : ActorUpdateConfig}
  {tokenizer : Tokenizer Tok} {globalSteps : ℤ}
  {scoreDirectOpd : PaddedBatch Tok → Except TrainerError (Tensor ℝ)}
  {batch : SourceBatch Tok} {oldLogProbs : Tensor ℝ} {build : PiTeacherBatchBuild Tok}

/-- The scorer that gives 1 after exactly `len` tokens and 0 otherwise. -/
def lengthScorer (len : ℕ) (ctx : List Tok) (_ : Tok) : ℝ := if ctx.length = len then 1 else 0

/-- On right-padded response masks the hook stores exact tokens. -/
theorem beforeActorUpdate_exactTokens (hmode : RlsdMode config)
    (hbuild : buildPiTeacherScoreBatch printable tokenizer batch config.teacherMaxPromptLength
      config.allowTeacherPromptTruncation config.onlineTeacherThinking config.piTraceField =
        .ok build)
    (hright : ∀ m ∈ build.batch.responseMask.rows, RightPadded m)
    (scorer : List Tok → Tok → ℝ) :
    StoresExactTokens scorer (privilegedPrefixes tokenizer config.teacherMaxPromptLength
        config.allowTeacherPromptTruncation build.prompts) build.batch
      (beforeActorUpdate printable config tokenizer globalSteps (packedTeacherLogProb scorer)
        scoreDirectOpd batch oldLogProbs) := by
  obtain ⟨_, _, normalized, _, built⟩ := buildPiTeacherScoreBatch_eq_ok hbuild
  rw [built.privilegedPrefixes]
  by_cases hne : build.batch.responses.rows = []
  · have hteacher : packedTeacherLogProb scorer build.batch = .error (.padding .emptyBatch) := by
      rw [packedTeacherLogProb, computeLogProb_emptyBatch _ _ hne]
      rfl
    rw [beforeActorUpdate_teacherError hmode hbuild hteacher]
    exact hne
  · obtain ⟨T, hT, hshape, hentry⟩ := built.packedTeacherLogProb scorer hne
    obtain ⟨update, hupdate, hstored⟩ := beforeActorUpdate_stored globalSteps scoreDirectOpd
      oldLogProbs hmode hbuild hT hshape
    rw [hupdate]
    refine ⟨_, hstored, built.length_normalized, ?_, ?_, ?_⟩
    · rw [Tensor.shape_map₂, shape_asMask, hshape]
      simp
    · intro i t ids rm r v hids hrm hr hrmt hrt
      have hpad := hright rm (List.mem_of_getElem? hrm)
      have ht : t < build.batch.responses.cols := by
        rw [← Tensor.length_of_getElem? hr]
        exact (List.getElem?_eq_some_iff.mp hrt).1
      have hmask : build.batch.responseMask.get? i t = some true :=
        Tensor.get?_eq_some_iff.mpr ⟨rm, hrm, hrmt⟩
      rw [Tensor.get?_map₂, get?_asMask, hmask, hentry i ids rm r t hids hrm hr ht,
        hpad.getElem?_select r hrmt, hrt, hpad.take_select r hrmt]
      simp
    · intro i t hmask
      obtain ⟨x, hx⟩ := Tensor.exists_get?_of_shape hshape.symm hmask
      rw [Tensor.get?_map₂, get?_asMask, hmask, hx]
      simp

/-- Behind a masked response token the scorer that knows the number of tokens before it shows
that another log-prob, or none, is stored. -/
theorem not_storesExactTokens_lengthScorer (hmode : RlsdMode config)
    (hbuild : buildPiTeacherScoreBatch printable tokenizer batch config.teacherMaxPromptLength
      config.allowTeacherPromptTruncation config.onlineTeacherThinking config.piTraceField =
        .ok build) {i t : ℕ} {ids r : List Tok} {rm : List Bool} {v : Tok}
    (hids : (privilegedPrefixes tokenizer config.teacherMaxPromptLength
      config.allowTeacherPromptTruncation build.prompts)[i]? = some ids)
    (hrm : build.batch.responseMask.rows[i]? = some rm)
    (hr : build.batch.responses.rows[i]? = some r) (hrmt : rm[t]? = some true)
    (hrt : r[t]? = some v) (hhole : (rm.take t).count true ≠ t) :
    ¬ StoresExactTokens (lengthScorer (ids.length + (rm.take t).count true))
      (privilegedPrefixes tokenizer config.teacherMaxPromptLength
        config.allowTeacherPromptTruncation build.prompts) build.batch
      (beforeActorUpdate printable config tokenizer globalSteps
        (packedTeacherLogProb (lengthScorer (ids.length + (rm.take t).count true)))
        scoreDirectOpd batch oldLogProbs) := by
  obtain ⟨_, _, normalized, _, built⟩ := buildPiTeacherScoreBatch_eq_ok hbuild
  have hne : build.batch.responses.rows ≠ [] := by
    intro h
    rw [h] at hr
    cases hr
  obtain ⟨T, hT, hshape, hentry⟩ := built.packedTeacherLogProb
    (lengthScorer (ids.length + (rm.take t).count true)) hne
  obtain ⟨update, hupdate, hstored⟩ := beforeActorUpdate_stored globalSteps scoreDirectOpd
    oldLogProbs hmode hbuild hT hshape
  rw [hupdate]
  rintro ⟨T', hT', hexact⟩
  obtain rfl := Option.some.inj (hstored.symm.trans hT')
  have hlen : rm.length = r.length :=
    Tensor.length_eq_of_shape build.batch.shape_responseMask hrm hr
  have ht : t < build.batch.responses.cols := by
    rw [← Tensor.length_of_getElem? hr]
    exact (List.getElem?_eq_some_iff.mp hrt).1
  have hmask : build.batch.responseMask.get? i t = some true :=
    Tensor.get?_eq_some_iff.mpr ⟨rm, hrm, hrmt⟩
  -- the exact entry is 1
  have hone := hexact.valid i t ids rm r v hids hrm hr hrmt hrt
  rw [lengthScorer, List.length_append, length_select (by simp [hlen]), if_pos rfl] at hone
  -- the stored one is 0
  rw [built.privilegedPrefixes] at hids
  rw [Tensor.get?_map₂, get?_asMask, hmask, hentry i ids rm r t hids hrm hr ht] at hone
  cases hsel : (select rm r)[t]? with
  | none =>
      rw [hsel] at hone
      simp at hone
  | some w =>
      have htake : ((select rm r).take t).length = t := by
        have := (List.getElem?_eq_some_iff.mp hsel).1
        rw [List.length_take]
        omega
      have hother : ¬ ids.length + t = ids.length + (rm.take t).count true := by omega
      rw [hsel, Option.map_some, lengthScorer, List.length_append, htake, if_neg hother] at hone
      simp at hone

end hook

/-! ### One row of three tokens -/

theorem length_of_mem_mask {mask : List Bool} (h : mask.length = 3) : ∀ r ∈ [mask], r.length = 3 := by
  simpa using h

theorem size_noTensor {α : Type} : ∀ x ∈ (none : Option (Tensor α)), x.rows.length = 1 := by
  simp

/-- One row with three response tokens under a mask. -/
def threeTokens (mask : List Bool) (h : mask.length = 3) : SourceBatch ℕ where
  batchSize := 1
  prompts := none
  responses := some ⟨3, [[5, 6, 7]], by simp⟩
  attentionMask := none
  responseMask := some ⟨3, [mask], length_of_mem_mask h⟩
  extraInfo := some [.value (.dict [("problem".toList, .str ['p']),
    (defaultPiTraceField, .str ['z'])])]
  rawPrompt := none
  size_prompts := size_noTensor
  size_responses := by simp
  size_attentionMask := size_noTensor
  size_extraInfo := by simp
  size_rawPrompt := by simp
  shape_responseMask := by simp [Tensor.shape]

/-- RLSD with the defaults of the recipe and prompts of at most four tokens. -/
noncomputable def rlsdConfig : ActorUpdateConfig where
  rlsdEnabled := true
  opdPgEnabled := false
  rlsdLambda := 1
  rlsdLambdaWarmupSteps := 0
  rlsdLambdaDecaySteps := 0
  rlsdTokenMask := "all".toList
  directOpdTeacherBackend := "inline_external_hf".toList
  directOpdTeacherMaxPromptLength := 4
  directOpdTeacherThinking := false
  directOpdTeacherMicroBatchSize := 1
  directOpdTeacherTemperature := 1
  teacherMaxPromptLength := 4
  allowTeacherPromptTruncation := true
  onlineTeacherThinking := false
  piTraceField := defaultPiTraceField

theorem rlsdMode_rlsdConfig : RlsdMode rlsdConfig where
  enabled := rfl
  exclusive := rfl
  warmup := le_rfl
  decay := le_rfl
  tokenMask := by
    show normalizeName (if "all".toList = [] then "all".toList else "all".toList) ∈
      tokenMaskAliases.map Prod.fst
    decide

/-- What is built from the row when it is accepted. -/
theorem threeTokens_built (mask : List Bool) (h : mask.length = 3)
    (hok : (buildPiTeacherScoreBatch (fun _ => true) oneToken (threeTokens mask h)
      rlsdConfig.teacherMaxPromptLength rlsdConfig.allowTeacherPromptTruncation
      rlsdConfig.onlineTeacherThinking rlsdConfig.piTraceField).toBool) :
    ∃ build ids, buildPiTeacherScoreBatch (fun _ => true) oneToken (threeTokens mask h)
        rlsdConfig.teacherMaxPromptLength rlsdConfig.allowTeacherPromptTruncation
        rlsdConfig.onlineTeacherThinking rlsdConfig.piTraceField = .ok build ∧
      (privilegedPrefixes oneToken rlsdConfig.teacherMaxPromptLength
        rlsdConfig.allowTeacherPromptTruncation build.prompts)[0]? = some ids ∧
      build.batch.responseMask.rows = [mask] ∧ build.batch.responses.rows = [[5, 6, 7]] := by
  cases hbuild : buildPiTeacherScoreBatch (fun _ => true) oneToken (threeTokens mask h)
      rlsdConfig.teacherMaxPromptLength rlsdConfig.allowTeacherPromptTruncation
      rlsdConfig.onlineTeacherThinking rlsdConfig.piTraceField with
  | error e =>
      rw [hbuild] at hok
      cases hok
  | ok build =>
      obtain ⟨_, _, normalized, _, built⟩ := buildPiTeacherScoreBatch_eq_ok hbuild
      have hresponses := congrArg Tensor.rows (Option.some.inj built.responses)
      have hmask := congrArg Tensor.rows (Option.some.inj built.responseMask)
      have hlt : 0 < normalized.length := by
        rw [built.length_normalized, ← hresponses]
        exact Nat.one_pos
      refine ⟨build, normalized[0], rfl, ?_, hmask.symm, hresponses.symm⟩
      rw [built.privilegedPrefixes]
      exact List.getElem?_eq_getElem hlt

end ExtpiRlsd
