import ExtpiRlsd.InlinePacked
import ExtpiRlsd.RlsdLocality

/-! # A direct teacher that is the student

The rollout's own batch is scored twice under one model: by the actor, from the rollout's
attention mask, and by the direct teacher, from the batch that `buildDirectOpdTeacherScoreBatch`
joins under the response mask.  On a rollout without holes in its response masks both score every
valid token after the same entries, and the advantages vanish.  Behind a masked response token
the teacher sees fewer entries than the student, or reads the logits of a masked position, and
some model tells the two apart: `directOpd_neutral_iff`. -/

namespace ExtpiRlsd

open Tensors Masks Checked

variable {Tok : Type}

/-- The shape of a rollout batch: prompts left padded, one run of attended response entries, the
position ids counting attended entries, and a response mask inside the attention mask. -/
structure RolloutShaped (s : PaddedBatch Tok) : Prop where
  inputIds : s.inputIds = s.prompts.catCols s.responses
  prompt : ∀ m ∈ s.prefixMask.rows, LeftPadded m
  response : ∀ m ∈ (s.attentionMask.dropCols s.prompts.cols).rows, RightPadded m
  positions : CountsAttended s
  responseMask : ∀ i t, s.responseMask.get? i t = some true →
    (s.attentionMask.dropCols s.prompts.cols).get? i t = some true

/-- The batch as the hook receives it. -/
def PaddedBatch.toSource (s : PaddedBatch Tok) : SourceBatch Tok where
  batchSize := s.responses.rows.length
  prompts := some s.prompts
  responses := some s.responses
  attentionMask := some s.attentionMask
  responseMask := some s.responseMask
  extraInfo := none
  rawPrompt := none
  size_prompts := by simpa using s.shape_prompts
  size_responses := by simp
  size_attentionMask := by
    rintro x ⟨⟩
    exact congrArg Prod.fst (s.shape_attentionMask.trans s.shape_inputIds)
  size_extraInfo := by simp
  size_rawPrompt := by simp
  shape_responseMask := by simpa using s.shape_responseMask

/-- The teacher log-probs of the hook: the direct batch of the rollout, scored in micro-batches. -/
noncomputable def directTeacherLogProbs [Fintype Tok] [Zero Tok] (lm : CausalLM Tok)
    (tokenizer : Tokenizer Tok) (scorerPadTokenId : Tok) (maxPromptLength microBatchSize : ℕ)
    (temperature : ℝ) (s : PaddedBatch Tok) : Except TrainerError (Tensor ℝ) := do
  let build ← buildDirectOpdTeacherScoreBatch s.toSource tokenizer maxPromptLength false
  scoreDirectOpdInline lm scorerPadTokenId microBatchSize temperature build.batch

/-- The teacher log-probs agree with the student's at every valid position, and the advantages
computed from what the hook stores are zero; without rows neither side has log-probs. -/
def NeutralOpd {ε ε' : Type} (m : Tensor Bool) (clip : ℝ) (teacher : Except ε (Tensor ℝ))
    (student : Except ε' (Tensor ℝ)) : Prop :=
  SameOnValid m teacher student ∧ ∀ x y, teacher = .ok x → student = .ok y →
    ∃ stored adv metrics, storeTeacherLogProbs "teacher_opd_log_probs" x m = .ok stored ∧
      computeOpdPgAdvantages stored y m clip = .ok (adv, metrics) ∧
      ∀ i t a, adv.get? i t = some a → a = 0

/-! ### Equal log-probs give zero advantages -/

theorem OpdBatch.tokenAdvantages_eq_zero {clip : ℝ} (hc : 0 < clip) (b : OpdBatch)
    (h : ∀ i t, b.responseMask.get? i t = some true →
      b.teacher.get? i t = b.studentOld.get? i t) {i t : ℕ} {a : ℝ}
    (ha : (b.tokenAdvantages clip).get? i t = some a) : a = 0 := by
  obtain ⟨v, hv⟩ := Tensor.exists_get?_of_shape (b.shape_tokenAdvantages clip) ha
  obtain ⟨x, hx⟩ := Tensor.exists_get?_of_shape b.teacher_shape.symm hv
  obtain ⟨y, hy⟩ := Tensor.exists_get?_of_shape b.studentOld_shape.symm hv
  simp only [tokenAdvantages, rawLogratio, Tensor.get?_map₂, Tensor.get?_map, get?_asMask, hv, hx,
    hy, Option.map_some, Option.map₂_some_some, Option.some.injEq] at ha
  cases v with
  | false => simpa using ha.symm
  | true =>
      obtain rfl : x = y := by
        have hxy := h i t hv
        rw [hx, hy] at hxy
        exact Option.some.inj hxy
      rw [← ha, sub_self, zero_mul, clamp_eq, max_eq_right (by linarith), min_eq_right hc.le,
        zero_mul]

/-- Results that agree on the valid positions are neutral. -/
theorem SameOnValid.neutral {ε ε' : Type} {m : Tensor Bool} {clip : ℝ} (hc : 0 < clip)
    {teacher : Except ε (Tensor ℝ)} {student : Except ε' (Tensor ℝ)}
    (h : SameOnValid m teacher student) : NeutralOpd m clip teacher student := by
  refine ⟨h, ?_⟩
  rintro x y rfl rfl
  obtain ⟨hx, hy, hsame⟩ := h
  have hstored : (Tensor.map₂ (· * ·) x (asMask m)).shape = m.shape := by simp [hx]
  obtain ⟨metrics, hrun⟩ := OpdBatch.run_fst hc ⟨_, y, m, hstored, hy⟩
  refine ⟨_, _, metrics, if_neg (not_not_intro hx), hrun, fun i t a ha => ?_⟩
  refine OpdBatch.tokenAdvantages_eq_zero hc _ (fun i t hvalid => ?_) ha
  show (Tensor.map₂ (· * ·) x (asMask m)).get? i t = y.get? i t
  rw [← hsame i t hvalid, Tensor.get?_map₂, get?_asMask, hvalid]
  cases x.get? i t with
  | none => rfl
  | some v => simp

/-! ### Both sides on a rollout -/

section rollout
variable {s : PaddedBatch Tok}

/-- The direct builder joins the rollout's prompts and responses under its masks. -/
theorem buildDirectOpd_toSource [Zero Tok] (tokenizer : Tokenizer Tok) {maxPromptLength : ℕ}
    (hs : RolloutShaped s) (hne : s.responses.rows ≠ []) (hwidth : s.prompts.cols ≤ maxPromptLength) :
    ∃ build, buildDirectOpdTeacherScoreBatch s.toSource tokenizer maxPromptLength false =
        .ok build ∧ build.batch.prompts = s.prompts ∧ build.batch.responses = s.responses ∧
      build.batch.responseMask = s.responseMask ∧
      Joined (padId tokenizer) s.prefixMask build.batch := by
  have hattention : ¬ s.attentionMask.cols < s.prompts.cols := by
    have h := congrArg Prod.snd (s.shape_attentionMask.trans s.shape_inputIds)
    have h : s.attentionMask.cols = s.prompts.cols + s.responses.cols := h
    omega
  have hcols : s.prefixMask.cols ≠ 0 := by
    intro hzero
    have hi : 0 < s.prefixMask.rows.length := by
      have h1 : s.prefixMask.rows.length = s.prompts.rows.length :=
        congrArg Prod.fst s.shape_prefixMask
      rw [h1, s.shape_prompts]
      exact List.length_pos_of_ne_nil hne
    have hpos := (hs.prompt _ (List.getElem_mem hi)).count_pos
    have hlen := s.prefixMask.rect _ (List.getElem_mem hi)
    rw [hzero, List.length_eq_zero_iff] at hlen
    simp [hlen] at hpos
  have hguard := (assertLeftPaddedPrefixMask_eq_ok_iff hcols).mpr hs.prompt
  obtain ⟨batch, hbatch⟩ := scoreBatch?_isSome (padId tokenizer)
    s.shape_prefixMask.symm s.shape_responseMask.symm s.shape_prompts
  obtain ⟨hp, hr, hm, hj⟩ := scoreBatch?_eq_some hbatch
  refine ⟨⟨batch, ⟨0, promptTokensMean s.prefixMask, s.responseMask.count, none⟩, []⟩, ?_, hp, hr,
    hm, hj⟩
  simp only [buildDirectOpdTeacherScoreBatch, PaddedBatch.toSource, if_neg hattention]
  have hpre : s.attentionMask.takeCols s.prompts.cols = s.prefixMask := rfl
  rw [hpre, hguard]
  simp only [Except.mapError, bind, Except.bind, if_neg (Nat.not_lt.mpr hwidth), hbatch]
  rfl

/-- What the direct builder returns has the responses of its source. -/
theorem buildDirectOpd_responses [Zero Tok] {tokenizer : Tokenizer Tok} {maxPromptLength : ℕ}
    {build : PiTeacherBatchBuild Tok}
    (h : buildDirectOpdTeacherScoreBatch s.toSource tokenizer maxPromptLength false = .ok build) :
    build.batch.responses = s.responses := by
  simp only [buildDirectOpdTeacherScoreBatch, PaddedBatch.toSource] at h
  obtain ⟨-, h⟩ := guard_eq_ok_iff.mp h
  obtain ⟨-, h⟩ := guard_eq_ok_iff.mp h
  obtain ⟨_, -, h⟩ := bind_eq_ok_iff.mp h
  obtain ⟨-, h⟩ := guard_eq_ok_iff.mp h
  cases hb : scoreBatch? (padId tokenizer) s.prompts (s.attentionMask.takeCols s.prompts.cols)
      s.responses s.responseMask with
  | none => simp [hb] at h
  | some batch =>
      simp only [hb] at h
      obtain rfl := Except.ok.inj h
      exact (scoreBatch?_eq_some hb).2.1

variable [Fintype Tok] {maxPromptLength k : ℕ} {temperature : ℝ}

theorem directTeacherLogProbs_emptyBatch [Zero Tok] (lm : CausalLM Tok) (tokenizer : Tokenizer Tok)
    (scorerPadTokenId : Tok) (maxPromptLength : ℕ) (hk : 0 < k) (temperature : ℝ)
    (h : s.responses.rows = []) :
    ∃ e, directTeacherLogProbs lm tokenizer scorerPadTokenId maxPromptLength k temperature s =
      .error e := by
  cases hb : buildDirectOpdTeacherScoreBatch s.toSource tokenizer maxPromptLength false with
  | error e =>
      refine ⟨e, ?_⟩
      rw [directTeacherLogProbs, hb]
      rfl
  | ok build =>
      refine ⟨.emptyCat, ?_⟩
      rw [directTeacherLogProbs, hb]
      exact scoreDirectOpdInline_emptyBatch lm scorerPadTokenId hk temperature
        ((buildDirectOpd_responses hb).symm ▸ h)

/-- The teacher log-probs of a rollout score its rows. -/
theorem directTeacherLogProbs_eq_ok [Zero Tok] (lm : CausalLM Tok) (tokenizer : Tokenizer Tok)
    (scorerPadTokenId : Tok) (hs : RolloutShaped s) (hne : s.responses.rows ≠ [])
    (hwidth : s.prompts.cols ≤ maxPromptLength) (hk : 0 < k) (htemp : 0 < temperature) :
    ∃ x, directTeacherLogProbs lm tokenizer scorerPadTokenId maxPromptLength k temperature s =
        .ok x ∧
      ScoresRows lm temperature s.prefixMask s.prompts s.responseMask s.responses x := by
  obtain ⟨build, hbuild, hp, hr, hm, hj⟩ := buildDirectOpd_toSource tokenizer hs hne hwidth
  obtain ⟨x, hx, hscores⟩ := scoreDirectOpdInline_eq_ok lm scorerPadTokenId hk htemp
    (b := build.batch) (hr ▸ hne) (hj.prefixMask ▸ hs.prompt)
  rw [hj.prefixMask, hp, hr, hm] at hscores
  refine ⟨x, ?_, hscores⟩
  rw [directTeacherLogProbs, hbuild]
  exact hx

/-- The student's log-prob of a valid token: that of the token after all prompt and response
tokens before it. -/
theorem oldLogProbs_eq_ok (lm : CausalLM Tok) (temperature : ℝ) (hs : RolloutShaped s)
    (hne : s.responses.rows ≠ []) :
    ∃ y, computeLogProb (lm.logProb temperature) s = .ok y ∧ y.shape = s.responses.shape ∧
      ∀ i pm p rm r t v, s.prefixMask.rows[i]? = some pm → s.prompts.rows[i]? = some p →
        s.responseMask.rows[i]? = some rm → s.responses.rows[i]? = some r →
        rm[t]? = some true → r[t]? = some v →
        y.get? i t = some (lm.logProb temperature (select pm p ++ r.take t).zipIdx v) := by
  have hprompt : ∀ m ∈ (s.attentionMask.takeCols s.prompts.cols).rows, 0 < m.count true :=
    fun m hm => (hs.prompt m hm).count_pos
  obtain ⟨y, hy, hshape, hentry⟩ :=
    computeLogProb_entries (lm.logProb temperature) hne hs.positions hprompt
  refine ⟨y, hy, hshape, fun i pm p rm r t v hpm hp hrm hr hrmt hrt => ?_⟩
  -- the attention row splits at the prompt width
  have hi : i < s.attentionMask.rows.length := by
    have h := (List.getElem?_eq_some_iff.mp hpm).1
    rwa [PaddedBatch.prefixMask, Tensor.takeCols, List.length_map] at h
  obtain ⟨a, ha⟩ : ∃ a, s.attentionMask.rows[i]? = some a := ⟨_, List.getElem?_eq_getElem hi⟩
  have hpm' : a.take s.prompts.cols = pm := by
    rw [PaddedBatch.prefixMask, Tensor.getElem?_takeCols, ha] at hpm
    exact Option.some.inj hpm
  have hdrop : (s.attentionMask.dropCols s.prompts.cols).rows[i]? = some (a.drop s.prompts.cols) := by
    rw [Tensor.getElem?_dropCols, ha, Option.map_some]
  have hright : RightPadded (a.drop s.prompts.cols) := hs.response _ (List.mem_of_getElem? hdrop)
  have hattended : (a.drop s.prompts.cols)[t]? = some true := by
    have h := hs.responseMask i t (Tensor.get?_eq_some_iff.mpr ⟨rm, hrm, hrmt⟩)
    rwa [Tensor.get?, hdrop, Option.bind_some] at h
  have hrow : s.attentionMask.rows[i]? = some (pm ++ a.drop s.prompts.cols) := by
    rw [ha, ← hpm', List.take_append_drop]
  have hids : s.inputIds.rows[i]? = some (p ++ r) := by
    rw [hs.inputIds, Tensor.getElem?_catCols, hp, hr]
    rfl
  have hpmlen : pm.length = s.prompts.cols := by
    rw [Tensor.length_of_getElem? hpm]
    exact congrArg Prod.snd s.shape_prefixMask
  have ht : t < s.responses.cols := by
    rw [← Tensor.length_of_getElem? hr]
    exact (List.getElem?_eq_some_iff.mp hrt).1
  have hlen : (r.take t).length = t := by
    rw [List.length_take]
    have := (List.getElem?_eq_some_iff.mp hrt).1
    omega
  rw [hentry i pm _ p r t hrow hpmlen hids (Tensor.length_of_getElem? hp) ht,
    hright.getElem?_select r hattended, hrt, hright.take_select r hattended,
    hright.take_eq hattended, select_replicate_true, List.take_of_length_le hlen.le]
  rfl

end rollout

/-! ### Models that tell the two sides apart -/

section softmax
variable [Fintype Tok] {temperature : ℝ}

/-- A token whose logit is raised above the others becomes more likely. -/
theorem logSoftmax_zero_lt [DecidableEq Tok] [Nontrivial Tok] (htemp : 0 < temperature) (v : Tok) :
    logSoftmax temperature (fun _ => 0) v <
      logSoftmax temperature (fun u => if u = v then 1 else 0) v := by
  obtain ⟨w, hw⟩ := exists_ne v
  have hinv : 0 < 1 / temperature := one_div_pos.mpr htemp
  have hsum : ∑ u, Real.exp ((if u = v then (1 : ℝ) else 0) / temperature) <
      ∑ _u : Tok, Real.exp (1 / temperature) := by
    refine Finset.sum_lt_sum (fun u _ => ?_) ⟨w, Finset.mem_univ w, ?_⟩
    · by_cases hu : u = v
      · simp [hu]
      · simp only [if_neg hu, zero_div]
        exact Real.exp_le_exp.mpr hinv.le
    · simp only [if_neg hw, zero_div]
      exact Real.exp_lt_exp.mpr hinv
  have hpos : 0 < ∑ u, Real.exp ((if u = v then (1 : ℝ) else 0) / temperature) :=
    Finset.sum_pos (fun u _ => Real.exp_pos _) ⟨v, Finset.mem_univ v⟩
  have hlog := Real.log_lt_log hpos hsum
  have hcard : (0 : ℝ) < Fintype.card Tok := Nat.cast_pos.mpr Fintype.card_pos
  rw [Finset.sum_const, Finset.card_univ, nsmul_eq_mul,
    Real.log_mul hcard.ne' (Real.exp_pos _).ne', Real.log_exp] at hlog
  simp only [logSoftmax, if_true, zero_div, Real.exp_zero, Finset.sum_const, Finset.card_univ,
    nsmul_eq_mul, mul_one]
  linarith

/-- With one token every log-prob is zero. -/
theorem logSoftmax_subsingleton [Subsingleton Tok] (z : Tok → ℝ) (v : Tok) :
    logSoftmax temperature z v = 0 := by
  have huniv : (Finset.univ : Finset Tok) = {v} :=
    Finset.eq_singleton_iff_unique_mem.mpr ⟨Finset.mem_univ v, fun u _ => Subsingleton.elim u v⟩
  rw [logSoftmax, huniv, Finset.sum_singleton, Real.log_exp, sub_self]

end softmax

/-- The model that raises the logit of `v` after exactly `len` entries, and no other. -/
noncomputable def lengthProbe [DecidableEq Tok] (len : ℕ) (v : Tok) : CausalLM Tok :=
  CausalLM.ofLogits (fun ctx u => if ctx.length = len ∧ u = v then 1 else 0) fun _ => 0

section neutral
variable [Fintype Tok] [Zero Tok] {s : PaddedBatch Tok} {maxPromptLength k : ℕ}
  {temperature clip : ℝ}

/-- Behind a masked response token the probe for the student's number of entries shows that the
teacher sees fewer of them. -/
theorem not_sameOnValid_lengthProbe [DecidableEq Tok] [Nontrivial Tok] (tokenizer : Tokenizer Tok)
    (scorerPadTokenId : Tok) (hs : RolloutShaped s) (hwidth : s.prompts.cols ≤ maxPromptLength)
    (hk : 0 < k) (htemp : 0 < temperature) {i t : ℕ} {pm rm : List Bool} {p r : List Tok} {v : Tok}
    (hpm : s.prefixMask.rows[i]? = some pm) (hp : s.prompts.rows[i]? = some p)
    (hrm : s.responseMask.rows[i]? = some rm) (hr : s.responses.rows[i]? = some r)
    (hrmt : rm[t]? = some true) (hrt : r[t]? = some v) (hhole : (rm.take t).count true ≠ t) :
    ¬ SameOnValid s.responseMask
      (directTeacherLogProbs (lengthProbe (pm.count true + t) v) tokenizer scorerPadTokenId
        maxPromptLength k temperature s)
      (computeLogProb ((lengthProbe (pm.count true + t) v).logProb temperature) s) := by
  have hne : s.responses.rows ≠ [] := by
    intro h
    rw [h] at hr
    cases hr
  obtain ⟨x, hx, hscores⟩ := directTeacherLogProbs_eq_ok (lengthProbe (pm.count true + t) v)
    tokenizer scorerPadTokenId hs hne hwidth hk htemp
  obtain ⟨y, hy, -, hold⟩ := oldLogProbs_eq_ok (lengthProbe (pm.count true + t) v) temperature
    hs hne
  rw [hx, hy]
  rintro ⟨-, -, hsame⟩
  have hplen : pm.length = p.length :=
    Tensor.length_eq_of_shape s.shape_prefixMask hpm hp
  have hrlen : rm.length = r.length :=
    Tensor.length_eq_of_shape s.shape_responseMask hrm hr
  have hentry := hsame i t (Tensor.get?_eq_some_iff.mpr ⟨rm, hrm, hrmt⟩)
  obtain ⟨z, hz, hfrom⟩ := hscores.entry i pm p rm r t v hpm hp hrm hr hrt
  -- the teacher's logits are flat
  have hflat : z = fun _ => 0 := by
    rcases hfrom with ⟨-, rfl⟩ | ⟨-, hmasked⟩
    · funext u
      have hlen : ((select pm p ++ select (rm.take t) (r.take t)).zipIdx).length ≠
          pm.count true + t := by
        rw [List.length_zipIdx, List.length_append, length_select hplen,
          length_select (by simp [hrlen])]
        omega
      exact if_neg fun h => hlen h.1
    · exact hmasked.ofLogits
  -- the student's are not
  have hraised : (lengthProbe (pm.count true + t) v).logits (select pm p ++ r.take t).zipIdx =
      fun u => if u = v then 1 else 0 := by
    funext u
    have hlen : ((select pm p ++ r.take t).zipIdx).length = pm.count true + t := by
      have ht := (List.getElem?_eq_some_iff.mp hrt).1
      rw [List.length_zipIdx, List.length_append, length_select hplen, List.length_take]
      omega
    show (if _ ∧ u = v then (1 : ℝ) else 0) = _
    simp only [hlen, true_and]
  rw [hz, hold i pm p rm r t v hpm hp hrm hr hrmt hrt, hflat, CausalLM.logProb, hraised] at hentry
  exact (logSoftmax_zero_lt htemp v).ne (Option.some.inj hentry)

/-- **A teacher equal to the student.**  On a rollout the direct teacher's log-probs agree with
the student's at every valid position and the advantages vanish, for every model, exactly when
every response mask row is right padded (or there is one token only). -/
theorem directOpd_neutral_iff (tokenizer : Tokenizer Tok) (scorerPadTokenId : Tok)
    (hs : RolloutShaped s) (hwidth : s.prompts.cols ≤ maxPromptLength) (hk : 0 < k)
    (htemp : 0 < temperature) (hclip : 0 < clip) :
    (∀ lm : CausalLM Tok, NeutralOpd s.responseMask clip
        (directTeacherLogProbs lm tokenizer scorerPadTokenId maxPromptLength k temperature s)
        (computeLogProb (lm.logProb temperature) s)) ↔
      Subsingleton Tok ∨ ∀ m ∈ s.responseMask.rows, RightPadded m := by
  classical
  constructor
  · intro h
    rcases subsingleton_or_nontrivial Tok with hsub | hnon
    · exact .inl hsub
    · refine .inr fun rm hrm => (rightPadded_iff_count rm).mpr fun t hrmt => ?_
      by_contra hhole
      obtain ⟨i, hi⟩ := List.mem_iff_getElem?.mp hrm
      obtain ⟨pm, p, rm', r, v, hpm, hp, hrm', hr, -, hrt, -⟩ :=
        s.rows_of_valid (Tensor.get?_eq_some_iff.mpr ⟨rm, hi, hrmt⟩)
      exact not_sameOnValid_lengthProbe tokenizer scorerPadTokenId hs hwidth hk htemp hpm hp hi hr
        hrmt hrt hhole (h _).1
  · intro h lm
    refine SameOnValid.neutral hclip ?_
    by_cases hne : s.responses.rows = []
    · obtain ⟨e, he⟩ := directTeacherLogProbs_emptyBatch lm tokenizer scorerPadTokenId
        maxPromptLength hk temperature hne
      rw [he, computeLogProb_emptyBatch _ s hne]
      have hrows : s.responseMask.rows.length = s.responses.rows.length :=
        congrArg Prod.fst s.shape_responseMask
      exact List.length_eq_zero_iff.mp (by rw [hrows, hne]; rfl)
    · obtain ⟨x, hx, hscores⟩ := directTeacherLogProbs_eq_ok lm tokenizer scorerPadTokenId hs hne
        hwidth hk htemp
      obtain ⟨y, hy, hyshape, hold⟩ := oldLogProbs_eq_ok lm temperature hs hne
      rw [hx, hy]
      refine ⟨hscores.shape.trans s.shape_responseMask.symm,
        hyshape.trans s.shape_responseMask.symm, fun i t hvalid => ?_⟩
      obtain ⟨pm, p, rm, r, v, hpm, hp, hrm, hr, hrmt, hrt, -⟩ := s.rows_of_valid hvalid
      obtain ⟨z, hz, hfrom⟩ := hscores.entry i pm p rm r t v hpm hp hrm hr hrt
      rw [hz, hold i pm p rm r t v hpm hp hrm hr hrmt hrt]
      rcases h with hsub | hright
      · rw [CausalLM.logProb, logSoftmax_subsingleton, logSoftmax_subsingleton]
      · have hpad := hright rm (List.mem_of_getElem? hrm)
        have hplen : p.length = pm.length :=
          Tensor.length_eq_of_shape s.shape_prefixMask.symm hp hpm
        have htake : (r.take t).length ≤ t := List.length_take_le t r
        have hctx := hfrom.of_rightPadded hplen (hs.prompt pm (List.mem_of_getElem? hpm)) hpad hrmt
        rw [hpad.take_eq hrmt, select_replicate_true, List.take_of_length_le htake] at hctx
        rw [hctx]
        rfl

end neutral

/-! ### One row of three response tokens -/

/-- A rollout of one row: one prompt token, then three attended response tokens under a mask. -/
def threeResponseTokens (mask : List Bool) (h : mask.length = 3) : PaddedBatch (Fin 2) where
  prompts := ⟨1, [[1]], by simp⟩
  responses := ⟨3, [[0, 1, 0]], by simp⟩
  inputIds := ⟨4, [[1, 0, 1, 0]], by simp⟩
  attentionMask := ⟨4, [[true, true, true, true]], by simp⟩
  positionIds := ⟨4, [[0, 1, 2, 3]], by simp⟩
  responseMask := ⟨3, [mask], by simpa using h⟩
  shape_prompts := rfl
  shape_responseMask := rfl
  shape_inputIds := rfl
  shape_attentionMask := rfl
  shape_positionIds := rfl

theorem rolloutShaped_threeResponseTokens (mask : List Bool) (h : mask.length = 3) :
    RolloutShaped (threeResponseTokens mask h) where
  inputIds := rfl
  prompt := by
    intro m hm
    obtain rfl := List.mem_singleton.mp hm
    exact ⟨0, 1, Nat.one_pos, rfl⟩
  response := by
    intro m hm
    obtain rfl := List.mem_singleton.mp hm
    exact ⟨3, 0, rfl⟩
  positions := rfl
  responseMask := by
    intro i t hvalid
    have hshape : (threeResponseTokens mask h).responseMask.shape =
      ((threeResponseTokens mask h).attentionMask.dropCols
        (threeResponseTokens mask h).prompts.cols).shape := rfl
    obtain ⟨x, hx⟩ := Tensor.exists_get?_of_shape hshape hvalid
    obtain ⟨r, hr, hrt⟩ := Tensor.get?_eq_some_iff.mp hx
    obtain rfl := List.mem_singleton.mp (List.mem_of_getElem? hr)
    rw [hx]
    exact congrArg some (List.eq_of_mem_replicate (n := 3) (List.mem_of_getElem? hrt))

/-- The direct builder reads nothing of the tokenizer but the padding token. -/
def paddingOnly : Tokenizer (Fin 2) where
  applyChatTemplate := fun _ _ => none
  encode := fun prompts => prompts.map fun _ => []
  truncationLeft := true
  padTokenId := some 0
  eosTokenId := none

/-- The last of three attended response tokens is masked. -/
theorem directOpd_neutral_masked_end :
    NeutralOpd (threeResponseTokens [true, true, false] rfl).responseMask 1
      (directTeacherLogProbs (lengthProbe 2 1) paddingOnly 0 1 1 1
        (threeResponseTokens [true, true, false] rfl))
      (computeLogProb ((lengthProbe 2 1).logProb 1)
        (threeResponseTokens [true, true, false] rfl)) := by
  refine (directOpd_neutral_iff paddingOnly 0
    (rolloutShaped_threeResponseTokens [true, true, false] rfl) le_rfl Nat.one_pos one_pos
    one_pos).mpr (.inr fun m hm => ?_) _
  obtain rfl := List.mem_singleton.mp hm
  exact ⟨2, 1, rfl⟩

/-- **A spurious difference behind a masked token.**  The middle of three attended response
tokens is masked; the student's log-prob of the last one is not the teacher's. -/
theorem masked_tool_token :
    RolloutShaped (threeResponseTokens [true, false, true] rfl) ∧
      ¬ NeutralOpd (threeResponseTokens [true, false, true] rfl).responseMask 1
        (directTeacherLogProbs (lengthProbe 3 0) paddingOnly 0 1 1 1
          (threeResponseTokens [true, false, true] rfl))
        (computeLogProb ((lengthProbe 3 0).logProb 1)
          (threeResponseTokens [true, false, true] rfl)) := by
  have hs := rolloutShaped_threeResponseTokens [true, false, true] rfl
  have hpm : (threeResponseTokens [true, false, true] rfl).prefixMask.rows[0]? = some [true] := rfl
  refine ⟨hs, fun h => ?_⟩
  exact not_sameOnValid_lengthProbe (t := 2) (v := 0) paddingOnly 0 hs le_rfl Nat.one_pos one_pos
    hpm rfl rfl rfl rfl rfl (by decide) h.1

end ExtpiRlsd
