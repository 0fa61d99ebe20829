import ExtpiRlsd.PromptAssembly
import ExtpiRlsd.RecipientUplift

/-! # The order of the completions

`generate_recipient_completions.py` writes the samples of a run seed by seed with the vLLM
backend and problem by problem with the HF backend.  `compute_recipient_uplift.py` groups what it
reads by problem and counts, so the order does not reach its output (`upliftRun_perm`), and the
files of the two backends are reorderings of each other (`generateHf_perm`).

The engines are parameters: what a call returns may depend on its place among the calls. -/

namespace ExtpiRlsd

open PyText PyData Checked

/-! ### The generator -/

/-- What a backend returns for one prompt and one seed. -/
structure LlmCandidate where
  text : PyStr
  finishReason : Option PyStr
  tokenCount : ℕ

/-- The arguments of `generate_recipient_completions.py` that shape its rows. -/
structure GenerateArgs where
  mode : PyStr
  piTraceField : PyStr
  enableThinking : Bool
  maxNewTokens : ℤ

section generator
variable {Tok : Type} [DecidableEq Tok] (v : Verifier) (tokenizer : Tokenizer Tok)
  (args : GenerateArgs)

/-- `build_messages`: the text of the one user message. -/
def buildMessages (row : Row) : Except PyError PyStr := do
  let problem ← row.getItem "problem".toList
  if args.mode = "plain".toList then
    return studentUserTemplate (problem.toStr v.printer)
  else if args.mode = "pi".toList then
    let trace := row.get args.piTraceField
    if trace.truthy then
      return piTeacherUserTemplate (problem.toStr v.printer) (trace.toStr v.printer)
    else .error .valueError
  else .error .valueError

/-- `build_prompts`. -/
def buildPrompts (rows : List Row) : Except PyError (List PyStr) :=
  rows.mapM fun row => do
    let content ← buildMessages v args row
    match renderChat tokenizer content args.enableThinking with
    | some prompt => .ok prompt
    | none => .error .typeError

/-- `_record`. -/
def completionRecord (row : Row) (seed : ℤ) (candidate : LlmCandidate) : Except PyError Row := do
  let boxed := extractBoxedAnswer candidate.text
  let id ← row.getItem idField
  let gold ← row.getItem "gold_answer".toList
  return [
    (idField, id),
    ("mode".toList, .str args.mode),
    ("seed".toList, .int seed),
    ("completion".toList, .str candidate.text),
    ("boxed_answer".toList, boxed.elim .null .str),
    ("verified".toList, .bool (v.verifyAnswer boxed gold)),
    ("finish_reason".toList, candidate.finishReason.elim .null .str),
    ("token_count".toList, .int candidate.tokenCount),
    ("truncated".toList, .bool (candidate.finishReason == some "length".toList))]

/-- A loop over `zip(xs, ys, strict=True)`. -/
def forZipStrict {α β γ : Type} (f : α → β → Except PyError γ) :
    List α → List β → Except PyError (List γ)
  | [], [] => .ok []
  | x :: xs, y :: ys => do
      let z ← f x y
      let zs ← forZipStrict f xs ys
      return z :: zs
  | _, _ => .error .valueError

/-- `llm.generate` of vLLM, by the number of the call, its seed and the prompts. -/
abbrev LlmGenerate := ℕ → ℤ → List PyStr → List LlmCandidate

/-- `_generate_vllm`: seed by seed. -/
def generateVllm (llmGenerate : LlmGenerate) (rows : List Row) (seeds : List ℤ) :
    Except PyError (List Row) := do
  let prompts ← buildPrompts v tokenizer args rows
  let batches ← seeds.zipIdx.mapM fun (seed, call) =>
    forZipStrict (fun row candidate => completionRecord v args row seed candidate) rows
      (llmGenerate call seed prompts)
  return batches.flatten

/-- What `_generate_hf` uses of the model and its tokenizer: the tokens behind the prompt, by the
numbers of the row and of the seed, and their text. -/
structure HfModel (Tok : Type) where
  generate : ℕ → ℕ → PyStr → ℤ → List Tok
  decode : List Tok → PyStr

/-- The candidate behind the new tokens. -/
def hfCandidate (model : HfModel Tok) (tokenIds : List Tok) : LlmCandidate :=
  let reachedLimit := decide (args.maxNewTokens ≤ tokenIds.length)
  let sawEos := tokenizer.eosTokenId.any tokenIds.contains
  { text := model.decode tokenIds
    finishReason := some (if reachedLimit && !sawEos then "length".toList else "stop".toList)
    tokenCount := tokenIds.length }

/-- `_generate_hf`: row by row. -/
def generateHf (model : HfModel Tok) (rows : List Row) (seeds : List ℤ) :
    Except PyError (List Row) := do
  let prompts ← buildPrompts v tokenizer args rows
  let batches ← forZipStrict (fun row (prompt, i) =>
    seeds.zipIdx.mapM fun (seed, call) =>
      completionRecord v args row seed
        (hfCandidate tokenizer args model (model.generate i call prompt seed))) rows prompts.zipIdx
  return batches.flatten

/-- Both backends draw the same sample for every prompt and seed. -/
def SameSamples (llmGenerate : LlmGenerate) (model : HfModel Tok) (rows : List Row)
    (seeds : List ℤ) : Prop :=
  ∀ prompts, buildPrompts v tokenizer args rows = .ok prompts → ∀ run ∈ seeds.zipIdx,
    llmGenerate run.2 run.1 prompts = prompts.zipIdx.map fun (prompt, i) =>
      hfCandidate tokenizer args model (model.generate i run.2 prompt run.1)

theorem forZipStrict_eq {α β γ : Type} {f : α → β → Except PyError γ} {xs : List α} {ys : List β}
    (h : xs.length = ys.length) :
    forZipStrict f xs ys = (xs.zip ys).mapM fun p => f p.1 p.2 := by
  induction xs generalizing ys with
  | nil =>
      rw [List.length_eq_zero_iff.mp h.symm]
      rfl
  | cons x xs ih =>
      cases ys with
      | nil => cases h
      | cons y ys =>
          rw [List.zip_cons_cons, List.mapM_cons, forZipStrict, ih (Nat.succ.inj h)]

/-- **The two backends write the same records** of the same samples, each in its own order. -/
theorem generateHf_perm {llmGenerate : LlmGenerate} {model : HfModel Tok} {rows : List Row}
    {seeds : List ℤ} {records : List Row}
    (hsame : SameSamples v tokenizer args llmGenerate model rows seeds)
    (h : generateVllm v tokenizer args llmGenerate rows seeds = .ok records) :
    ∃ records', generateHf v tokenizer args model rows seeds = .ok records' ∧
      records.Perm records' := by
  obtain ⟨prompts, hprompts, h⟩ := bind_eq_ok_iff.mp h
  obtain ⟨batches, hbatches, h⟩ := bind_eq_ok_iff.mp h
  have hlength : rows.length = prompts.zipIdx.length := by
    rw [List.length_zipIdx, (mapM_eq_ok_iff.mp hprompts).length_eq]
  -- the record of a run and a job, a row with its prompt and the place of both
  let entry (run : ℤ × ℕ) (job : Row × PyStr × ℕ) : Except PyError Row :=
    completionRecord v args job.1 run.1
      (hfCandidate tokenizer args model (model.generate job.2.2 run.2 job.2.1 run.1))
  have hruns : (seeds.zipIdx.mapM fun run => (rows.zip prompts.zipIdx).mapM (entry run)) =
      .ok batches := by
    rw [← hbatches]
    apply mapM_congr
    intro run hrun
    dsimp only
    rw [hsame prompts hprompts run hrun, forZipStrict_eq (by rwa [List.length_map]),
      List.zip_map_right, List.mapM_map]
    rfl
  obtain ⟨columns, hcolumns, hperm⟩ := mapM_columns_perm hruns
  refine ⟨columns.flatten, ?_, ?_⟩
  · unfold generateHf
    rw [hprompts]
    refine bind_eq_ok_iff.mpr ⟨prompts, rfl, bind_eq_ok_iff.mpr ⟨columns, ?_, rfl⟩⟩
    rw [forZipStrict_eq hlength]
    exact hcolumns
  · rw [← Except.ok.inj h]
    exact hperm

end generator

/-! ### The statistics -/

/-- `--expected_samples` and `--pi_trace_field`. -/
structure UpliftRun where
  expectedSamples : ℤ
  piTraceField : PyStr

inductive UpliftError where
  | raised (e : PyError)
  | zeroDivision

theorem one_le_toNat {n : ℤ} (h : 1 ≤ n) : 1 ≤ n.toNat := by omega

section statistics
variable (env : UpliftEnv) (run : UpliftRun)

/-- One round of the loop when less than one sample is expected: a row without completions
divides by zero, or is left incomplete like every other row. -/
def idleStep (plain pi : List (PyStr × Row)) (out : UpliftOutput) (row : Row) :
    Except UpliftError UpliftOutput := do
  let (_, samples) ← (rowSamples env plain pi row).mapError .raised
  let stats := { out.stats with
    rows := out.stats.rows + 1
    withPlain := out.stats.withPlain + (!samples.plain.isEmpty).toNat
    withPi := out.stats.withPi + (!samples.pi.isEmpty).toNat }
  if (samples.plain.length : ℤ) ≠ run.expectedSamples ∨
      (samples.pi.length : ℤ) ≠ run.expectedSamples then
    let newRow ← ((row.setDefault metadataKey (.obj [])).setInner metadataKey
      "recipient_uplift_incomplete".toList (.obj [
        ("plain_samples".toList, .int samples.plain.length),
        ("pi_samples".toList, .int samples.pi.length),
        ("expected_samples".toList, .int run.expectedSamples)])).mapError .raised
    return { outputRows := out.outputRows ++ [newRow], stats }
  else .error .zeroDivision

/-- `main` for every number of expected samples. -/
def upliftRun (baseRows plainRows piRows : List Row) : Except UpliftError UpliftOutput :=
  if h : 1 ≤ run.expectedSamples then
    (computeRecipientUplift env ⟨run.expectedSamples.toNat, one_le_toNat h, run.piTraceField⟩
      baseRows plainRows piRows).mapError .raised
  else do
    let plain ← (groupCompletions env.verifier plainRows).mapError .raised
    let pi ← (groupCompletions env.verifier piRows).mapError .raised
    baseRows.foldlM (idleStep env run plain pi) ⟨[], ⟨0, 0, 0, 0, 0, 0⟩⟩

end statistics

/-! ### Reordered completions -/

section order
variable {env : UpliftEnv} {v : Verifier} {args : UpliftArgs} {plain plain' pi pi' : List (PyStr × Row)}

theorem sampleId_error {row : Row} {e : PyError} (h : sampleId v row = .error e) :
    e = .valueError := by
  unfold sampleId at h
  split at h
  · cases h
  · split at h
    · split at h
      · cases h
      · exact (Except.error.inj h).symm
    · exact (Except.error.inj h).symm

theorem completionText_error {row : Row} {e : PyError} (h : completionText v row = .error e) :
    e = .valueError := by
  unfold completionText at h
  split at h
  · cases h
  · exact (Except.error.inj h).symm

theorem groupCompletions_perm {rows rows' : List Row} (h : rows.Perm rows') :
    Related List.Perm (groupCompletions v rows) (groupCompletions v rows') := by
  apply mapM_perm (e := .valueError) _ h
  intro row e he
  cases hid : sampleId v row with
  | error e' =>
      rw [hid] at he
      rw [← Except.error.inj he]
      exact sampleId_error hid
  | ok id =>
      rw [hid] at he
      cases he

theorem samplesOf_perm (id : PyStr) (h : plain.Perm plain') :
    (samplesOf id plain).Perm (samplesOf id plain') :=
  (h.filter _).map _

theorem correctCount_cons (gold : PyStr) (sample : Row) (samples : List Row) :
    correctCount v gold (sample :: samples) = (completionText v sample).bind fun text =>
      (correctCount v gold samples).bind fun rest => .ok
        ⟨(v.verifyAnswer (extractBoxedAnswer text) (.str gold)).toNat + rest.correct,
          (isTruncatedCompletion v sample).toNat + rest.truncated⟩ := rfl

theorem correctCount_perm (gold : PyStr) {samples samples' : List Row}
    (h : samples.Perm samples') : correctCount v gold samples = correctCount v gold samples' := by
  induction h with
  | nil => rfl
  | cons sample _ ih => rw [correctCount_cons, correctCount_cons, ih]
  | swap a b samples =>
      simp only [correctCount_cons]
      cases ha : completionText v a with
      | error e => cases hb : completionText v b with
        | error e' => rw [completionText_error ha, completionText_error hb]; rfl
        | ok _ => rfl
      | ok _ => cases completionText v b with
        | error _ => rfl
        | ok _ => cases correctCount v gold samples with
          | error _ => rfl
          | ok rest =>
              simp only [Except.bind, Except.ok.injEq, CorrectCount.mk.injEq]
              omega
  | trans _ _ ih₁ ih₂ => exact ih₁.trans ih₂

/-- The same completions of a row, in any order. -/
structure RowSamples.Reordered (samples samples' : RowSamples) : Prop where
  plain : samples.plain.Perm samples'.plain
  pi : samples.pi.Perm samples'.pi

section reordered
variable {samples samples' : RowSamples} (h : samples.Reordered samples')
include h

theorem incomplete_reordered (args : UpliftArgs) :
    samples.incomplete args = samples'.incomplete args := by
  unfold RowSamples.incomplete
  rw [h.plain.length_eq, h.pi.length_eq]

theorem markIncomplete_reordered (args : UpliftArgs) (row : Row) :
    markIncomplete args samples row = markIncomplete args samples' row := by
  unfold markIncomplete
  rw [h.plain.length_eq, h.pi.length_eq]

theorem freshRates_reordered (env : UpliftEnv) (args : UpliftArgs) (gold : PyStr) :
    freshRates env args gold samples = freshRates env args gold samples' := by
  unfold freshRates
  rw [correctCount_perm gold h.plain, correctCount_perm gold h.pi]

end reordered

theorem rowSamples_perm (hplain : plain.Perm plain') (hpi : pi.Perm pi') (row : Row) :
    Related (fun a b => a.1 = b.1 ∧ a.2.Reordered b.2) (rowSamples env plain pi row)
      (rowSamples env plain' pi' row) := by
  unfold rowSamples
  apply (Related.refl (R := Eq) (fun _ => rfl) _).bind
  rintro id _ rfl
  apply (Related.refl (R := Eq) (fun _ => rfl) _).bind
  rintro gold _ rfl
  exact .ok ⟨rfl, samplesOf_perm _ hplain, samplesOf_perm _ hpi⟩

/-- One round does not see the order of the completions. -/
theorem upliftStep_perm (hplain : plain.Perm plain') (hpi : pi.Perm pi') :
    upliftStep env args plain pi = upliftStep env args plain' pi' := by
  funext out row
  apply Related.eq_of_eq
  apply (rowSamples_perm hplain hpi row).bind
  rintro ⟨gold, samples⟩ ⟨-, samples'⟩ ⟨rfl, h⟩
  dsimp only
  rw [incomplete_reordered h, markIncomplete_reordered h, freshRates_reordered h,
    h.plain.isEmpty_eq, h.pi.isEmpty_eq]
  exact .refl (fun _ => rfl) _

theorem mapError_related {α : Type} {R : α → α → Prop} {x y : Except PyError α}
    (h : Related R x y) :
    Related R (x.mapError UpliftError.raised) (y.mapError UpliftError.raised) := by
  cases h with
  | ok hab => exact .ok hab
  | error e => exact .error _

theorem idleStep_perm {run : UpliftRun} (hplain : plain.Perm plain') (hpi : pi.Perm pi') :
    idleStep env run plain pi = idleStep env run plain' pi' := by
  funext out row
  apply Related.eq_of_eq
  apply (mapError_related (rowSamples_perm hplain hpi row)).bind
  rintro ⟨gold, samples⟩ ⟨-, samples'⟩ ⟨rfl, h⟩
  dsimp only
  rw [h.plain.length_eq, h.pi.length_eq, h.plain.isEmpty_eq, h.pi.isEmpty_eq]
  exact .refl (fun _ => rfl) _

/-- The output is the same for reordered completions, and so is an error. -/
theorem upliftRun_perm (env : UpliftEnv) (run : UpliftRun) (baseRows : List Row)
    {plainRows plainRows' piRows piRows' : List Row} (hplain : plainRows.Perm plainRows')
    (hpi : piRows.Perm piRows') :
    upliftRun env run baseRows plainRows piRows = upliftRun env run baseRows plainRows' piRows' := by
  unfold upliftRun
  split
  · congr 1
    apply Related.eq_of_eq
    apply (groupCompletions_perm hplain).bind
    intro plain plain' hplain
    apply (groupCompletions_perm hpi).bind
    intro pi pi' hpi
    rw [upliftStep_perm hplain hpi]
    exact .refl (fun _ => rfl) _
  · apply Related.eq_of_eq
    apply (mapError_related (groupCompletions_perm hplain)).bind
    intro plain plain' hplain
    apply (mapError_related (groupCompletions_perm hpi)).bind
    intro pi pi' hpi
    rw [idleStep_perm hplain hpi]
    exact .refl (fun _ => rfl) _

end order

/-- One run of the generator, with the engines of both backends. -/
structure GeneratorRun (Tok : Type) where
  tokenizer : Tokenizer Tok
  args : GenerateArgs
  llmGenerate : LlmGenerate
  model : HfModel Tok
  rows : List Row
  seeds : List ℤ

namespace GeneratorRun
variable {Tok : Type} [DecidableEq Tok] (gen : GeneratorRun Tok) (v : Verifier)

/-- What the run writes with `--backend vllm`. -/
def vllm : Except PyError (List Row) :=
  generateVllm v gen.tokenizer gen.args gen.llmGenerate gen.rows gen.seeds

/-- What the run writes with `--backend hf`. -/
def hf : Except PyError (List Row) :=
  generateHf v gen.tokenizer gen.args gen.model gen.rows gen.seeds

def Same : Prop := SameSamples v gen.tokenizer gen.args gen.llmGenerate gen.model gen.rows gen.seeds

end GeneratorRun

/-- **Uplift does not depend on the order of the completions**: reordered files give the same
rows and the same counts, or the same error, and the same samples written by either backend do,
however the reader decodes a record. -/
theorem uplift_order_independent (env : UpliftEnv) (run : UpliftRun) (baseRows : List Row) :
    (∀ plainRows plainRows' piRows piRows' : List Row, plainRows.Perm plainRows' →
      piRows.Perm piRows' → upliftRun env run baseRows plainRows piRows =
        upliftRun env run baseRows plainRows' piRows') ∧
    ∀ (Tok : Type) [DecidableEq Tok] (v : Verifier) (plain pi : GeneratorRun Tok)
      (plainRows piRows : List Row) (read : Row → Row), plain.Same v → pi.Same v →
      plain.vllm v = .ok plainRows → pi.vllm v = .ok piRows →
      ∃ plainRows' piRows', plain.hf v = .ok plainRows' ∧ pi.hf v = .ok piRows' ∧
        upliftRun env run baseRows (plainRows.map read) (piRows.map read) =
          upliftRun env run baseRows (plainRows'.map read) (piRows'.map read) := by
  constructor
  · intro plainRows plainRows' piRows piRows' hplain hpi
    exact upliftRun_perm env run baseRows hplain hpi
  · intro Tok _ v plain pi plainRows piRows read hplainSame hpiSame hplain hpi
    obtain ⟨plainRows', hplain', hplainPerm⟩ :=
      generateHf_perm v plain.tokenizer plain.args hplainSame hplain
    obtain ⟨piRows', hpi', hpiPerm⟩ := generateHf_perm v pi.tokenizer pi.args hpiSame hpi
    exact ⟨plainRows', piRows', hplain', hpi',
      upliftRun_perm env run baseRows (hplainPerm.map read) (hpiPerm.map read)⟩

/-- Two problems with a trace. -/
def sampledRows : List Row :=
  ["a", "b"].map fun id => [(idField, .str id.toList), ("problem".toList, .str "2 + 2".toList),
    ("gold_answer".toList, .str "4".toList), ("pi_trace".toList, .str "add".toList),
    ("pi_verified".toList, .bool true)]

/-- A model that is right with every odd seed. -/
def oddModel : HfModel ℤ where
  generate _ _ _ seed := [seed % 2]
  decode ids := if ids = [1] then "\\boxed\x7b4\x7d".toList else "\\boxed\x7b5\x7d".toList

def sampleRun (mode : PyStr) : GeneratorRun ℤ :=
  let tokenizer : Tokenizer ℤ := ⟨fun s _ => some s, fun _ => [], true, none, none⟩
  let args : GenerateArgs := ⟨mode, "pi_trace".toList, false, 8⟩
  { tokenizer, args
    llmGenerate := fun call seed prompts => prompts.zipIdx.map fun (prompt, i) =>
      hfCandidate tokenizer args oddModel (oddModel.generate i call prompt seed)
    model := oddModel
    rows := sampledRows
    seeds := [0, 1] }

theorem sampleRun_same (mode : PyStr) : (sampleRun mode).Same plainEnv.verifier :=
  fun _ _ _ _ => rfl

/-- Two problems, two seeds: the files of the backends, and of a reversed file. -/
theorem uplift_order_independent_two_seeds :
    ∃ plainRows piRows plainRows' piRows' : List Row,
      (sampleRun "plain".toList).vllm plainEnv.verifier = .ok plainRows ∧
      (sampleRun "pi".toList).vllm plainEnv.verifier = .ok piRows ∧
      (sampleRun "plain".toList).hf plainEnv.verifier = .ok plainRows' ∧
      (sampleRun "pi".toList).hf plainEnv.verifier = .ok piRows' ∧
      upliftRun plainEnv ⟨2, "pi_trace".toList⟩ sampledRows (plainRows.map id) (piRows.map id) =
        upliftRun plainEnv ⟨2, "pi_trace".toList⟩ sampledRows (plainRows'.map id)
          (piRows'.map id) ∧
      upliftRun plainEnv ⟨2, "pi_trace".toList⟩ sampledRows plainRows piRows =
        upliftRun plainEnv ⟨2, "pi_trace".toList⟩ sampledRows plainRows.reverse piRows := by
  obtain ⟨horder, hbackends⟩ :=
    uplift_order_independent plainEnv ⟨2, "pi_trace".toList⟩ sampledRows
  obtain ⟨plainRows', piRows', hplain, hpi, heq⟩ := hbackends ℤ plainEnv.verifier
    (sampleRun "plain".toList) (sampleRun "pi".toList) _ _ id (sampleRun_same _)
    (sampleRun_same _) rfl rfl
  exact ⟨_, _, plainRows', piRows', rfl, rfl, hplain, hpi, heq,
    horder _ _ _ _ (List.reverse_perm _).symm (.refl _)⟩

end ExtpiRlsd
