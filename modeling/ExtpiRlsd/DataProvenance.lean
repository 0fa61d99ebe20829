import ExtpiRlsd.Decontamination
import ExtpiRlsd.Frontier
import ExtpiRlsd.RecipientUplift
import ExtpiRlsd.TeacherTraces

/-! # Where a row of the data comes from

The tools read a file of rows and write another one, and a run of the pipeline is a chain of them
(`ToolStep`).  A row descends from a clean row when it has its id, problem and gold answer, and when
every text that it calls verified is verified against that answer (`Descends`).

A file is sound when its rows descend from clean rows, no two from rows with one id.  The clean
file is sound and every tool keeps a file so (`soundFile_step`): the three generators, the recipient
statistics, and the two tools that split a file. -/

namespace ExtpiRlsd

open PyText PyData

/-! ### The common split -/

structure SplitArgs where
  trainSize : ℕ
  devSize : ℕ
  piTraceField : PyStr
  shuffleRows : ∀ n, Equiv.Perm (Fin n)

/-- The test on a row of `build_common_verified_split.py`. -/
def inCommonSplit (piTraceField : PyStr) (row : Row) : Bool :=
  (row.getD (verifiedField piTraceField) (.bool false)).truthy && hasTrace piTraceField row

structure CommonSplit where
  train : List Row
  dev : List Row

/-- `main` of `build_common_verified_split.py`, from the rows read to the rows written. -/
def buildCommonVerifiedSplit (args : SplitArgs) (rows : List Row) : CommonSplit :=
  let rows := shuffle args.shuffleRows (rows.filter (inCommonSplit args.piTraceField))
  { train := rows.take args.trainSize
    dev := (rows.drop args.trainSize).take args.devSize }

/-! ### Descent -/

/-- The fields that say what a row is about. -/
def problemFields : List PyStr := ["id".toList, "problem".toList, "gold_answer".toList]

/-- The fields that hold a generated text, each with the field that says it is verified. -/
def generatedFields : List (PyStr × PyStr) := [
  ("qwen8b_pi_trace".toList, "qwen8b_pi_verified".toList),
  ("qwen32b_pi_trace".toList, "qwen32b_pi_verified".toList),
  ("closed_teacher_output".toList, "closed_teacher_verified".toList)]

theorem forall_generatedFields {P : PyStr × PyStr → Prop}
    (qwen8b : P ("qwen8b_pi_trace".toList, "qwen8b_pi_verified".toList))
    (qwen32b : P ("qwen32b_pi_trace".toList, "qwen32b_pi_verified".toList))
    (closedTeacher : P ("closed_teacher_output".toList, "closed_teacher_verified".toList)) :
    ∀ field ∈ generatedFields, P field := by
  intro field hfield
  simp only [generatedFields, List.mem_cons, List.not_mem_nil, or_false] at hfield
  rcases hfield with rfl | rfl | rfl
  · exact qwen8b
  · exact qwen32b
  · exact closedTeacher

/-- The text solves the problem with the gold answer. -/
def Solves (v : Verifier) (gold text : PyStr) : Prop :=
  v.verifyAnswer (extractBoxedAnswer text) (.str gold) = true

/-- The row says whether it is verified, and if so it has a text that solves the problem. -/
def Honest (v : Verifier) (gold : PyStr) (row : Row) (field : PyStr × PyStr) : Prop :=
  ∃ verified, Row.get? field.2 row = some (.bool verified) ∧
    (verified = true → ∃ text, Row.get? field.1 row = some (.str text) ∧ Solves v gold text)

def closedGenerationKey : PyStr := "closed_teacher_generation".toList

/-- The metadata are an object, and so is what they note of a closed teacher. -/
def ObjectMetadata (row : Row) : Prop :=
  ∃ fields, Row.get? metadataKey row = some (.obj fields) ∧
    ∀ value, Row.get? closedGenerationKey fields = some value →
      ∃ generation, value = .obj generation

/-- The row is about the problem of the clean row, and honest. -/
structure Descends (v : Verifier) (n : NormalizedRow) (row : Row) : Prop where
  id : Row.get? "id".toList row = some (.str n.id)
  problem : Row.get? "problem".toList row = some (.str n.problem)
  goldAnswer : Row.get? "gold_answer".toList row = some (.str n.goldAnswer)
  honest : ∀ field ∈ generatedFields, Honest v n.goldAnswer row field
  metadata : ObjectMetadata row

section descends
variable {v : Verifier} {n : NormalizedRow} {row row' : Row}

theorem ObjectMetadata.congr (h : ObjectMetadata row)
    (heq : Row.get? metadataKey row' = Row.get? metadataKey row) : ObjectMetadata row' := by
  unfold ObjectMetadata
  rw [heq]
  exact h

theorem ObjectMetadata.setDefault (h : ObjectMetadata row) (value : Json) :
    ObjectMetadata (row.setDefault metadataKey value) := by
  obtain ⟨fields, hfields, hclosed⟩ := h
  refine ⟨fields, ?_, hclosed⟩
  rw [Row.get?_setDefault_self, hfields]
  rfl

/-- A note in the metadata, an object if it is of the closed teacher. -/
theorem ObjectMetadata.setInner (h : ObjectMetadata row) {key : PyStr} {value : Json}
    (hset : Row.setInner metadataKey key value row = .ok row')
    (hvalue : key = closedGenerationKey → ∃ generation, value = .obj generation) :
    ObjectMetadata row' := by
  obtain ⟨fields, hfields, hclosed⟩ := h
  obtain ⟨fields', hfields', rfl⟩ := Row.setInner_eq_ok hset
  rw [hfields] at hfields'
  obtain rfl := Json.obj.inj (Option.some.inj hfields')
  refine ⟨_, Row.get?_setItem_self _ _ _, ?_⟩
  intro found hfound
  rw [Row.get?_setItem] at hfound
  split at hfound
  · next heq =>
      obtain rfl := Option.some.inj hfound
      exact hvalue heq.symm
  · exact hclosed found hfound

/-- A row that keeps what it is about, and each text or an honest one in its place. -/
theorem Descends.update (h : Descends v n row)
    (hproblem : ∀ key ∈ problemFields, Row.get? key row' = Row.get? key row)
    (hmetadata : ObjectMetadata row')
    (hfields : ∀ field ∈ generatedFields, Honest v n.goldAnswer row' field ∨
      Row.get? field.1 row' = Row.get? field.1 row ∧
        Row.get? field.2 row' = Row.get? field.2 row) : Descends v n row' := by
  refine ⟨?_, ?_, ?_, ?_, hmetadata⟩
  · rw [hproblem _ (by simp [problemFields])]
    exact h.id
  · rw [hproblem _ (by simp [problemFields])]
    exact h.problem
  · rw [hproblem _ (by simp [problemFields])]
    exact h.goldAnswer
  · intro field hfield
    rcases hfields field hfield with hhonest | ⟨htext, hflag⟩
    · exact hhonest
    · unfold Honest
      rw [htext, hflag]
      exact h.honest field hfield

/-- A selected text, if there is one. -/
theorem honest_of_selected {gold : PyStr} {field : PyStr × PyStr} {selected : Option PyStr}
    (htext : Row.get? field.1 row = some (optStr selected))
    (hflag : Row.get? field.2 row = some (.bool selected.isSome))
    (hsolves : ∀ text, selected = some text → Solves v gold text) : Honest v gold row field := by
  refine ⟨selected.isSome, hflag, ?_⟩
  intro hsome
  obtain ⟨text, rfl⟩ := Option.isSome_iff_exists.mp hsome
  exact ⟨text, htext, hsolves text rfl⟩

/-- The row as `prepare_opsd_data.py` writes it. -/
theorem descends_toRow (v : Verifier) (args : PrepareArgs) (n : NormalizedRow) :
    Descends v n (n.toRow args) := by
  refine ⟨rfl, rfl, rfl, forall_generatedFields ?_ ?_ ?_, _, rfl, nofun⟩
  · exact ⟨false, rfl, nofun⟩
  · exact ⟨false, rfl, nofun⟩
  · exact ⟨false, rfl, nofun⟩

end descends

/-! ### One row of each tool -/

section rows
variable {v : Verifier} {n : NormalizedRow} {row newRow : Row}

theorem objectMetadata_traceRow {args : TraceArgs} {createdAt : PyStr}
    {candidates : List Candidate} (hrow : ObjectMetadata row)
    (h : traceRow args createdAt row candidates = .ok newRow) : ObjectMetadata newRow := by
  obtain ⟨gold, -, h⟩ := Checked.bind_eq_ok_iff.mp h
  refine ObjectMetadata.setInner (ObjectMetadata.setDefault (hrow.congr ?_) _) h
    fun heq => absurd heq (by decide)
  exact get?_withQwen8bTrace_of_notMem (by decide) _ _ _

theorem objectMetadata_shardRow {args : ShardArgs} {workerId : ℕ} {createdAt : PyStr}
    {candidates : List Candidate} {verified : Bool} (hrow : ObjectMetadata row)
    (h : shardRow args workerId createdAt row candidates = .ok (newRow, verified)) :
    ObjectMetadata newRow := by
  obtain ⟨gold, -, h⟩ := Checked.bind_eq_ok_iff.mp h
  obtain ⟨first, hfirst, h⟩ := Checked.bind_eq_ok_iff.mp h
  obtain ⟨second, hsecond, h⟩ := Checked.bind_eq_ok_iff.mp h
  obtain ⟨rfl, -⟩ := Prod.mk.inj (Except.ok.inj h)
  have hdefault := ObjectMetadata.setDefault (hrow.congr
    (get?_withTrace_of_notMem (by decide) (selectAttempt (attemptsOf args gold candidates))
      (attemptsOf args gold candidates) row)) (.obj [])
  have hmetadata := ObjectMetadata.setInner hdefault hfirst fun heq => absurd heq (by decide)
  exact ObjectMetadata.setInner hmetadata hsecond fun heq => absurd heq (by decide)

/-- The selected attempts at a row solve its problem. -/
theorem solves_of_selectAttempt {gold : Json} {candidates : List Candidate}
    (hrow : Descends v n row)
    (hgold : candidates ≠ [] → Row.get? "gold_answer".toList row = some gold) {text : PyStr}
    (h : (selectAttempt (candidates.mapIdx (judgedAttempt v gold))).map (·.text) = some text) :
    Solves v n.goldAnswer text := by
  obtain ⟨a, ha, rfl⟩ := Option.map_eq_some_iff.mp h
  obtain ⟨⟨candidate, hmem, -⟩, hverified⟩ := selectAttempt_judged ha
  have hgold := hgold (List.ne_nil_of_mem hmem)
  rw [hrow.goldAnswer] at hgold
  obtain rfl := Option.some.inj hgold
  exact hverified

theorem descends_traceRow {args : TraceArgs} {createdAt : PyStr} {candidates : List Candidate}
    (hrow : Descends args.verifier n row)
    (h : traceRow args createdAt row candidates = .ok newRow) :
    Descends args.verifier n newRow := by
  obtain ⟨gold, hgold, hkeys⟩ := traceRow_eq_ok h
  have hold : ∀ key, key ∉ qwen8bFields → key ≠ "metadata".toList →
      Row.get? key newRow = Row.get? key row := by
    intro key hkey hne
    rw [hkeys key hne, get?_withQwen8bTrace_of_notMem hkey]
  have hproblem : ∀ key ∈ problemFields, key ∉ qwen8bFields ∧ key ≠ "metadata".toList := by
    decide
  refine hrow.update (fun key hkey => hold key (hproblem key hkey).1 (hproblem key hkey).2)
    (objectMetadata_traceRow hrow.metadata h) (forall_generatedFields ?_ ?_ ?_)
  · refine .inl (honest_of_selected ?_ ?_ fun text => solves_of_selectAttempt hrow hgold)
    · rw [hkeys _ (by decide)]
      unfold withQwen8bTrace
      simp only [Row.get?_setItem]
      rfl
    · rw [hkeys _ (by decide), Option.isSome_map]
      unfold withQwen8bTrace
      simp only [Row.get?_setItem]
      rfl
  · exact .inr ⟨hold _ (by decide) (by decide), hold _ (by decide) (by decide)⟩
  · exact .inr ⟨hold _ (by decide) (by decide), hold _ (by decide) (by decide)⟩

theorem descends_shardRow {args : ShardArgs} {workerId : ℕ} {createdAt : PyStr}
    {candidates : List Candidate} {verified : Bool} (hrow : Descends args.verifier n row)
    (h : shardRow args workerId createdAt row candidates = .ok (newRow, verified)) :
    Descends args.verifier n newRow := by
  obtain ⟨gold, hgold, -, -, hkeys⟩ := shardRow_eq_ok h
  have hold : ∀ key, key ∉ traceFields → key ≠ shardMetadataKey →
      Row.get? key newRow = Row.get? key row := by
    intro key hkey hne
    rw [hkeys key hne, get?_withTrace_of_notMem hkey]
  have htrace := get?_withTrace_trace (selectAttempt (attemptsOf args gold candidates))
    (attemptsOf args gold candidates) row
  have hverified := get?_withTrace_verified (selectAttempt (attemptsOf args gold candidates))
    (attemptsOf args gold candidates) row
  have hsolves : ∀ text, (selectAttempt (attemptsOf args gold candidates)).map (·.text) =
      some text → Solves args.verifier n.goldAnswer text :=
    fun text => solves_of_selectAttempt hrow hgold
  have hproblem : ∀ key ∈ problemFields, key ∉ traceFields ∧ key ≠ shardMetadataKey := by decide
  refine hrow.update (fun key hkey => hold key (hproblem key hkey).1 (hproblem key hkey).2)
    (objectMetadata_shardRow hrow.metadata h) (forall_generatedFields ?_ ?_ ?_)
  · refine .inl (honest_of_selected ((hkeys _ (by decide)).trans htrace.1) ?_ hsolves)
    rw [Option.isSome_map]
    exact (hkeys _ (by decide)).trans hverified.1
  · refine .inl (honest_of_selected ((hkeys _ (by decide)).trans htrace.2) ?_ hsolves)
    rw [Option.isSome_map]
    exact (hkeys _ (by decide)).trans hverified.2
  · exact .inr ⟨hold _ (by decide) (by decide), hold _ (by decide) (by decide)⟩

/-- The text that the attempts of the closed teacher end with solves the problem. -/
theorem solves_of_stopped {args : ClosedArgs} {gold : Json} {m : ℕ}
    {attempts : List ClosedAttempt} {text : PyStr} (hrow : Descends args.verifier n row)
    (hgold : attempts ≠ [] → Row.get? "gold_answer".toList row = some gold)
    (hjudged : ∀ a ∈ attempts, a.Judged args.verifier gold)
    (h : Stopped m attempts (some text)) : Solves args.verifier n.goldAnswer text := by
  cases h with
  | @verified failed last happend _ hlast =>
      have hmem : last ∈ attempts := by
        rw [happend]
        exact List.mem_append_right _ List.mem_cons_self
      have hgold := hgold (List.ne_nil_of_mem hmem)
      rw [hrow.goldAnswer] at hgold
      obtain rfl := Option.some.inj hgold
      obtain ⟨hboxed, hverdict⟩ := hjudged last hmem
      rw [hlast, hboxed] at hverdict
      exact hverdict.symm

theorem descends_closedWrites {args : ClosedArgs} {attempts : List ClosedAttempt}
    (hrow : Descends args.verifier n row) (h : ClosedWrites args row newRow attempts) :
    Descends args.verifier n newRow := by
  obtain ⟨selected, hstopped, htext, hflag⟩ := h.selected
  obtain ⟨gold, hgold, hjudged⟩ := h.judged
  have hproblem : ∀ key ∈ problemFields, key ∉ closedFields := by decide
  obtain ⟨fields, generation, hmetadata, hgeneration, -⟩ := h.recorded
  refine hrow.update (fun key hkey => h.frame key (hproblem key hkey)) ⟨fields, hmetadata, ?_⟩
    (forall_generatedFields ?_ ?_ ?_)
  · intro value hvalue
    rw [← Option.some.inj (hgeneration.symm.trans hvalue)]
    exact ⟨generation, rfl⟩
  · exact .inr ⟨h.frame _ (by decide), h.frame _ (by decide)⟩
  · exact .inr ⟨h.frame _ (by decide), h.frame _ (by decide)⟩
  · refine .inl (honest_of_selected htext hflag ?_)
    rintro text rfl
    exact solves_of_stopped hrow hgold hjudged hstopped

/-- A row of the recipient statistics differs in the rates and the metadata. -/
theorem frame_upliftStep {env : UpliftEnv} {args : UpliftArgs} {plain pi : List (PyStr × Row)}
    {out out' : UpliftOutput} (h : upliftStep env args plain pi out row = .ok out') :
    ∃ newRow, out'.outputRows = out.outputRows ++ [newRow] ∧
      (ObjectMetadata row → ObjectMetadata newRow) ∧
      ∀ key, key ∉ rateFields → key ≠ metadataKey → Row.get? key newRow = Row.get? key row := by
  obtain ⟨⟨goldAnswer, samples⟩, -, h⟩ := Checked.bind_eq_ok_iff.mp h
  dsimp only at h
  cases hincomplete : samples.incomplete args with
  | true =>
      rw [hincomplete, if_pos rfl] at h
      obtain ⟨newRow, hmark, h⟩ := Checked.bind_eq_ok_iff.mp h
      have hmetadata : ObjectMetadata row → ObjectMetadata newRow := fun hrow =>
        ObjectMetadata.setInner (hrow.setDefault _) hmark fun heq => absurd heq (by decide)
      obtain ⟨fields, -, rfl⟩ := Row.setInner_eq_ok hmark
      rw [← Except.ok.inj h]
      refine ⟨_, rfl, hmetadata, ?_⟩
      intro key _ hkey
      rw [Row.get?_setItem_of_ne hkey, Row.get?_setDefault_of_ne hkey]
  | false =>
      rw [hincomplete, if_neg Bool.false_ne_true] at h
      obtain ⟨rates, -, h⟩ := Checked.bind_eq_ok_iff.mp h
      rw [← Except.ok.inj h]
      exact ⟨_, rfl, fun hrow => hrow.congr (get?_attachRates_of_notMem (by decide)),
        fun key hkey _ => get?_attachRates_of_notMem hkey⟩

theorem descends_frame (hrow : Descends v n row)
    (hmetadata : ObjectMetadata row → ObjectMetadata newRow)
    (h : ∀ key, key ∉ rateFields → key ≠ metadataKey → Row.get? key newRow = Row.get? key row) :
    Descends v n newRow := by
  have hkept : ∀ key ∈ problemFields ++ generatedFields.flatMap fun field => [field.1, field.2],
      key ∉ rateFields ∧ key ≠ metadataKey := by decide
  have hsame : ∀ key ∈ problemFields ++ generatedFields.flatMap fun field => [field.1, field.2],
      Row.get? key newRow = Row.get? key row :=
    fun key hkey => h key (hkept key hkey).1 (hkept key hkey).2
  have hmem : ∀ field ∈ generatedFields, ∀ key ∈ [field.1, field.2],
      key ∈ problemFields ++ generatedFields.flatMap fun field => [field.1, field.2] :=
    fun field hfield key hkey =>
      List.mem_append_right _ (List.mem_flatMap.mpr ⟨field, hfield, hkey⟩)
  refine hrow.update (fun key hkey => hsame key (List.mem_append_left _ hkey))
    (hmetadata hrow.metadata) ?_
  intro field hfield
  exact .inr ⟨hsame _ (hmem field hfield _ (by simp)), hsame _ (hmem field hfield _ (by simp))⟩

end rows

/-! ### Files -/

/-- Every row descends from a clean row, and no two rows have one id. -/
structure SoundFile (v : Verifier) (clean : List NormalizedRow) (rows : List Row) : Prop where
  descends : ∀ row ∈ rows, ∃ n ∈ clean, Descends v n row
  distinct : (rows.map rowId).Nodup

section files
variable {v : Verifier} {clean : List NormalizedRow} {rows rows' : List Row}

theorem Descends.rowId_eq {n : NormalizedRow} {row : Row} (h : Descends v n row) :
    rowId row = .ok (.str n.id) := by
  have hget : row.get idField = .str n.id := Row.get_of_get? h.id
  unfold rowId
  rw [hget]
  rfl

theorem Descends.shardId_eq {args : ShardArgs} {n : NormalizedRow} {row : Row}
    (h : Descends v n row) : shardId args row = n.id := by
  unfold shardId
  rw [Row.get_of_get? h.id]
  rfl

/-- Of a sound file a tool may pick rows in any order. -/
theorem SoundFile.of_subperm (h : SoundFile v clean rows) (hsub : rows'.Subperm rows) :
    SoundFile v clean rows' := by
  refine ⟨fun row hrow => h.descends row (hsub.subset hrow), ?_⟩
  obtain ⟨picked, hperm, hpicked⟩ := hsub
  exact (hperm.map rowId).nodup_iff.mp (h.distinct.sublist (hpicked.map rowId))

/-- A tool may write a row for each row it reads, with the same descent. -/
theorem SoundFile.of_forall₂ (h : SoundFile v clean rows)
    (hrows : List.Forall₂ (fun row row' => ∀ n, Descends v n row → Descends v n row')
      rows rows') : SoundFile v clean rows' := by
  have hids : rows'.map rowId = rows.map rowId := by
    have hdescends := h.descends
    clear h
    induction hrows with
    | nil => rfl
    | @cons row row' rows rows' hrow _ ih =>
        obtain ⟨n, -, hn⟩ := hdescends row List.mem_cons_self
        rw [List.map_cons, List.map_cons, hn.rowId_eq, (hrow n hn).rowId_eq,
          ih fun r hr => hdescends r (List.mem_cons_of_mem _ hr)]
  constructor
  · intro row' hrow'
    obtain ⟨row, hrow, hkeeps⟩ := Checked.exists_of_forall₂ hrows.flip hrow'
    obtain ⟨n, hn, hdescends⟩ := h.descends row hrow
    exact ⟨n, hn, hkeeps n hdescends⟩
  · rw [hids]
    exact h.distinct

/-- Two ways to tell rows apart. -/
theorem nodup_map_of_nodup_map {α β γ : Type*} {f : α → β} {g : α → γ} {xs : List α}
    (h : (xs.map f).Nodup) (hinj : ∀ x ∈ xs, ∀ y ∈ xs, g x = g y → f x = f y) :
    (xs.map g).Nodup := by
  apply (List.nodup_map_iff_inj_on h.of_map).mpr
  intro x hx y hy heq
  exact List.inj_on_of_nodup_map h hx hy (hinj x hx y hy heq)

theorem SoundFile.distinctIds (h : SoundFile v clean rows) (hid : ∀ n ∈ clean, n.id ≠ [])
    (args : ShardArgs) : DistinctIds args rows := by
  constructor
  · intro row hrow
    obtain ⟨n, hn, hdescends⟩ := h.descends row hrow
    exact ⟨n.id, hdescends.id, hid n hn⟩
  · refine nodup_map_of_nodup_map h.distinct ?_
    intro row hrow row' hrow' heq
    obtain ⟨n, -, hn⟩ := h.descends row hrow
    obtain ⟨n', -, hn'⟩ := h.descends row' hrow'
    rw [hn.shardId_eq, hn'.shardId_eq] at heq
    rw [hn.rowId_eq, hn'.rowId_eq, heq]

end files

/-! ### Runs of the shards -/

section shards
variable {args : ShardArgs} {source : List Row}

/-- The success files of all workers, one after the other. -/
def successRows (world : ShardWorld args) : List Row :=
  (List.finRange args.numWorkers).flatMap fun w => (world w).success.getD []

theorem soundFile_successRows {clean : List NormalizedRow} (hid : ∀ n ∈ clean, n.id ≠ [])
    (hsource : SoundFile args.verifier clean source) {world : ShardWorld args}
    (h : ShardReachable args source world) :
    SoundFile args.verifier clean (successRows world) := by
  have hdescends := forall_appended_of_reachable
    (P := fun row => ∃ n ∈ clean, Descends args.verifier n row) ?_ h
  · have hrows : ∀ row ∈ successRows world, ∃ n ∈ clean, Descends args.verifier n row := by
      intro row hrow
      obtain ⟨w, -, hw⟩ := List.mem_flatMap.mp hrow
      exact hdescends w row (List.mem_append_left _ hw)
    refine ⟨hrows, ?_⟩
    have hall := nodup_allAppendedIds (hsource.distinctIds hid args) h
    have hsub : ((successRows world).map (shardId args)).Sublist (allAppendedIds world) := by
      unfold successRows allAppendedIds appendedIds Worker.appended
      rw [List.map_flatMap]
      generalize List.finRange args.numWorkers = ws
      induction ws with
      | nil => exact .slnil
      | cons w ws ih =>
          rw [List.flatMap_cons, List.flatMap_cons, List.map_append]
          exact (List.sublist_append_left _ _).append ih
    refine nodup_map_of_nodup_map (hall.sublist hsub) ?_
    intro row hrow row' hrow' heq
    obtain ⟨n, -, hn⟩ := hrows row hrow
    obtain ⟨n', -, hn'⟩ := hrows row' hrow'
    rw [hn.rowId_eq, hn'.rowId_eq] at heq
    rw [hn.shardId_eq, hn'.shardId_eq]
    exact Json.HashKey.str.inj (Except.ok.inj heq)
  · intro row hrow workerId createdAt candidates newRow verified hnew
    obtain ⟨n, hn, hdescends⟩ := hsource.descends row hrow
    exact ⟨n, hn, descends_shardRow hdescends hnew⟩

end shards

/-! ### The tools -/

/-- Every file that a tool may write for the rows it reads.  The success files of the shards are
put together by hand. -/
inductive ToolStep (v : Verifier) (rows : List Row) : List Row → Prop where
  | traces {Tok : Type} {args : TraceArgs} {tokenizer : Tokenizer Tok}
      {llmGenerate : List PyStr → List (List Candidate)} {clock : ℕ → PyStr} {rows' : List Row} :
      args.verifier = v →
      generateTeacherTraces args tokenizer llmGenerate clock rows = .ok rows' →
      ToolStep v rows rows'
  | shards {args : ShardArgs} {world : ShardWorld args} {rows' : List Row} :
      args.verifier = v → ShardReachable args rows world → rows'.Perm (successRows world) →
      ToolStep v rows rows'
  | closedTeacher {client : ChatClient} {args : ClosedArgs} {clock : ℕ → PyStr}
      {rows' : List Row} {st : ChatState} :
      args.verifier = v →
      generateClosedTeacherData client args clock rows = .ok (rows', st) → ToolStep v rows rows'
  | uplift {env : UpliftEnv} {args : UpliftArgs} {plainRows piRows : List Row}
      {out : UpliftOutput} :
      computeRecipientUplift env args rows plainRows piRows = .ok out →
      ToolStep v rows out.outputRows
  | frontier {nums : PyNumbers} {args : FrontierArgs} {out : FrontierOutput} {rows' : List Row} :
      buildFrontier nums args rows = .ok out →
      rows' ∈ [out.smoke, out.mvpTrain, out.matchedDev, out.confirmationTrain,
        out.confirmationDev] → ToolStep v rows rows'
  | commonSplit {args : SplitArgs} {rows' : List Row} :
      rows' ∈ [(buildCommonVerifiedSplit args rows).train,
        (buildCommonVerifiedSplit args rows).dev] → ToolStep v rows rows'

section tools
variable {v : Verifier} {clean : List NormalizedRow} {rows rows' : List Row}

theorem TraceArgs.usedRows_sublist (args : TraceArgs) (rows : List Row) :
    (args.usedRows rows).Sublist rows := by
  unfold TraceArgs.usedRows
  cases args.maxPrompts with
  | none => exact List.Sublist.refl rows
  | some k => exact List.take_sublist _ _

theorem ClosedArgs.usedRows_sublist (args : ClosedArgs) (rows : List Row) :
    (args.usedRows rows).Sublist rows := by
  unfold ClosedArgs.usedRows
  cases args.maxRows with
  | none => exact List.Sublist.refl rows
  | some k => exact List.take_sublist _ _

/-- A loop over two lists of one length writes a row for each entry of the first. -/
theorem forZipStrict_eq_ok {α β γ : Type} {f : α → β → Except PyError γ} {xs : List α}
    {ys : List β} {zs : List γ} (h : forZipStrict f xs ys = .ok zs) :
    List.Forall₂ (fun x z => ∃ y, f x y = .ok z) xs zs := by
  induction xs generalizing ys zs with
  | nil =>
      cases ys with
      | nil =>
          obtain rfl := Except.ok.inj h
          exact .nil
      | cons y ys => cases h
  | cons x xs ih =>
      cases ys with
      | nil => cases h
      | cons y ys =>
          obtain ⟨z, hz, h⟩ := Checked.bind_eq_ok_iff.mp h
          obtain ⟨zs, hzs, h⟩ := Checked.bind_eq_ok_iff.mp h
          obtain rfl := Except.ok.inj h
          exact .cons ⟨y, hz⟩ (ih hzs)

theorem soundFile_traces {Tok : Type} {args : TraceArgs} {tokenizer : Tokenizer Tok}
    {llmGenerate : List PyStr → List (List Candidate)} {clock : ℕ → PyStr}
    (hsound : SoundFile args.verifier clean rows)
    (h : generateTeacherTraces args tokenizer llmGenerate clock rows = .ok rows') :
    SoundFile args.verifier clean rows' := by
  obtain ⟨prompts, -, h⟩ := Checked.bind_eq_ok_iff.mp h
  have hused := (args.usedRows_sublist rows).subperm
  refine (hsound.of_subperm hused).of_forall₂ ((forZipStrict_eq_ok h).imp ?_)
  rintro row newRow ⟨⟨candidates, i⟩, hrow⟩ n hn
  exact descends_traceRow hn hrow

theorem soundFile_closedTeacher {client : ChatClient} {args : ClosedArgs} {clock : ℕ → PyStr}
    {st : ChatState} (hsound : SoundFile args.verifier clean rows)
    (h : generateClosedTeacherData client args clock rows = .ok (rows', st)) :
    SoundFile args.verifier clean rows' := by
  obtain ⟨written, rfl, hwritten, -⟩ := (closedTeacher_run h).written
  have hused := (args.usedRows_sublist rows).subperm
  refine (hsound.of_subperm hused).of_forall₂ ?_
  rw [List.forall₂_map_right_iff]
  exact hwritten.imp fun row w hw n hn => descends_closedWrites hn hw

theorem soundFile_uplift {env : UpliftEnv} {args : UpliftArgs} {plainRows piRows : List Row}
    {out : UpliftOutput} (hsound : SoundFile v clean rows)
    (h : computeRecipientUplift env args rows plainRows piRows = .ok out) :
    SoundFile v clean out.outputRows := by
  obtain ⟨plain, -, h⟩ := Checked.bind_eq_ok_iff.mp h
  obtain ⟨pi, -, h⟩ := Checked.bind_eq_ok_iff.mp h
  refine hsound.of_forall₂ (Checked.foldlM_invariant (fun done (out : UpliftOutput) =>
    List.Forall₂ (fun row row' => ∀ n, Descends v n row → Descends v n row')
      done out.outputRows) ?_ .nil h)
  intro done out row out' hdone hstep
  obtain ⟨newRow, hnew, hmetadata, hframe⟩ := frame_upliftStep hstep
  rw [hnew]
  exact List.rel_append hdone (.cons (fun n hn => descends_frame hn hmetadata hframe) .nil)

/-- A piece of a shuffle of some of the rows. -/
theorem subperm_of_shuffle_filter {α : Type*} {σ : ∀ n, Equiv.Perm (Fin n)} {p : α → Bool}
    {xs ys : List α} (h : ys.Sublist (shuffle σ (xs.filter p))) : ys.Subperm xs :=
  h.subperm.trans ((shuffle_perm σ _).subperm.trans List.filter_sublist.subperm)

theorem soundFile_frontier {nums : PyNumbers} {args : FrontierArgs} {out : FrontierOutput}
    (hsound : SoundFile v clean rows) (h : buildFrontier nums args rows = .ok out)
    (hfile : rows' ∈ [out.smoke, out.mvpTrain, out.matchedDev, out.confirmationTrain,
      out.confirmationDev]) : SoundFile v clean rows' := by
  obtain ⟨p, frontier, pool, -, hfrontier, hpool, h₁, h₂, h₃, h₄, h₅⟩ := buildFrontier_eq_ok h
  have hpieces : rows'.Sublist frontier ∨ rows'.Sublist pool := by
    simp only [List.mem_cons, List.not_mem_nil, or_false] at hfile
    rcases hfile with rfl | rfl | rfl | rfl | rfl
    · exact .inl (h₁ ▸ List.take_sublist _ _)
    · exact .inl (h₂ ▸ List.take_sublist _ _)
    · exact .inl (h₃ ▸ (List.take_sublist _ _).trans (List.drop_sublist _ _))
    · exact .inr (h₄ ▸ List.take_sublist _ _)
    · exact .inr (h₅ ▸ (List.take_sublist _ _).trans (List.drop_sublist _ _))
  rcases hpieces with hpiece | hpiece
  · rw [hfrontier] at hpiece
    exact hsound.of_subperm (subperm_of_shuffle_filter hpiece)
  · rw [hpool] at hpiece
    exact hsound.of_subperm (subperm_of_shuffle_filter hpiece)

theorem soundFile_commonSplit {args : SplitArgs} (hsound : SoundFile v clean rows)
    (hfile : rows' ∈ [(buildCommonVerifiedSplit args rows).train,
      (buildCommonVerifiedSplit args rows).dev]) : SoundFile v clean rows' := by
  simp only [List.mem_cons, List.not_mem_nil, or_false] at hfile
  rcases hfile with rfl | rfl
  · exact hsound.of_subperm (subperm_of_shuffle_filter (List.take_sublist _ _))
  · exact hsound.of_subperm
      (subperm_of_shuffle_filter ((List.take_sublist _ _).trans (List.drop_sublist _ _)))

/-- **Every tool keeps a file sound.** -/
theorem soundFile_step (hid : ∀ n ∈ clean, n.id ≠ []) (hsound : SoundFile v clean rows)
    (hstep : ToolStep v rows rows') : SoundFile v clean rows' := by
  cases hstep with
  | traces hv h =>
      obtain rfl := hv
      exact soundFile_traces hsound h
  | shards hv h hperm =>
      obtain rfl := hv
      exact (soundFile_successRows hid hsound h).of_subperm hperm.subperm
  | closedTeacher hv h =>
      obtain rfl := hv
      exact soundFile_closedTeacher hsound h
  | uplift h => exact soundFile_uplift hsound h
  | frontier h hfile => exact soundFile_frontier hsound h hfile
  | commonSplit hfile => exact soundFile_commonSplit hsound hfile

end tools

/-! ### Runs of the pipeline -/

section pipeline
variable {v : Verifier} {env : TextEnv} {args : PrepareArgs} {evalProblems : List PyStr}
  {sourceRows rows : List Row}

/-- `all_clean.jsonl`. -/
def cleanFile (env : TextEnv) (args : PrepareArgs) (evalProblems : List PyStr)
    (sourceRows : List Row) : List Row :=
  (prepareOpsdData env args evalProblems sourceRows).clean.map (NormalizedRow.toRow args)

/-- A file that some tools, one after the other, make of the clean file. -/
def Produced (v : Verifier) (env : TextEnv) (args : PrepareArgs) (evalProblems : List PyStr)
    (sourceRows rows : List Row) : Prop :=
  Relation.ReflTransGen (ToolStep v) (cleanFile env args evalProblems sourceRows) rows

theorem soundFile_cleanFile (v : Verifier) (env : TextEnv) (args : PrepareArgs)
    (evalProblems : List PyStr) (sourceRows : List Row) :
    SoundFile v (prepareOpsdData env args evalProblems sourceRows).clean
      (cleanFile env args evalProblems sourceRows) := by
  constructor
  · intro row hrow
    obtain ⟨n, hn, rfl⟩ := List.mem_map.mp hrow
    exact ⟨n, hn, descends_toRow v args n⟩
  · have hkept := @keptOf_prepareOpsdData env args evalProblems sourceRows
    have hnodup := hkept.nodup
    rw [List.map_append] at hnodup
    have hids : (cleanFile env args evalProblems sourceRows).map rowId =
        ((prepareOpsdData env args evalProblems sourceRows).clean.map NormalizedRow.id).map
          fun id => .ok (.str id) := by
      unfold cleanFile
      rw [List.map_map, List.map_map]
      exact List.map_congr_left fun n _ => (descends_toRow v args n).rowId_eq
    rw [hids]
    refine (hnodup.sublist (List.sublist_append_left _ _)).map ?_
    intro d d' heq
    exact Json.HashKey.str.inj (Except.ok.inj heq)

/-- No text has an empty digest. -/
def DigestNonempty (env : TextEnv) : Prop := ∀ text d, env.digest text = .ok d → d ≠ []

theorem id_ne_nil_of_clean (hdigest : DigestNonempty env) {n : NormalizedRow}
    (hn : n ∈ (prepareOpsdData env args evalProblems sourceRows).clean) : n.id ≠ [] := by
  obtain ⟨row, -, hrow⟩ := (mem_clean_iff.mp hn).1.exists_row
  exact hdigest _ _ (normalizeRow_id hrow)

/-- Every file of the pipeline is sound. -/
theorem soundFile_of_produced (hdigest : DigestNonempty env)
    (h : Produced v env args evalProblems sourceRows rows) :
    SoundFile v (prepareOpsdData env args evalProblems sourceRows).clean rows := by
  unfold Produced at h
  induction h with
  | refl => exact soundFile_cleanFile v env args evalProblems sourceRows
  | tail _ hstep ih => exact soundFile_step (fun n hn => id_ne_nil_of_clean hdigest hn) ih hstep

end pipeline

end ExtpiRlsd
