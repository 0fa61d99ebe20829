import ExtpiRlsd.SftInspector

/-! # Lengths before and in training

The inspector counts the tokens of a row as the dataset builds them: message by message, with the
same prefix cut off (`inspectMessage_eq_ok`), so the sums over a row are the lengths of the
concatenated lists (`processMessages_of_inspect`).

`preflight_agrees` is about a whole table: what is counted, and which rows are too long. -/

namespace ExtpiRlsd

open PyText PyData

/-- A row whose messages have a role and a text, without the columns that need more. -/
structure SftRowInScope (config : SftConfig) (row : Row) : Prop where
  messages : ∃ messages : List Row,
    Row.get? config.messagesKey row = some (.arr (messages.map .obj)) ∧
    ∀ m ∈ messages, (∃ role, Row.get? roleKey m = some role) ∧
      ∃ content, Row.get? contentKey m = some (.str content)
  no_tools : Row.get? config.toolsKey row = none
  no_images : Row.get? config.imageKey row = none
  no_videos : Row.get? config.videoKey row = none
  enableThinking : Row.get? config.enableThinkingKey row = none ∨
    ∃ b, Row.get? config.enableThinkingKey row = some (.bool b)

/-- The inspector and the dataset are run with the same settings. -/
structure SameSettings (args : InspectArgs) (config : SftConfig) : Prop where
  messagesKey : config.messagesKey = args.messagesKey
  enableThinkingKey : config.enableThinkingKey = "enable_thinking".toList
  enableThinkingDefault : config.enableThinkingDefault = args.enableThinkingDefault
  no_kwargs : config.applyChatTemplateKwargs = []

/-! ### One message -/

@[simp] theorem length_zeroFirst (n : ℕ) (xs : List ℤ) : (zeroFirst n xs).length = xs.length := by
  unfold zeroFirst
  rw [List.length_append, List.length_replicate, List.length_drop]
  omega

theorem count_zeroFirst (g n : ℕ) : (zeroFirst g (List.replicate n 1)).count 1 = n - g := by
  unfold zeroFirst
  rw [List.count_append, List.drop_replicate, List.count_replicate_self, List.count_replicate,
    if_neg (by decide), Nat.zero_add]

theorem applyChatTemplate_eq_ok {tok : ChatTokenizer} {call : TemplateCall} {ids : List ℤ}
    (h : tok.applyChatTemplate call = .ok ids) : applyChatTemplate tok call = .ok ids := by
  unfold applyChatTemplate
  rw [h]

theorem sftItem_eq_ok {k : PyStr} {row : Row} {v : Json} (h : Row.get? k row = some v) :
    sftItem k row = .ok v := by
  unfold sftItem
  rw [h]

section dataset
variable {env : InspectEnv} {args : InspectArgs} {ds : MultiTurnSFTDataset}

/-- The three lists of some tokens have one length. -/
def SftTokens.SameLengths (tokens : SftTokens) : Prop :=
  tokens.inputIds.length = tokens.lossMask.length ∧
    tokens.lossMask.length = tokens.attentionMask.length

/-- The lengths that the dataset cuts off. -/
def MultiTurnSFTDataset.lens (ds : MultiTurnSFTDataset) : ℕ × ℕ :=
  (ds.systemPrompt.length, ds.generationPrompt.length)

theorem sameLengths_maskMessage (ds : MultiTurnSFTDataset) (index : ℕ) (role : Json)
    (ids : List ℤ) : (ds.maskMessage index role ids).SameLengths := by
  unfold SftTokens.SameLengths MultiTurnSFTDataset.maskMessage
  dsimp only
  by_cases hassistant : isRole "assistant" role = true
  · rw [if_pos hassistant]
    simp
  · rw [if_neg hassistant]
    simp

/-- What the inspector adds for a message is what the dataset builds from it. -/
theorem addMessage_maskMessage {rowId : PyStr} {st : MessageTotals} {message : Row} {index : ℕ}
    {role : Json} (hrole : Row.get? roleKey message = some role) (ids : List ℤ) :
    (addMessage env ds.lens rowId st index message ids).totalLength =
        st.totalLength + (ds.maskMessage index role ids).inputIds.length ∧
      (addMessage env ds.lens rowId st index message ids).assistantLossLength =
        st.assistantLossLength + (ds.maskMessage index role ids).lossMask.count 1 := by
  have hget : Row.get roleKey message = role := Row.get_of_get? hrole
  unfold addMessage MultiTurnSFTDataset.maskMessage MultiTurnSFTDataset.lens
  dsimp only
  rw [hget, List.length_drop, List.length_drop, List.length_replicate]
  constructor
  · split <;> rfl
  · by_cases hassistant : isRole "assistant" role = true
    · rw [if_pos hassistant, if_pos hassistant, count_zeroFirst]
      split <;> rfl
    · rw [if_neg hassistant, if_neg hassistant, List.count_replicate, if_neg (by decide)]

/-- The dataset builds a message that the inspector has counted. -/
theorem processSingleMessage_of_inspect (htok : ds.tokenizer = env.tokenizer)
    (hkwargs : ds.config.applyChatTemplateKwargs = []) {rowId : PyStr}
    {enableThinking : Option Bool} {st st' : MessageTotals} {message : Row} {index : ℕ}
    {role : Json} (hrole : Row.get? roleKey message = some role)
    (h : inspectMessage env ds.lens rowId enableThinking st (.obj message, index) = .ok st') :
    ∃ tokens, ds.processSingleMessage index message .null enableThinking = .ok tokens ∧
      tokens.SameLengths ∧
      st'.totalLength = st.totalLength + tokens.inputIds.length ∧
      st'.assistantLossLength = st.assistantLossLength + tokens.lossMask.count 1 := by
  obtain ⟨ids, hids, h⟩ := Checked.bind_eq_ok_iff.mp h
  obtain rfl := Except.ok.inj h
  have hcall : applyChatTemplate ds.tokenizer ⟨[.obj message], .null, false,
      withThinking enableThinking ds.config.applyChatTemplateKwargs⟩ = .ok ids := by
    rw [htok, hkwargs]
    exact applyChatTemplate_eq_ok hids
  refine ⟨ds.maskMessage index role ids, ?_, sameLengths_maskMessage ds index role ids,
    addMessage_maskMessage hrole ids⟩
  unfold MultiTurnSFTDataset.processSingleMessage
  rw [hcall, sftItem_eq_ok hrole]
  rfl

/-! ### One row -/

/-- The sums of the inspector over the messages are those of the lists that the dataset
concatenates. -/
theorem processMessages_of_inspect (htok : ds.tokenizer = env.tokenizer)
    (hkwargs : ds.config.applyChatTemplateKwargs = []) {rowId : PyStr}
    {enableThinking : Option Bool} {messages : List Row}
    (hroles : ∀ m ∈ messages, ∃ role, Row.get? roleKey m = some role) {st st' : MessageTotals}
    {k : ℕ} (h : ((messages.map Json.obj).zipIdx k).foldlM
      (inspectMessage env ds.lens rowId enableThinking) st = .ok st') :
    ∃ parts, (messages.zipIdx k).mapM (fun p =>
        ds.processSingleMessage p.2 p.1 .null enableThinking) = .ok parts ∧
      parts.length = messages.length ∧ (∀ part ∈ parts, part.SameLengths) ∧
      st'.totalLength = st.totalLength + (parts.map (·.inputIds.length)).sum ∧
      st'.assistantLossLength = st.assistantLossLength + (parts.map (·.lossMask.count 1)).sum := by
  induction messages generalizing st k with
  | nil =>
      obtain rfl := Except.ok.inj h
      exact ⟨[], rfl, rfl, fun part hpart => absurd hpart List.not_mem_nil, rfl, rfl⟩
  | cons message messages ih =>
      rw [List.map_cons, List.zipIdx_cons, List.foldlM_cons] at h
      obtain ⟨middle, hmiddle, h⟩ := Checked.bind_eq_ok_iff.mp h
      obtain ⟨role, hrole⟩ := hroles message List.mem_cons_self
      obtain ⟨part, hpart, hsame, htotal, hloss⟩ :=
        processSingleMessage_of_inspect htok hkwargs hrole hmiddle
      obtain ⟨parts, hparts, hlength, hall, htotals, hlosses⟩ :=
        ih (fun m hm => hroles m (List.mem_cons_of_mem _ hm)) h
      refine ⟨part :: parts, ?_, ?_, ?_, ?_, ?_⟩
      · rw [List.zipIdx_cons, List.mapM_cons, hpart, hparts]
        rfl
      · rw [List.length_cons, List.length_cons, hlength]
      · intro q hq
        rcases List.mem_cons.mp hq with rfl | hq
        · exact hsame
        · exact hall q hq
      · rw [htotals, htotal, List.map_cons, List.sum_cons, Nat.add_assoc]
      · rw [hlosses, hloss, List.map_cons, List.sum_cons, Nat.add_assoc]

theorem concatTokens_eq_ok {parts : List SftTokens} (hne : parts ≠ [])
    (hsame : ∀ part ∈ parts, part.SameLengths) :
    ∃ tokens, MultiTurnSFTDataset.concatTokens parts = .ok tokens ∧
      tokens.inputIds.length = (parts.map (·.inputIds.length)).sum ∧
      tokens.lossMask.count 1 = (parts.map (·.lossMask.count 1)).sum := by
  have hloss : (parts.map (·.inputIds.length)).sum = (parts.map (·.lossMask.length)).sum := by
    rw [List.map_congr_left fun part hpart => (hsame part hpart).1]
  have hattention : (parts.map (·.lossMask.length)).sum =
      (parts.map (·.attentionMask.length)).sum := by
    rw [List.map_congr_left fun part hpart => (hsame part hpart).2]
  unfold MultiTurnSFTDataset.concatTokens
  dsimp only
  rw [if_neg hne, List.length_flatMap, List.length_flatMap, List.length_flatMap,
    if_pos ⟨hloss, hattention⟩]
  refine ⟨_, rfl, ?_, ?_⟩
  · exact List.length_flatMap
  · exact List.count_flatMap

theorem buildMessages_eq_ok {row : Row} (hscope : SftRowInScope ds.config row) :
    ∃ messages : List Row,
      Row.get? ds.config.messagesKey row = some (.arr (messages.map .obj)) ∧
      (∀ m ∈ messages, ∃ role, Row.get? roleKey m = some role) ∧
      ds.buildMessages row = .ok messages := by
  obtain ⟨messages, hget, hmessages⟩ := hscope.messages
  refine ⟨messages, hget, fun m hm => (hmessages m hm).1, ?_⟩
  have hcontents : ds.buildContents row (.arr (messages.map .obj)) = .ok messages := by
    apply Checked.mapM_eq_ok_iff.mpr
    rw [List.forall₂_map_left_iff, List.forall₂_same]
    intro m hm
    obtain ⟨-, content, hcontent⟩ := hmessages m hm
    rw [MultiTurnSFTDataset.buildMessage, sftItem_eq_ok hcontent, hscope.no_images,
      hscope.no_videos]
    rfl
  unfold MultiTurnSFTDataset.buildMessages
  rw [sftItem_eq_ok hget, hscope.no_images, hscope.no_videos]
  dsimp only [bind, Except.bind]
  rw [hcontents]
  rfl

/-- What is known of a row that is counted as checked. -/
theorem inspectRow_checked {lens : ℕ × ℕ} {row : Row} {index : ℕ} {part : Inspection}
    (h : inspectRow env args lens row index = .ok part) (hchecked : part.totalLengths ≠ []) :
    ∃ messages totals, Row.get? args.messagesKey row = some (.arr messages) ∧
      2 ≤ messages.length ∧
      messages.zipIdx.foldlM (inspectMessage env lens (sftRowId env row index)
        (rowThinking "enable_thinking".toList args.enableThinkingDefault row)) .initial = .ok totals ∧
      part.totalLengths = [totals.totalLength] ∧
      part.assistantLossLengths = [totals.assistantLossLength] ∧
      part.overlongIds = if args.maxLength < totals.totalLength then [sftRowId env row index] else [] := by
  obtain ⟨value, hvalue, h⟩ := Checked.bind_eq_ok_iff.mp h
  have hget : Row.get? args.messagesKey row = some value := by
    unfold sftItem at hvalue
    split at hvalue
    · next v hv => rw [hv, Except.ok.inj hvalue]
    · cases hvalue
  have hinvalid : part ≠ invalidRow (sftRowId env row index) := by
    rintro rfl
    exact hchecked rfl
  split at h
  · next messages =>
      split at h
      · exact absurd (Except.ok.inj h).symm hinvalid
      · next hlength =>
          split at h
          · obtain ⟨totals, htotals, h⟩ := Checked.bind_eq_ok_iff.mp h
            obtain rfl := Except.ok.inj h
            refine ⟨messages, totals, hget, not_lt.mp hlength, htotals, ?_⟩
            unfold rowTotals at hchecked ⊢
            split at hchecked
            · exact absurd rfl hchecked
            · next hvalid =>
                rw [if_neg hvalid]
                exact ⟨rfl, rfl, rfl⟩
          · exact absurd (Except.ok.inj h).symm hinvalid
  · exact absurd (Except.ok.inj h).symm hinvalid

/-- The first part of `__getitem__` at a row that is counted as checked. -/
theorem tokenized_of_inspectRow (htok : ds.tokenizer = env.tokenizer)
    (hsame : SameSettings args ds.config) {row : Row} {index : ℕ} {part : Inspection}
    (hscope : SftRowInScope ds.config row)
    (h : inspectRow env args ds.lens row index = .ok part) (hchecked : part.totalLengths ≠ []) :
    ∃ messages tokens, ds.tokenized row = .ok (messages, tokens) ∧
      part.totalLengths = [tokens.inputIds.length] ∧
      part.assistantLossLengths = [tokens.lossMask.count 1] ∧
      part.overlongIds =
        if args.maxLength < tokens.inputIds.length then [sftRowId env row index] else [] := by
  obtain ⟨messages, hget, hroles, hbuild⟩ := buildMessages_eq_ok hscope
  obtain ⟨values, totals, hvalues, hlength, hloop, htotal, hloss, hoverlong⟩ :=
    inspectRow_checked h hchecked
  rw [← hsame.messagesKey, hget] at hvalues
  obtain rfl := Json.arr.inj (Option.some.inj hvalues)
  obtain ⟨parts, hparts, hcount, hall, htotals, hlosses⟩ :=
    processMessages_of_inspect htok hsame.no_kwargs hroles hloop
  have hne : parts ≠ [] := by
    apply List.ne_nil_of_length_pos
    rw [List.length_map] at hlength
    omega
  obtain ⟨tokens, htokens, hids, hmask⟩ := concatTokens_eq_ok hne hall
  have htools : ds.tools row = .null := by
    unfold MultiTurnSFTDataset.tools Row.get
    rw [hscope.no_tools]
    rfl
  have hthinking : ds.enableThinking row =
      rowThinking "enable_thinking".toList args.enableThinkingDefault row := by
    unfold MultiTurnSFTDataset.enableThinking
    rw [hsame.enableThinkingKey, hsame.enableThinkingDefault]
  have hprocess : ds.processMessages messages (ds.tools row) (ds.enableThinking row) = .ok parts := by
    unfold MultiTurnSFTDataset.processMessages
    rw [htools, hthinking]
    simp only [ite_self]
    exact hparts
  have hinitial : MessageTotals.initial.totalLength = 0 ∧
      MessageTotals.initial.assistantLossLength = 0 := ⟨rfl, rfl⟩
  rw [hinitial.1, Nat.zero_add, ← hids] at htotals
  rw [hinitial.2, Nat.zero_add, ← hmask] at hlosses
  refine ⟨messages, tokens, ?_, ?_, ?_, ?_⟩
  · unfold MultiTurnSFTDataset.tokenized
    rw [hbuild]
    dsimp only [bind, Except.bind]
    rw [hprocess]
    dsimp only
    rw [htokens]
    rfl
  · rw [htotal, htotals]
  · rw [hloss, hlosses]
  · rw [hoverlong, htotals]

/-- Past the sanity check the tokens are those of the first part. -/
theorem tokenized_of_checkedTokens {row : Row} {tokens : SftTokens}
    (h : ds.checkedTokens row = .ok tokens) : ∃ messages, ds.tokenized row = .ok (messages, tokens) := by
  obtain ⟨⟨messages, built⟩, hbuilt, h⟩ := Checked.bind_eq_ok_iff.mp h
  obtain ⟨text, -, h⟩ := Checked.bind_eq_ok_iff.mp h
  obtain ⟨-, -, h⟩ := Checked.bind_eq_ok_iff.mp h
  obtain rfl := Except.ok.inj h
  exact ⟨messages, hbuilt⟩

/-- With `truncation="error"` the length decides, in both padding modes. -/
theorem padOrTruncate_error (htruncation : ds.config.truncation = .error) (tokens : SftTokens) :
    (ds.config.maxLength < tokens.inputIds.length → ds.padOrTruncate tokens =
      .error (lengthError tokens.inputIds.length ds.config.maxLength)) ∧
    (¬ ds.config.maxLength < tokens.inputIds.length →
      ∃ sample, ds.padOrTruncate tokens = .ok sample) := by
  unfold MultiTurnSFTDataset.padOrTruncate
  cases hmode : ds.config.padMode with
  | right =>
      dsimp only
      constructor
      · intro hlong
        rw [if_neg (not_lt.mpr hlong.le), if_pos hlong, htruncation]
      · intro hshort
        rw [if_neg hshort]
        split
        · exact ⟨_, rfl⟩
        · exact ⟨_, rfl⟩
  | noPadding =>
      dsimp only
      constructor
      · intro hlong
        rw [if_pos ⟨hlong, htruncation⟩]
      · intro hshort
        rw [if_neg fun h => hshort h.1, if_neg hshort]
        exact ⟨_, rfl⟩

/-- The counts of the inspector and what the dataset does at the same row. -/
structure PreflightAgrees (args : InspectArgs) (ds : MultiTurnSFTDataset) (rowId : PyStr) (row : Row)
    (item : ℕ) (part : Inspection) : Prop where
  lengths : part.totalLengths ≠ [] → ∃ messages tokens,
    ds.tokenized row = .ok (messages, tokens) ∧
    part.totalLengths = [tokens.inputIds.length] ∧
    part.assistantLossLengths = [tokens.lossMask.count 1]
  overlong : part.totalLengths ≠ [] → ds.config.truncation = .error →
    ds.config.maxLength = args.maxLength → ∀ tokens, ds.checkedTokens row = .ok tokens →
      (part.overlongIds = [rowId] ∧
        ds.getItem item = .error (lengthError tokens.inputIds.length ds.config.maxLength)) ∨
      (part.overlongIds = [] ∧ ∃ sample, ds.getItem item = .ok sample)

theorem preflightAgrees_of_inspectRow (htok : ds.tokenizer = env.tokenizer)
    (hsame : SameSettings args ds.config) {row : Row} {item : ℕ} {part : Inspection}
    (hrow : ds.dataframe.records[item]? = some row) (hscope : SftRowInScope ds.config row)
    (h : inspectRow env args ds.lens row item = .ok part) :
    PreflightAgrees args ds (sftRowId env row item) row item part := by
  constructor
  · intro hchecked
    obtain ⟨messages, tokens, htokens, htotal, hloss, -⟩ :=
      tokenized_of_inspectRow htok hsame hscope h hchecked
    exact ⟨messages, tokens, htokens, htotal, hloss⟩
  · intro hchecked htruncation hmax tokens htokens
    obtain ⟨messages, built, hbuilt, -, -, hoverlong⟩ :=
      tokenized_of_inspectRow htok hsame hscope h hchecked
    obtain ⟨messages', hbuilt'⟩ := tokenized_of_checkedTokens htokens
    rw [hbuilt] at hbuilt'
    obtain ⟨-, rfl⟩ := Prod.mk.inj (Except.ok.inj hbuilt')
    have hitem : ds.getItem item = ds.padOrTruncate built := by
      unfold MultiTurnSFTDataset.getItem
      rw [hrow]
      dsimp only [MultiTurnSFTDataset.getRow]
      rw [htokens]
      rfl
    obtain ⟨hlong, hshort⟩ := padOrTruncate_error htruncation built
    rw [hitem, hoverlong, ← hmax]
    by_cases hlength : ds.config.maxLength < built.inputIds.length
    · rw [if_pos hlength]
      exact .inl ⟨rfl, hlong hlength⟩
    · rw [if_neg hlength]
      exact .inr ⟨rfl, hshort hlength⟩

/-! ### A whole table -/

/-- The lists of several rows. -/
def Inspection.concat (parts : List Inspection) : Inspection where
  totalLengths := parts.flatMap (·.totalLengths)
  assistantLossLengths := parts.flatMap (·.assistantLossLengths)
  overlongIds := parts.flatMap (·.overlongIds)
  piLeakIds := parts.flatMap (·.piLeakIds)
  invalidRows := parts.flatMap (·.invalidRows)

theorem Inspection.concat_append (parts : List Inspection) (part : Inspection) :
    Inspection.concat (parts ++ [part]) = (Inspection.concat parts).append part := by
  simp [Inspection.concat, Inspection.append]

/-- The lists of the loop are those of the rows, one after another. -/
theorem inspectRows_eq_ok {lens : ℕ × ℕ} {rows : List Row} {lists : Inspection}
    (h : inspectRows env args lens rows = .ok lists) : ∃ parts,
      List.Forall₂ (fun p part => inspectRow env args lens p.1 p.2 = .ok part) rows.zipIdx parts ∧
      lists = Inspection.concat parts := by
  apply Checked.foldlM_invariant (P := fun (done : List (Row × ℕ)) lists => ∃ parts,
    List.Forall₂ (fun p part => inspectRow env args lens p.1 p.2 = .ok part) done parts ∧
    lists = Inspection.concat parts) ?_ ⟨[], .nil, rfl⟩ h
  rintro done st p st' ⟨parts, hparts, rfl⟩ hstep
  obtain ⟨part, hpart, hstep⟩ := Checked.bind_eq_ok_iff.mp hstep
  refine ⟨parts ++ [part], List.rel_append hparts (.cons hpart .nil), ?_⟩
  rw [Inspection.concat_append, ← Except.ok.inj hstep]

theorem headRows_initial (args : InspectArgs) (rows : List Row) : headRows args rows <+: rows := by
  unfold headRows
  split
  · exact List.prefix_rfl
  · exact List.take_prefix _ _

/-- The rows at the head of the table are the items of the dataset. -/
theorem getElem?_of_mem_headRows {rows : List Row} {p : Row × ℕ}
    (h : p ∈ (headRows args rows).zipIdx) : rows[p.2]? = some p.1 := by
  have hhead : (headRows args rows)[p.2]? = some p.1 := List.mk_mem_zipIdx_iff_getElem?.mp h
  obtain ⟨hi, heq⟩ := List.getElem?_eq_some_iff.mp hhead
  rw [← heq]
  exact List.prefix_iff_getElem?.mp (headRows_initial args rows) p.2 hi

theorem new_eq_ok {config : SftConfig} {tok : ChatTokenizer} {dataframe : DataFrame}
    (h : MultiTurnSFTDataset.new config tok dataframe = .ok ds) :
    ds.config = config ∧ ds.tokenizer = tok ∧ ds.dataframe = dataframe ∧
      extractSystemPromptAndGeneration tok config.applyChatTemplateKwargs =
        .ok (ds.systemPrompt, ds.generationPrompt) := by
  obtain ⟨-, h⟩ := Checked.guard_eq_ok_iff.mp h
  obtain ⟨prompts, hprompts, h⟩ := Checked.bind_eq_ok_iff.mp h
  obtain rfl := Except.ok.inj h
  exact ⟨rfl, rfl, rfl, hprompts⟩

/-- **The preflight counts what training builds.**  For every row of the table that is in scope:
where it is counted as checked, its two lengths are the length of the dataset's concatenated ids
and the number of ones in the loss mask; and past the sanity check it is overlong exactly when the
dataset raises its length error under `truncation="error"`. -/
theorem preflight_agrees {config : SftConfig} {dataframe : DataFrame} {lists : Inspection}
    {report : SftReport} (hsame : SameSettings args config)
    (hinspect : inspectDataframe env args dataframe = .ok (lists, report))
    (hds : MultiTurnSFTDataset.new config env.tokenizer dataframe = .ok ds) :
    report = sftReport env args (headRows args dataframe.records) lists ∧
    ∃ parts, lists = Inspection.concat parts ∧
      List.Forall₂ (fun p part =>
        inspectRow env args (promptPrefixLengths env.tokenizer) p.1 p.2 = .ok part ∧
          (SftRowInScope config p.1 →
            PreflightAgrees args ds (sftRowId env p.1 p.2) p.1 p.2 part))
        (headRows args dataframe.records).zipIdx parts := by
  obtain ⟨rfl, htok, hframe, hprompts⟩ := new_eq_ok hds
  obtain ⟨-, hinspect⟩ := Checked.guard_eq_ok_iff.mp hinspect
  obtain ⟨-, hinspect⟩ := Checked.guard_eq_ok_iff.mp hinspect
  obtain ⟨lists', hlists, hinspect⟩ := Checked.bind_eq_ok_iff.mp hinspect
  obtain ⟨rfl, rfl⟩ := Prod.mk.inj (Except.ok.inj hinspect)
  have hlens : promptPrefixLengths env.tokenizer = ds.lens := by
    unfold promptPrefixLengths
    rw [← hsame.no_kwargs, hprompts]
    rfl
  obtain ⟨parts, hparts, hconcat⟩ := inspectRows_eq_ok hlists
  refine ⟨rfl, parts, hconcat, ?_⟩
  have hitems := (List.forall₂_and_left _ _).mpr ⟨fun p => getElem?_of_mem_headRows, hparts⟩
  apply hitems.imp
  rintro p part ⟨hitem, hpart⟩
  refine ⟨hpart, ?_⟩
  intro hscope
  rw [hlens] at hpart
  rw [← hframe] at hitem
  exact preflightAgrees_of_inspectRow htok hsame hitem hscope hpart

end dataset

/-! ### A table of one row -/

/-- A marker of two ids, then for each message its characters, an answer behind a further id. -/
def charTokenizer : ChatTokenizer where
  applyChatTemplate call := .ok ([101, 102] ++ (call.messages.flatMap fun
    | .obj m => (if isRole "assistant" (Row.get roleKey m) then [201] else []) ++
        (match Row.get contentKey m with
          | .str s => s.map fun c => (c.toNat : ℤ)
          | _ => []) ++ [103]
    | _ => []) ++ if call.addGenerationPrompt then [201] else [])
  render _ _ := .ok []
  decode _ := .ok []
  padTokenId := none

def charEnv : InspectEnv where
  tokenizer := charTokenizer
  table := .ascii
  printer := ⟨fun _ => true, fun _ => []⟩
  percentiles _ := []

def shortArgs : InspectArgs := ⟨6, "messages".toList, some false, none⟩

def shortConfig (padMode : SftPadMode) : SftConfig where
  padMode := padMode
  truncation := .error
  maxLength := 6
  messagesKey := "messages".toList
  imageKey := "images".toList
  videoKey := "videos".toList
  toolsKey := "tools".toList
  enableThinkingKey := "enable_thinking".toList
  enableThinkingDefault := some false
  applyChatTemplateKwargs := []
  ignoreInputIdsMismatch := false

def chatMessage (role content : String) : Row :=
  [(roleKey, .str role.toList), (contentKey, .str content.toList)]

/-- A question and its answer. -/
def chatRow : Row := [("messages".toList, .arr [.obj (chatMessage "user" "ab"),
  .obj (chatMessage "assistant" "c")])]

def chatFrame : DataFrame where
  columns := ["messages".toList]
  records := [chatRow]
  keys_eq := by
    intro row hrow
    rw [List.mem_singleton.mp hrow]
    rfl

theorem chatRow_inScope (padMode : SftPadMode) : SftRowInScope (shortConfig padMode) chatRow where
  messages := by
    refine ⟨[chatMessage "user" "ab", chatMessage "assistant" "c"], rfl, ?_⟩
    intro m hm
    simp only [List.mem_cons, List.not_mem_nil, or_false] at hm
    rcases hm with rfl | rfl <;> exact ⟨⟨_, rfl⟩, _, rfl⟩
  no_tools := rfl
  no_images := rfl
  no_videos := rfl
  enableThinking := .inl rfl

theorem inspectDataframe_chatFrame : ∃ lists report,
    inspectDataframe charEnv shortArgs chatFrame = .ok (lists, report) ∧
      lists.totalLengths = [8] ∧ lists.overlongIds = ["0".toList] :=
  ⟨_, _, rfl, rfl, rfl⟩

theorem checkedTokens_chatRow : ∃ ds tokens,
    MultiTurnSFTDataset.new (shortConfig .noPadding) charEnv.tokenizer chatFrame = .ok ds ∧
      ds.config = shortConfig .noPadding ∧ ds.checkedTokens chatRow = .ok tokens :=
  ⟨_, _, rfl, rfl, rfl⟩

/-- The row of eight tokens is reported as overlong, and the dataset raises at it. -/
theorem preflight_agrees_overlong : ∃ lists report ds tokens,
    inspectDataframe charEnv shortArgs chatFrame = .ok (lists, report) ∧
    MultiTurnSFTDataset.new (shortConfig .noPadding) charEnv.tokenizer chatFrame = .ok ds ∧
    lists.totalLengths = [8] ∧ ds.checkedTokens chatRow = .ok tokens ∧
    ds.getItem 0 = .error (lengthError tokens.inputIds.length 6) := by
  obtain ⟨lists, report, hinspect, htotal, hoverlong⟩ := inspectDataframe_chatFrame
  obtain ⟨ds, tokens, hds, hconfig, htokens⟩ := checkedTokens_chatRow
  obtain ⟨-, parts, rfl, hparts⟩ :=
    preflight_agrees ⟨rfl, rfl, rfl, rfl⟩ hinspect hds
  refine ⟨_, report, ds, tokens, hinspect, hds, htotal, htokens, ?_⟩
  obtain ⟨part, rest, ⟨-, hpart⟩, hrest, rfl⟩ := List.forall₂_cons_left_iff.mp hparts
  obtain rfl := List.forall₂_nil_left_iff.mp hrest
  have htotal : part.totalLengths ++ [] = [8] := htotal
  have hoverlong : part.overlongIds ++ [] = ["0".toList] := hoverlong
  rw [List.append_nil] at htotal hoverlong
  have hagrees := hpart (chatRow_inScope .noPadding)
  have hcases := hagrees.overlong (by simp [htotal]) (by rw [hconfig]; rfl) (by rw [hconfig]; rfl)
    tokens htokens
  rcases hcases with ⟨-, herror⟩ | ⟨hnone, -⟩
  · rw [herror, hconfig]
    rfl
  · rw [hnone] at hoverlong
    cases hoverlong

end ExtpiRlsd
