import ExtpiRlsd.SftLengths

/-! # The counts of the inspector

`inspect_dataframe` records a row as invalid at four places, one of them inside the loop over its
messages, and counts the distinct ids of what it recorded.  `inspectRow_spec` says what one row
adds to the lists: it is checked when it passes (`sftRowPasses`), and recorded unless it passes and
all its messages are dictionaries.  `inspector_conserves_iff` adds the rows up. -/

namespace ExtpiRlsd

open PyText PyData

/-! ### Distinct entries -/

theorem length_eraseDups {α : Type*} [DecidableEq α] [BEq α] [LawfulBEq α] (l : List α) :
    l.eraseDups.length = l.toFinset.card := by
  induction hn : l.length using Nat.strong_induction_on generalizing l with
  | _ n ih =>
      cases l with
      | nil => rfl
      | cons a l =>
          have hshort : (l.filter fun b => !b == a).length < n := by
            have hle := List.length_filter_le (fun b => !b == a) l
            rw [List.length_cons] at hn
            omega
          have hnot : a ∉ (l.filter fun b => !b == a).toFinset := by simp
          have hset : (a :: l).toFinset = insert a (l.filter fun b => !b == a).toFinset := by
            ext b
            by_cases hb : b = a <;> simp [hb]
          rw [List.eraseDups_cons, List.length_cons, ih _ hshort _ rfl, hset,
            Finset.card_insert_of_notMem hnot]

theorem card_toFinset_eq_length_iff {α : Type*} [DecidableEq α] (l : List α) :
    l.toFinset.card = l.length ↔ l.Nodup :=
  Multiset.toFinset_card_eq_card_iff_nodup (m := (l : Multiset α))

/-! ### What a row must have -/

/-- A message is a dictionary. -/
def isMessage : Json → Bool
  | .obj _ => true
  | _ => false

section rows
variable (env : InspectEnv) (args : InspectArgs) (lens : ℕ × ℕ)

/-- An assistant message with a text that is not blank. -/
def answers : Json → Bool
  | .obj message => isRole "assistant" (Row.get roleKey message) &&
      !(strip (sftMessageContent env message)).isEmpty
  | _ => false

/-- The tokens of an assistant message behind the prefixes of the template. -/
def trainedTokens (enableThinking : Option Bool) (p : Json × ℕ) : ℕ :=
  match p.1 with
  | .obj message =>
      let role := Row.get roleKey message
      match tokenIdsFromTemplate env.tokenizer [.obj message] enableThinking with
      | .ok tokenIds =>
          if isRole "assistant" role then
            (if p.2 ≠ 0 ∧ isRole "system" role = false then tokenIds.length - lens.1
              else tokenIds.length) - lens.2
          else 0
      | .error _ => 0
  | _ => 0

/-- At least two messages, a user and an assistant among them, an answer, and tokens to train. -/
def messagesPass (enableThinking : Option Bool) (messages : List Json) : Bool :=
  decide (2 ≤ messages.length) &&
    ((roles messages).any (isRole "user") && (roles messages).any (isRole "assistant")) &&
    (messages.any (answers env) &&
      messages.zipIdx.any fun p => decide (0 < trainedTokens env lens enableThinking p))

/-- The row passes the checks. -/
def sftRowPasses (row : Row) : Bool :=
  match Row.get args.messagesKey row with
  | .arr messages => messagesPass env lens
      (rowThinking "enable_thinking".toList args.enableThinkingDefault row) messages
  | _ => false

/-- The messages of the row are a list of dictionaries. -/
def allMessages (row : Row) : Bool :=
  match Row.get args.messagesKey row with
  | .arr messages => messages.all isMessage
  | _ => false

end rows

/-! ### One row -/

section row
variable {env : InspectEnv} {args : InspectArgs} {lens : ℕ × ℕ} {enableThinking : Option Bool}
  {rowId : PyStr}

/-- The loop over the messages: what it has recorded, seen and counted. -/
theorem inspectMessages_totals {messages : List (Json × ℕ)} {totals : MessageTotals}
    (h : messages.foldlM (inspectMessage env lens rowId enableThinking) .initial = .ok totals) :
    totals.invalidRows = (messages.filter fun p => !isMessage p.1).map (fun _ => rowId) ∧
      totals.assistantHasContent = messages.any (fun p => answers env p.1) ∧
      totals.assistantLossLength =
        (messages.map (trainedTokens env lens enableThinking)).sum := by
  apply Checked.foldlM_invariant (fun (done : List (Json × ℕ)) (st : MessageTotals) =>
    st.invalidRows = (done.filter fun p => !isMessage p.1).map (fun _ => rowId) ∧
    st.assistantHasContent = done.any (fun p => answers env p.1) ∧
    st.assistantLossLength = (done.map (trainedTokens env lens enableThinking)).sum) ?_
    ⟨rfl, rfl, rfl⟩ h
  rintro done st ⟨message, index⟩ st' ⟨hinvalid, hcontent, hloss⟩ hstep
  rw [List.filter_append, List.map_append, List.any_append, List.map_append, List.sum_append,
    ← hinvalid, ← hcontent, ← hloss]
  cases message with
  | obj message =>
      obtain ⟨ids, hids, hstep⟩ := Checked.bind_eq_ok_iff.mp hstep
      obtain rfl := Except.ok.inj hstep
      refine ⟨(List.append_nil _).symm, ?_, ?_⟩
      · simp [addMessage, answers]
      · simp only [addMessage, List.map_cons, List.map_nil, List.sum_cons, List.sum_nil,
          trainedTokens, hids, Nat.add_zero]
  | null | bool | int | float | str | arr =>
      obtain rfl := Except.ok.inj hstep
      exact ⟨rfl, (Bool.or_false _).symm, rfl⟩

/-- The row is recorded as invalid unless it passes and has only dictionaries as messages. -/
def sftRowRecorded (env : InspectEnv) (args : InspectArgs) (lens : ℕ × ℕ) (row : Row) : Bool :=
  !(sftRowPasses env args lens row && allMessages args row)

theorem filter_isMessage_eq_nil (messages : List Json) (rowId : PyStr) :
    (messages.zipIdx.filter fun p => !isMessage p.1).map (fun _ => rowId) = [] ↔
      messages.all isMessage = true := by
  have hfst : messages.zipIdx.map Prod.fst = messages := List.zipIdx_map_fst 0 messages
  have hall : messages.all isMessage = messages.zipIdx.all (isMessage ∘ Prod.fst) := by
    rw [← List.all_map, hfst]
  rw [List.map_eq_nil_iff, List.filter_eq_nil_iff, hall, List.all_eq_true]
  apply forall₂_congr
  intro p _
  rw [Bool.not_eq_true', Bool.not_eq_false]
  rfl

/-- A row behind the loop over its messages. -/
theorem rowTotals_spec (args : InspectArgs) {messages : List Json} {totals : MessageTotals}
    (hlength : 2 ≤ messages.length)
    (hroles : ((roles messages).any (isRole "user") && (roles messages).any (isRole "assistant")) =
      true)
    (h : messages.zipIdx.foldlM (inspectMessage env lens rowId enableThinking) .initial =
      .ok totals) :
    (rowTotals args rowId totals).totalLengths.length =
        (messagesPass env lens enableThinking messages).toNat ∧
      ((rowTotals args rowId totals).invalidRows = [] ↔
        messagesPass env lens enableThinking messages = true ∧ messages.all isMessage = true) ∧
      ∀ id ∈ (rowTotals args rowId totals).invalidRows, id = rowId := by
  obtain ⟨hinvalid, hcontent, hloss⟩ := inspectMessages_totals h
  have hfst : messages.zipIdx.map Prod.fst = messages := List.zipIdx_map_fst 0 messages
  have hanswers : totals.assistantHasContent = messages.any (answers env) := by
    have hany : (messages.zipIdx.map Prod.fst).any (answers env) =
        messages.zipIdx.any fun p => answers env p.1 := List.any_map
    rw [hcontent, ← hany, hfst]
  have htrained : (messages.zipIdx.any fun p =>
      decide (0 < trainedTokens env lens enableThinking p)) =
        decide (0 < totals.assistantLossLength) := by
    rw [hloss, Bool.eq_iff_iff, decide_eq_true_iff, List.any_eq_true, List.sum_pos_iff_exists_pos_nat]
    simp
  have hids : ∀ id ∈ totals.invalidRows, id = rowId := by
    intro id hid
    rw [hinvalid] at hid
    obtain ⟨-, -, rfl⟩ := List.mem_map.mp hid
    rfl
  have hpass : messagesPass env lens enableThinking messages =
      (totals.assistantHasContent && decide (0 < totals.assistantLossLength)) := by
    rw [messagesPass, hroles, decide_eq_true hlength, htrained, hanswers, Bool.true_and,
      Bool.true_and]
  rw [hpass, ← filter_isMessage_eq_nil messages rowId, ← hinvalid]
  unfold rowTotals
  by_cases hfail : totals.assistantHasContent = false ∨ totals.assistantLossLength = 0
  · have hfalse : (totals.assistantHasContent && decide (0 < totals.assistantLossLength)) =
        false := by
      rcases hfail with hfail | hfail
      · rw [hfail, Bool.false_and]
      · rw [hfail, decide_eq_false (lt_irrefl 0), Bool.and_false]
    rw [if_pos hfail, hfalse]
    refine ⟨rfl, ⟨fun hnil => ?_, fun hnil => absurd hnil.1 Bool.false_ne_true⟩, ?_⟩
    · exact absurd hnil (List.append_ne_nil_of_right_ne_nil _ (List.cons_ne_nil _ _))
    · intro id hid
      rcases List.mem_append.mp hid with hid | hid
      · exact hids id hid
      · exact List.mem_singleton.mp hid
  · rw [not_or, Bool.not_eq_false] at hfail
    have htrue : (totals.assistantHasContent && decide (0 < totals.assistantLossLength)) =
        true := by
      rw [hfail.1, decide_eq_true (Nat.pos_of_ne_zero hfail.2), Bool.and_self]
    rw [if_neg (not_or.mpr ⟨by rw [hfail.1]; exact Bool.false_ne_true.symm, hfail.2⟩), htrue]
    exact ⟨rfl, ⟨fun hnil => ⟨rfl, hnil⟩, fun hnil => hnil.2⟩, hids⟩

/-- What one row adds to the lists. -/
theorem inspectRow_spec {row : Row} {index : ℕ} {part : Inspection}
    (h : inspectRow env args lens row index = .ok part) :
    part.totalLengths.length = (sftRowPasses env args lens row).toNat ∧
      (part.invalidRows = [] ↔ sftRowRecorded env args lens row = false) ∧
      ∀ id ∈ part.invalidRows, id = sftRowId env row index := by
  obtain ⟨value, hvalue, h⟩ := Checked.bind_eq_ok_iff.mp h
  have hget : Row.get args.messagesKey row = value := by
    unfold sftItem at hvalue
    split at hvalue
    · next v hv => rw [Row.get, hv, Except.ok.inj hvalue, Option.getD_some]
    · cases hvalue
  -- a row that is invalid at once does not pass
  have hatOnce : ∀ pass, pass = false → part = invalidRow (sftRowId env row index) →
      part.totalLengths.length = Bool.toNat pass ∧
        (part.invalidRows = [] ↔ (!(pass && allMessages args row)) = false) ∧
        ∀ id ∈ part.invalidRows, id = sftRowId env row index := by
    rintro _ rfl rfl
    refine ⟨rfl, ⟨fun hnil => absurd hnil (List.cons_ne_nil _ _), fun hnil => ?_⟩, ?_⟩
    · rw [Bool.false_and] at hnil
      cases hnil
    · intro id hid
      exact List.mem_singleton.mp hid
  unfold sftRowRecorded sftRowPasses
  rw [hget]
  cases value with
  | arr messages =>
      dsimp only at h ⊢
      split at h
      · next hshort =>
          refine hatOnce _ ?_ (Except.ok.inj h).symm
          rw [messagesPass, decide_eq_false (not_le.mpr hshort)]
          rfl
      · next hlength =>
          split at h
          · next hroles =>
              obtain ⟨totals, htotals, h⟩ := Checked.bind_eq_ok_iff.mp h
              rw [← Except.ok.inj h]
              have hspec := rowTotals_spec args (not_lt.mp hlength) hroles htotals
              have hall : allMessages args row = messages.all isMessage := by
                rw [allMessages, hget]
              rw [hall, Bool.not_eq_false', Bool.and_eq_true]
              exact hspec
          · next hroles =>
              refine hatOnce _ ?_ (Except.ok.inj h).symm
              rw [messagesPass, Bool.eq_false_iff.mpr hroles, Bool.and_false, Bool.false_and]
  | null | bool | int | float | str | obj => exact hatOnce _ rfl (Except.ok.inj h).symm

end row

/-! ### The whole table -/

section table
variable (env : InspectEnv) (args : InspectArgs) (lens : ℕ × ℕ)

/-- The row is counted as checked. -/
def IsChecked (p : Row × ℕ) : Prop :=
  ∃ part, inspectRow env args lens p.1 p.2 = .ok part ∧ part.totalLengths ≠ []

/-- The row is recorded as invalid. -/
def IsInvalid (p : Row × ℕ) : Prop :=
  ∃ part, inspectRow env args lens p.1 p.2 = .ok part ∧ part.invalidRows ≠ []

/-- The messages of the row are not all dictionaries, or lack a user, an assistant or an answer. -/
def MalformedMessages (row : Row) : Prop :=
  ∀ messages, Row.get args.messagesKey row = .arr messages →
    messages.all isMessage = false ∨ (roles messages).any (isRole "user") = false ∨
      (roles messages).any (isRole "assistant") = false ∨ messages.any (answers env) = false

/-- Every row of the table is counted once, the malformed ones as invalid. -/
structure CountsOnce (rows : List Row) (lists : Inspection) (report : SftReport) : Prop where
  conserved : report.checkedRows + report.invalidRowCount = report.rows
  exclusive : ∀ p ∈ rows.zipIdx, ¬ (IsChecked env args lens p ∧ IsInvalid env args lens p)
  malformed : ∀ p ∈ rows.zipIdx, MalformedMessages env args p.1 →
    IsInvalid env args lens p ∧ sftRowId env p.1 p.2 ∈ lists.invalidRows

/-- The ids of the rows that fail the checks. -/
def failedIds (rows : List Row) : List PyStr :=
  (rows.zipIdx.filter fun p => !sftRowPasses env args lens p.1).map fun p => sftRowId env p.1 p.2

end table

section counts
variable {env : InspectEnv} {args : InspectArgs} {lens : ℕ × ℕ} {rows : List Row}
  {pairs : List (Row × ℕ)} {parts : List Inspection}
  (hparts : List.Forall₂ (fun p part => inspectRow env args lens p.1 p.2 = .ok part) pairs parts)
include hparts

theorem length_totalLengths :
    (Inspection.concat parts).totalLengths.length =
      pairs.countP fun p => sftRowPasses env args lens p.1 := by
  unfold Inspection.concat
  dsimp only
  induction hparts with
  | nil => rfl
  | cons hpart _ ih =>
      rw [List.flatMap_cons, List.length_append, List.countP_cons, ih, (inspectRow_spec hpart).1,
        Nat.add_comm]
      cases sftRowPasses env args lens _ <;> rfl

theorem mem_invalidRows {id : PyStr} :
    id ∈ (Inspection.concat parts).invalidRows ↔
      ∃ p ∈ pairs, sftRowRecorded env args lens p.1 = true ∧ sftRowId env p.1 p.2 = id := by
  unfold Inspection.concat
  dsimp only
  induction hparts with
  | nil => simp
  | @cons p part _ _ hpart _ ih =>
      obtain ⟨-, hnil, hids⟩ := inspectRow_spec hpart
      have hhead : id ∈ part.invalidRows ↔
          sftRowRecorded env args lens p.1 = true ∧ sftRowId env p.1 p.2 = id := by
        constructor
        · intro hid
          refine ⟨?_, (hids id hid).symm⟩
          rw [← Bool.not_eq_false, ← hnil]
          exact List.ne_nil_of_mem hid
        · rintro ⟨hrecorded, rfl⟩
          rw [← Bool.not_eq_false, ← hnil] at hrecorded
          obtain ⟨id, hid⟩ := List.exists_mem_of_ne_nil _ hrecorded
          rwa [← hids id hid]
      simp only [List.flatMap_cons, List.mem_append, ih, hhead, List.mem_cons, exists_eq_or_imp]

/-- Where all rows that pass are well formed, the recorded rows are those that fail the checks. -/
theorem invalidRows_toFinset
    (hmessages : ∀ p ∈ pairs, sftRowPasses env args lens p.1 = true → allMessages args p.1 = true) :
    (Inspection.concat parts).invalidRows.toFinset =
      ((pairs.filter fun p => !sftRowPasses env args lens p.1).map fun p =>
        sftRowId env p.1 p.2).toFinset := by
  ext id
  rw [List.mem_toFinset, List.mem_toFinset, mem_invalidRows hparts, List.mem_map]
  apply exists_congr
  intro p
  rw [List.mem_filter, and_assoc]
  apply and_congr_right
  intro hp
  apply and_congr_left
  intro _
  have hwell := hmessages p hp
  unfold sftRowRecorded
  cases hpasses : sftRowPasses env args lens p.1 with
  | false => rw [Bool.false_and]
  | true => rw [hwell hpasses, Bool.and_self]

theorem isChecked_iff {p : Row × ℕ} (hp : p ∈ pairs) :
    IsChecked env args lens p ↔ sftRowPasses env args lens p.1 = true := by
  obtain ⟨part, -, hpart⟩ := Checked.exists_of_forall₂ hparts hp
  have hlength := (inspectRow_spec hpart).1
  constructor
  · rintro ⟨part', hpart', hne⟩
    obtain rfl := Except.ok.inj (hpart.symm.trans hpart')
    cases hpasses : sftRowPasses env args lens p.1 with
    | true => rfl
    | false =>
        rw [hpasses] at hlength
        exact absurd (List.length_eq_zero_iff.mp hlength) hne
  · intro hpasses
    refine ⟨part, hpart, List.ne_nil_of_length_pos ?_⟩
    rw [hlength, hpasses]
    exact Nat.one_pos

theorem isInvalid_iff {p : Row × ℕ} (hp : p ∈ pairs) :
    IsInvalid env args lens p ↔ sftRowRecorded env args lens p.1 = true := by
  obtain ⟨part, -, hpart⟩ := Checked.exists_of_forall₂ hparts hp
  have hnil := (inspectRow_spec hpart).2.1
  rw [← Bool.not_eq_false, ← hnil]
  constructor
  · rintro ⟨part', hpart', hne⟩
    obtain rfl := Except.ok.inj (hpart.symm.trans hpart')
    exact hne
  · intro hne
    exact ⟨part, hpart, hne⟩

end counts

theorem recorded_of_malformed {env : InspectEnv} {args : InspectArgs} (lens : ℕ × ℕ) {row : Row}
    (h : MalformedMessages env args row) : sftRowRecorded env args lens row = true := by
  unfold MalformedMessages at h
  unfold sftRowRecorded sftRowPasses allMessages
  cases hmessages : Row.get args.messagesKey row with
  | arr messages =>
      unfold messagesPass
      rcases h messages hmessages with h | h | h | h
      · simp [h]
      · simp [h]
      · simp [h]
      · simp [h]
  | null | bool | int | float | str | obj => rfl

/-- **The inspector counts every row once** exactly when every row that passes the checks has only
dictionaries as messages, and the rows that fail them have different ids. -/
theorem inspector_conserves_iff {env : InspectEnv} {args : InspectArgs} {dataframe : DataFrame}
    {lists : Inspection} {report : SftReport}
    (h : inspectDataframe env args dataframe = .ok (lists, report)) :
    CountsOnce env args (promptPrefixLengths env.tokenizer) (headRows args dataframe.records) lists
        report ↔
      (∀ row ∈ headRows args dataframe.records,
        sftRowPasses env args (promptPrefixLengths env.tokenizer) row = true →
          allMessages args row = true) ∧
      (failedIds env args (promptPrefixLengths env.tokenizer)
        (headRows args dataframe.records)).Nodup := by
  obtain ⟨-, h⟩ := Checked.guard_eq_ok_iff.mp h
  obtain ⟨-, h⟩ := Checked.guard_eq_ok_iff.mp h
  obtain ⟨lists', hrows, h⟩ := Checked.bind_eq_ok_iff.mp h
  obtain ⟨rfl, rfl⟩ := Prod.mk.inj (Except.ok.inj h)
  obtain ⟨parts, hparts, rfl⟩ := inspectRows_eq_ok hrows
  generalize headRows args dataframe.records = rows at hparts ⊢
  generalize promptPrefixLengths env.tokenizer = lens at hparts ⊢
  have hexclusive : (∀ p ∈ rows.zipIdx, ¬ (IsChecked env args lens p ∧ IsInvalid env args lens p)) ↔
      ∀ row ∈ rows, sftRowPasses env args lens row = true → allMessages args row = true := by
    have hfst : rows.zipIdx.map Prod.fst = rows := List.zipIdx_map_fst 0 rows
    rw [← hfst, List.forall_mem_map, hfst]
    apply forall₂_congr
    intro p hp
    rw [isChecked_iff hparts hp, isInvalid_iff hparts hp, sftRowRecorded]
    cases sftRowPasses env args lens p.1 <;> cases allMessages args p.1 <;> decide
  have hmalformed : ∀ p ∈ rows.zipIdx, MalformedMessages env args p.1 →
      IsInvalid env args lens p ∧ sftRowId env p.1 p.2 ∈ (Inspection.concat parts).invalidRows := by
    intro p hp hbad
    have hrecorded := recorded_of_malformed lens hbad
    exact ⟨(isInvalid_iff hparts hp).mpr hrecorded,
      (mem_invalidRows hparts).mpr ⟨p, hp, hrecorded, rfl⟩⟩
  have hconserved : (∀ row ∈ rows, sftRowPasses env args lens row = true →
      allMessages args row = true) → ((Inspection.concat parts).totalLengths.length +
        (Inspection.concat parts).invalidRows.eraseDups.length = rows.length ↔
          (failedIds env args lens rows).Nodup) := by
    intro hmessages
    have hset := invalidRows_toFinset hparts fun p hp =>
      hmessages p.1 (List.fst_mem_of_mem_zipIdx hp)
    have hcount : rows.length = rows.zipIdx.countP (fun p => sftRowPasses env args lens p.1) +
        rows.zipIdx.countP fun p => !sftRowPasses env args lens p.1 := by
      rw [← List.length_zipIdx (l := rows) (i := 0),
        List.length_eq_countP_add_countP fun p => sftRowPasses env args lens p.1]
      simp
    rw [length_totalLengths hparts, length_eraseDups, hset, ← card_toFinset_eq_length_iff,
      failedIds, List.length_map, ← List.countP_eq_length_filter]
    omega
  constructor
  · intro hcounts
    have hmessages := hexclusive.mp hcounts.exclusive
    exact ⟨hmessages, (hconserved hmessages).mp hcounts.conserved⟩
  · rintro ⟨hmessages, hnodup⟩
    exact ⟨(hconserved hmessages).mpr hnodup, hexclusive.mpr hmessages, hmalformed⟩

/-- A record with an id. -/
def identified (messages : List Json) : Row :=
  [("id".toList, .str "a".toList), ("messages".toList, .arr messages)]

def identifiedFrame (tables : List (List Json)) : DataFrame where
  columns := ["id".toList, "messages".toList]
  records := tables.map identified
  keys_eq := by
    intro row hrow
    obtain ⟨messages, -, rfl⟩ := List.mem_map.mp hrow
    rfl

/-- A conversation with a text between its messages. -/
def mixedMessages : List Json :=
  [.obj (chatMessage "user" "ab"), .str "x".toList, .obj (chatMessage "assistant" "c")]

/-- A row with a text among its messages is checked and invalid; two invalid rows with one id count
as one. -/
theorem inspector_counts_off :
    (∃ lists report,
      inspectDataframe charEnv shortArgs (identifiedFrame [mixedMessages]) = .ok (lists, report) ∧
      report.rows = 1 ∧ report.checkedRows = 1 ∧ report.invalidRowCount = 1 ∧
      ¬ CountsOnce charEnv shortArgs (promptPrefixLengths charTokenizer) [identified mixedMessages]
        lists report) ∧
    ∃ lists report,
      inspectDataframe charEnv shortArgs (identifiedFrame [[], []]) = .ok (lists, report) ∧
      report.rows = 2 ∧ report.checkedRows = 0 ∧ report.invalidRowCount = 1 ∧
      ¬ CountsOnce charEnv shortArgs (promptPrefixLengths charTokenizer) [identified [],
        identified []] lists report := by
  constructor
  · refine ⟨_, _, rfl, rfl, rfl, rfl, fun h => ?_⟩
    exact absurd h.conserved (by decide)
  · refine ⟨_, _, rfl, rfl, rfl, rfl, fun h => ?_⟩
    exact absurd h.conserved (by decide)

/-- The question with its answer is counted once. -/
theorem inspector_conserves_chatFrame : ∃ lists report,
    inspectDataframe charEnv shortArgs chatFrame = .ok (lists, report) ∧
      CountsOnce charEnv shortArgs (promptPrefixLengths charTokenizer) [chatRow] lists report := by
  obtain ⟨lists, report, hinspect, -, -⟩ := inspectDataframe_chatFrame
  refine ⟨lists, report, hinspect, (inspector_conserves_iff hinspect).mpr ⟨?_, ?_⟩⟩
  · intro row hrow _
    obtain rfl := List.mem_singleton.mp hrow
    rfl
  · exact List.nodup_nil

end ExtpiRlsd
