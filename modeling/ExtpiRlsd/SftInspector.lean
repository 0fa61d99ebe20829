import ExtpiRlsd.Lib.JsonLines
import ExtpiRlsd.Lib.PyWords
import ExtpiRlsd.SftDataset

/-! # The inspector of training tables

`inspect_sft_parquet.py`: before training, each row is checked and its tokens are counted message
by message.  The counts stand beside those of the dataset in `SftLengths`.

The loop over the rows only appends to its five lists, so what it does with one row is the five
lists of that row (`inspectRow`). -/

namespace ExtpiRlsd

open PyText PyData

/-- What the inspector takes from outside. -/
structure InspectEnv where
  tokenizer : ChatTokenizer
  table : CharTable
  printer : Json.Printer
  /-- `_percentiles`. -/
  percentiles : List ℕ → Row

structure InspectArgs where
  maxLength : ℤ
  messagesKey : PyStr
  enableThinkingDefault : Option Bool
  maxRows : Option ℤ

/-- `PI_LEAK_PATTERNS`. -/
def piLeakPatterns : List PyStr := ["qwen8b_pi_trace".toList, "qwen32b_pi_trace".toList,
  "privileged".toList, "teacher trace".toList]

/-- The five lists of the loop. -/
structure Inspection where
  totalLengths : List ℕ
  assistantLossLengths : List ℕ
  overlongIds : List PyStr
  piLeakIds : List PyStr
  invalidRows : List PyStr
deriving DecidableEq

def Inspection.empty : Inspection := ⟨[], [], [], [], []⟩

def Inspection.append (a b : Inspection) : Inspection where
  totalLengths := a.totalLengths ++ b.totalLengths
  assistantLossLengths := a.assistantLossLengths ++ b.assistantLossLengths
  overlongIds := a.overlongIds ++ b.overlongIds
  piLeakIds := a.piLeakIds ++ b.piLeakIds
  invalidRows := a.invalidRows ++ b.invalidRows

/-- What `inspect_dataframe` returns. -/
structure SftReport where
  rows : ℕ
  checkedRows : ℕ
  invalidRowCount : ℕ
  invalidRowIds : List PyStr
  maxLength : ℤ
  totalTokens : Row
  assistantLossTokens : Row
  overlongCount : ℕ
  overlongIds : List PyStr
  piLeakCount : ℕ
  piLeakIds : List PyStr
  patterns : List PyStr

/-- The state of the loop over the messages of a row. -/
structure MessageTotals where
  totalLength : ℕ
  assistantLossLength : ℕ
  assistantHasContent : Bool
  piLeakIds : List PyStr
  invalidRows : List PyStr

def MessageTotals.initial : MessageTotals := ⟨0, 0, false, [], []⟩

/-- `_token_ids_from_template`. -/
def tokenIdsFromTemplate (tok : ChatTokenizer) (messages : List Json)
    (enableThinking : Option Bool) : Except SftError (List ℤ) :=
  tok.applyChatTemplate ⟨messages, .null, false, withThinking enableThinking []⟩

/-- `_prompt_prefix_lengths`. -/
def promptPrefixLengths (tok : ChatTokenizer) : ℕ × ℕ :=
  match extractSystemPromptAndGeneration tok [] with
  | .ok (systemPrompt, generationPrompt) => (systemPrompt.length, generationPrompt.length)
  | .error _ => (0, 0)

section inspect
variable (env : InspectEnv) (args : InspectArgs)

/-- `_message_content`. -/
def sftMessageContent (message : Row) : PyStr :=
  match Row.getD contentKey (.str []) message with
  | .str content => content
  | content => content.dumps env.printer.floatRepr

/-- `_row_id`. -/
def sftRowId (row : Row) (index : ℕ) : PyStr :=
  match Row.get "id".toList row with
  | .null => match Row.get "extra_info".toList row with
    | .obj extraInfo => match Row.get "id".toList extraInfo with
      | .null => (toString index).toList
      | id => id.toStr env.printer
    | _ => (toString index).toList
  | id => id.toStr env.printer

/-- The roles of the messages that are dictionaries. -/
def roles (messages : List Json) : List Json :=
  messages.filterMap fun
    | .obj message => some (Row.get roleKey message)
    | _ => none

/-- A user's text with a leak pattern. -/
def leaks (role : Json) (content : PyStr) : Bool :=
  isRole "user" role && piLeakPatterns.any fun pattern => contains (lower env.table content) pattern

/-- The totals with those of a message and its token ids. -/
def addMessage (lens : ℕ × ℕ) (rowId : PyStr) (st : MessageTotals) (index : ℕ) (message : Row)
    (tokenIds : List ℤ) : MessageTotals :=
  let content := sftMessageContent env message
  let role := Row.get roleKey message
  let effectiveLength :=
    if index ≠ 0 ∧ isRole "system" role = false then tokenIds.length - lens.1 else tokenIds.length
  { totalLength := st.totalLength + effectiveLength
    assistantLossLength := st.assistantLossLength +
      if isRole "assistant" role then effectiveLength - lens.2 else 0
    assistantHasContent := st.assistantHasContent ||
      (isRole "assistant" role && !(strip content).isEmpty)
    piLeakIds := st.piLeakIds ++ if leaks env role content then [rowId] else []
    invalidRows := st.invalidRows }

/-- The loop body at one message. -/
def inspectMessage (lens : ℕ × ℕ) (rowId : PyStr) (enableThinking : Option Bool)
    (st : MessageTotals) (p : Json × ℕ) : Except SftError MessageTotals :=
  match p.1 with
  | .obj message => do
      let tokenIds ← tokenIdsFromTemplate env.tokenizer [.obj message] enableThinking
      return addMessage env lens rowId st p.2 message tokenIds
  | _ => .ok { st with invalidRows := st.invalidRows ++ [rowId] }

/-- The lists of a row that is invalid at once. -/
def invalidRow (rowId : PyStr) : Inspection := { Inspection.empty with invalidRows := [rowId] }

/-- The lists of a row behind the loop over its messages. -/
def rowTotals (rowId : PyStr) (totals : MessageTotals) : Inspection :=
  if totals.assistantHasContent = false ∨ totals.assistantLossLength = 0 then
    { Inspection.empty with piLeakIds := totals.piLeakIds
                            invalidRows := totals.invalidRows ++ [rowId] }
  else {
    totalLengths := [totals.totalLength]
    assistantLossLengths := [totals.assistantLossLength]
    overlongIds := if args.maxLength < totals.totalLength then [rowId] else []
    piLeakIds := totals.piLeakIds
    invalidRows := totals.invalidRows }

/-- The loop body at one row. -/
def inspectRow (lens : ℕ × ℕ) (row : Row) (index : ℕ) : Except SftError Inspection := do
  let rowId := sftRowId env row index
  let messages ← sftItem args.messagesKey row
  match messages with
  | .arr messages =>
      if messages.length < 2 then return invalidRow rowId
      else if (roles messages).any (isRole "user") && (roles messages).any (isRole "assistant") then
        let enableThinking := rowThinking "enable_thinking".toList args.enableThinkingDefault row
        let totals ← messages.zipIdx.foldlM (inspectMessage env lens rowId enableThinking) .initial
        return rowTotals args rowId totals
      else return invalidRow rowId
  | _ => return invalidRow rowId

/-- The loop over the rows. -/
def inspectRows (lens : ℕ × ℕ) (rows : List Row) : Except SftError Inspection :=
  rows.zipIdx.foldlM (fun st p => do
    let part ← inspectRow env args lens p.1 p.2
    return st.append part) .empty

/-- `dataframe.head(max_rows)`. -/
def headRows (rows : List Row) : List Row :=
  match args.maxRows with
  | none => rows
  | some k => sliceTo k rows

def sftReport (rows : List Row) (lists : Inspection) : SftReport where
  rows := rows.length
  checkedRows := lists.totalLengths.length
  invalidRowCount := lists.invalidRows.eraseDups.length
  invalidRowIds := lists.invalidRows.eraseDups.take 20
  maxLength := args.maxLength
  totalTokens := env.percentiles lists.totalLengths
  assistantLossTokens := env.percentiles lists.assistantLossLengths
  overlongCount := lists.overlongIds.length
  overlongIds := lists.overlongIds.take 20
  piLeakCount := lists.piLeakIds.eraseDups.length
  piLeakIds := lists.piLeakIds.eraseDups.take 20
  patterns := piLeakPatterns

/-- `inspect_dataframe`: the lists of the loop and the report on them. -/
def inspectDataframe (dataframe : DataFrame) : Except SftError (Inspection × SftReport) := do
  if dataframe.records.isEmpty || dataframe.columns.isEmpty then
    throw (.valueError "SFT parquet is empty".toList)
  if !dataframe.columns.contains args.messagesKey then
    throw (.valueError ("SFT parquet missing messages field ".toList ++
      reprStr env.printer.printable args.messagesKey))
  let rows := headRows args dataframe.records
  let lists ← inspectRows env args (promptPrefixLengths env.tokenizer) rows
  return (lists, sftReport env args rows lists)

end inspect

end ExtpiRlsd
