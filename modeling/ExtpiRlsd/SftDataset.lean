import ExtpiRlsd.Lib.Checked
import ExtpiRlsd.Lib.PyData

/-! # The multi-turn dataset

`multiturn_sft_dataset.py` without a processor: a row's messages go through the chat template one
by one, and what the template puts before them is cut off again.  The token ids are concatenated,
compared with those of the whole conversation, and padded or truncated.

The chat template is a parameter, a function of what it is called with to token ids; the forms in
which libraries wrap the ids are one list here. -/

namespace ExtpiRlsd

open PyText PyData

/-! ### Chat templates -/

/-- The exceptions with their texts; `template` is what a chat template raises. -/
inductive SftError where
  | keyError (key : PyStr)
  | indexError
  | typeError
  | runtimeError (text : PyStr)
  | assertionError (text : PyStr)
  | valueError (text : PyStr)
  | template (text : PyStr)
deriving DecidableEq

structure TemplateCall where
  messages : List Json
  tools : Json
  addGenerationPrompt : Bool
  kwargs : Row

structure ChatTokenizer where
  applyChatTemplate : TemplateCall → Except SftError (List ℤ)
  /-- `apply_chat_template` with `tokenize=False`. -/
  render : List Json → Json → Except SftError PyStr
  decode : List ℤ → Except SftError PyStr
  padTokenId : Option ℤ

def roleKey : PyStr := "role".toList

def contentKey : PyStr := "content".toList

/-- `[{"role": "user", "content": ""}]`. -/
def emptyUser : Json := .obj [(roleKey, .str "user".toList), (contentKey, .str [])]

/-- `extract_system_prompt_and_generation`. -/
def extractSystemPromptAndGeneration (tok : ChatTokenizer) (kwargs : Row) :
    Except SftError (List ℤ × List ℤ) := do
  let token1 ← tok.applyChatTemplate ⟨[emptyUser], .null, false, kwargs⟩
  let token2 ← tok.applyChatTemplate ⟨[emptyUser, emptyUser], .null, false, kwargs⟩
  let systemPrompt := sliceTo (-(token2.length - token1.length : ℤ)) token1
  let token3 ← tok.applyChatTemplate ⟨[emptyUser], .null, true, kwargs⟩
  return (systemPrompt, token3.drop token1.length)

/-- The user message that a template may need, with its content in parts. -/
def dummyUserMessage : Json := .obj [(roleKey, .str "user".toList),
  (contentKey, .arr [.obj [("type".toList, .str "text".toList), ("text".toList, .str [])]])]

/-- `apply_chat_template`, for templates that require a user message. -/
def applyChatTemplate (tok : ChatTokenizer) (call : TemplateCall) : Except SftError (List ℤ) :=
  match tok.applyChatTemplate call with
  | .ok ids => .ok ids
  | .error _ => do
      let dummyUserIds ← tok.applyChatTemplate
        { call with messages := [dummyUserMessage], addGenerationPrompt := false }
      let output ← tok.applyChatTemplate { call with messages := dummyUserMessage :: call.messages }
      return output.drop dummyUserIds.length

/-- `enable_thinking` among the arguments of the template, unless it is `None`. -/
def withThinking (enableThinking : Option Bool) (kwargs : Row) : Row :=
  match enableThinking with
  | none => kwargs
  | some b => kwargs.setItem "enable_thinking".toList (.bool b)

/-- The row's own `enable_thinking` as a truth value, or the default. -/
def rowThinking (key : PyStr) (default : Option Bool) (row : Row) : Option Bool :=
  match Row.get? key row with
  | none => default
  | some .null => none
  | some v => some v.truthy

/-- `v == "…"` for a role. -/
def isRole (name : String) (role : Json) : Bool := role.pyEq (.str name.toList)

/-- `row[k]`. -/
def sftItem (k : PyStr) (row : Row) : Except SftError Json :=
  match Row.get? k row with
  | some v => .ok v
  | none => .error (.keyError k)

/-! ### The dataset -/

inductive SftPadMode where
  | right
  | noPadding
deriving DecidableEq

inductive SftTruncation where
  | error
  | left
  | right
deriving DecidableEq

structure SftConfig where
  padMode : SftPadMode
  truncation : SftTruncation
  maxLength : ℤ
  messagesKey : PyStr
  imageKey : PyStr
  videoKey : PyStr
  toolsKey : PyStr
  enableThinkingKey : PyStr
  enableThinkingDefault : Option Bool
  applyChatTemplateKwargs : Row
  ignoreInputIdsMismatch : Bool

/-- A table: every record has the columns as its keys. -/
structure DataFrame where
  columns : List PyStr
  records : List Row
  keys_eq : ∀ row ∈ records, row.map Prod.fst = columns

structure MultiTurnSFTDataset where
  config : SftConfig
  tokenizer : ChatTokenizer
  dataframe : DataFrame
  systemPrompt : List ℤ
  generationPrompt : List ℤ

/-- The dataset over all rows of one table. -/
def MultiTurnSFTDataset.new (config : SftConfig) (tokenizer : ChatTokenizer)
    (dataframe : DataFrame) : Except SftError MultiTurnSFTDataset := do
  if !dataframe.columns.contains config.messagesKey then
    throw (.keyError config.messagesKey)
  let prompts ← extractSystemPromptAndGeneration tokenizer config.applyChatTemplateKwargs
  return ⟨config, tokenizer, dataframe, prompts.1, prompts.2⟩

/-- The token ids of one message or of the whole conversation, with their masks. -/
structure SftTokens where
  inputIds : List ℤ
  lossMask : List ℤ
  attentionMask : List ℤ
deriving DecidableEq

structure SftSample where
  inputIds : List ℤ
  /-- Absent without padding. -/
  attentionMask : Option (List ℤ)
  positionIds : List ℤ
  lossMask : List ℤ

/-- `xs[:n] = 0`. -/
def zeroFirst (n : ℕ) (xs : List ℤ) : List ℤ := List.replicate (min n xs.length) 0 ++ xs.drop n

/-- The text of the length error. -/
def lengthError (sequenceLength : ℕ) (maxLength : ℤ) : SftError :=
  .valueError ("sequence_length=".toList ++ (toString sequenceLength).toList ++
    " is larger than self.max_length=".toList ++ (toString maxLength).toList)

/-- `len(v)` of a list of images or videos, empty without its column. -/
def mediaLength : Option Json → Except SftError ℕ
  | none => .ok 0
  | some (.arr xs) => .ok xs.length
  | some (.str s) => .ok s.length
  | some (.obj fields) => .ok fields.length
  | some _ => .error .typeError

namespace MultiTurnSFTDataset
variable (ds : MultiTurnSFTDataset)

/-- The tokens of a message without the system prompt, and its masks. -/
def maskMessage (index : ℕ) (role : Json) (inputIds : List ℤ) : SftTokens :=
  let cut := if index ≠ 0 ∧ isRole "system" role = false then ds.systemPrompt.length else 0
  let attentionMask := (List.replicate inputIds.length 1).drop cut
  { inputIds := inputIds.drop cut
    lossMask :=
      if isRole "assistant" role then
        zeroFirst ds.generationPrompt.length (List.replicate attentionMask.length 1)
      else List.replicate attentionMask.length 0
    attentionMask := attentionMask }

/-- `_process_single_message`. -/
def processSingleMessage (index : ℕ) (message : Row) (tools : Json)
    (enableThinking : Option Bool) : Except SftError SftTokens := do
  let inputIds ← applyChatTemplate ds.tokenizer ⟨[.obj message], tools, false,
    withThinking enableThinking ds.config.applyChatTemplateKwargs⟩
  let role ← sftItem roleKey message
  return ds.maskMessage index role inputIds

/-- One message of `_build_messages`: a text needs a processor beside an image or video column. -/
def buildMessage (row : Row) : Json → Except SftError Row
  | .obj message => do
      let content ← sftItem contentKey message
      match content with
      | .str _ =>
          if (Row.get? ds.config.imageKey row).isSome || (Row.get? ds.config.videoKey row).isSome then
            throw (.assertionError "processor is needed to process image and video".toList)
          else return message
      | _ => return message
  | _ => .error .typeError

/-- `image_offset` and `video_offset`, which no text has moved, against the lists. -/
def checkOffset (name : String) (media : Option Json) : Except SftError Unit := do
  let length ← mediaLength media
  if length ≠ 0 then
    throw (.assertionError ((name ++ "_offset 0 != len(" ++ name ++ "s) ").toList ++
      (toString length).toList))

/-- The loop of `_build_messages`. -/
def buildContents (row : Row) : Json → Except SftError (List Row)
  | .arr messages => messages.mapM (ds.buildMessage row)
  | .str [] | .obj [] => .ok []
  | _ => .error .typeError

/-- `_build_messages`. -/
def buildMessages (row : Row) : Except SftError (List Row) := do
  let value ← sftItem ds.config.messagesKey row
  let messages ← ds.buildContents row value
  checkOffset "image" (Row.get? ds.config.imageKey row)
  checkOffset "video" (Row.get? ds.config.videoKey row)
  return messages

/-- `print_assembled_message`, which may raise. -/
def printAssembledMessage (messages : List Row) (tokens : SftTokens) (tools : Json) :
    Except SftError PyStr := do
  let tokenized ← ds.tokenizer.render (messages.map .obj) tools
  let decoded ← ds.tokenizer.decode tokens.inputIds
  return "tokenized entire message:\n".toList ++ tokenized ++
    "\n\ntokenized seperately    :\n".toList ++ decoded

def mismatchText : PyStr :=
  ("MultiTurnSFTDataset apply_chat_template to each turn separately and concat \x60input_ids\x60 " ++
    "as a whole sequence, which may not equal to apply_chat_template to whole messages at once.\n" ++
    "For example, Qwen Thinking series models add <think></think> tags to last turn, please check " ++
    "your tokenizer chat template settings.\n" ++
    "Set \x60ignore_input_ids_mismatch=True\x60 to ignore input_ids mismatch and use the " ++
    "concatenated input_ids as the final input_ids. ").toList

/-- `sanity_check`. -/
def sanityCheck (tokens : SftTokens) (messages : List Row) (tools : Json)
    (enableThinking : Option Bool) : Except SftError Unit := do
  let kwargs := withThinking enableThinking ds.config.applyChatTemplateKwargs
  let inputIds ← ds.tokenizer.applyChatTemplate ⟨messages.map .obj, tools, false, kwargs⟩
  if tokens.inputIds ≠ inputIds ∧ ds.config.ignoreInputIdsMismatch = false then
    throw (.assertionError mismatchText)

/-- The messages one by one, the first with the tools. -/
def processMessages (messages : List Row) (tools : Json) (enableThinking : Option Bool) :
    Except SftError (List SftTokens) :=
  messages.zipIdx.mapM fun p =>
    ds.processSingleMessage p.2 p.1 (if p.2 = 0 then tools else .null) enableThinking

def shapeText (n : ℕ) : PyStr := "torch.Size([".toList ++ (toString n).toList ++ "])".toList

/-- `torch.cat` of each of the three lists, and the check of their shapes. -/
def concatTokens (parts : List SftTokens) : Except SftError SftTokens :=
  let inputIds := parts.flatMap (·.inputIds)
  let lossMask := parts.flatMap (·.lossMask)
  let attentionMask := parts.flatMap (·.attentionMask)
  if parts = [] then
    .error (.runtimeError "torch.cat(): expected a non-empty list of Tensors".toList)
  else if inputIds.length = lossMask.length ∧ lossMask.length = attentionMask.length then
    .ok ⟨inputIds, lossMask, attentionMask⟩
  else .error (.assertionError ("Shape mismatch: ".toList ++ join ", ".toList
    [shapeText inputIds.length, shapeText lossMask.length, shapeText attentionMask.length]))

def tools (row : Row) : Json := row.get ds.config.toolsKey

def enableThinking (row : Row) : Option Bool :=
  rowThinking ds.config.enableThinkingKey ds.config.enableThinkingDefault row

/-- The first part of `__getitem__`: the messages and their concatenated tokens. -/
def tokenized (row : Row) : Except SftError (List Row × SftTokens) := do
  let messages ← ds.buildMessages row
  let parts ← ds.processMessages messages (ds.tools row) (ds.enableThinking row)
  let tokens ← concatTokens parts
  return (messages, tokens)

/-- `__getitem__` up to the sanity check. -/
def checkedTokens (row : Row) : Except SftError SftTokens := do
  let built ← ds.tokenized row
  let _ ← ds.printAssembledMessage built.1 built.2 (ds.tools row)
  ds.sanityCheck built.2 built.1 (ds.tools row) (ds.enableThinking row)
  return built.2

/-- `__getitem__` behind the sanity check. -/
def padOrTruncate (tokens : SftTokens) : Except SftError SftSample :=
  let sequenceLength := tokens.inputIds.length
  let maxLength := ds.config.maxLength
  let positionIds := (List.range sequenceLength).map Int.ofNat
  match ds.config.padMode with
  | .right =>
      if sequenceLength < maxLength then
        let missing := (maxLength - sequenceLength).toNat
        .ok { inputIds := tokens.inputIds ++
                List.replicate missing (ds.tokenizer.padTokenId.getD 0)
              attentionMask := some (tokens.attentionMask ++ List.replicate missing 0)
              positionIds := positionIds ++ List.replicate missing 0
              lossMask := tokens.lossMask ++ List.replicate missing 0 }
      else if maxLength < sequenceLength then
        match ds.config.truncation with
        | .left => .ok ⟨sliceFrom (-maxLength) tokens.inputIds,
            some (sliceFrom (-maxLength) tokens.attentionMask),
            sliceFrom (-maxLength) positionIds, sliceFrom (-maxLength) tokens.lossMask⟩
        | .right => .ok ⟨sliceTo maxLength tokens.inputIds,
            some (sliceTo maxLength tokens.attentionMask), sliceTo maxLength positionIds,
            sliceTo maxLength tokens.lossMask⟩
        | .error => .error (lengthError sequenceLength maxLength)
      else .ok ⟨tokens.inputIds, some tokens.attentionMask, positionIds, tokens.lossMask⟩
  | .noPadding =>
      if maxLength < sequenceLength ∧ ds.config.truncation = .error then
        .error (lengthError sequenceLength maxLength)
      else if maxLength < sequenceLength then
        .ok ⟨sliceTo maxLength tokens.inputIds, none, sliceTo maxLength positionIds,
          sliceTo maxLength tokens.lossMask⟩
      else .ok ⟨tokens.inputIds, none, positionIds, tokens.lossMask⟩

/-- `__getitem__` of a row. -/
def getRow (row : Row) : Except SftError SftSample := do
  let tokens ← ds.checkedTokens row
  ds.padOrTruncate tokens

/-- `dataset[item]`. -/
def getItem (item : ℕ) : Except SftError SftSample :=
  match ds.dataframe.records[item]? with
  | none => .error .indexError
  | some row => ds.getRow row

end MultiTurnSFTDataset

end ExtpiRlsd
