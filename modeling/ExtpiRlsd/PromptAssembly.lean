import ExtpiRlsd.Lib.PyText

/-! # Prompts and the privileged-text guard

`prompt_assembly.py` and the rendering of a student prompt to one string (`_raw_prompt_to_text`).
The chat template belongs to the tokenizer, a parameter.

`promptPieces` is what a student prompt shows: the prompt itself when it is a string, else every
string content and the text of every structured part.  The guard looks at the rendering instead.
A string content is part of the rendering as it stands (`content_infix_rawPromptToText`); of a
structured part only the `repr` of its text is (`repr_part_infix_rawPromptToText`). -/

namespace ExtpiRlsd

open PyText

/-- `DEFAULT_PI_TRACE_FIELD`. -/
def defaultPiTraceField : PyStr := "qwen32b_pi_trace".toList

/-- The instruction at the head of the student and teacher templates. -/
def taskInstruction : PyStr :=
  ("Solve the following mathematics problem. Give a concise, self-contained derivation.\n" ++
    "End with the final answer in \\boxed\x7b...\x7d.\n\n").toList

/-- `STUDENT_USER_TEMPLATE.format(problem=problem)`. -/
def studentUserTemplate (problem : PyStr) : PyStr := taskInstruction ++ problem

/-- `PI_TEACHER_USER_TEMPLATE.format(problem=problem, pi_trace=pi_trace)`. -/
def piTeacherUserTemplate (problem piTrace : PyStr) : PyStr :=
  taskInstruction ++ problem ++
    ("\n\nA verified reference solution from another solver is provided below. Use it only as\n" ++
      "private guidance. Do not quote it or mention that a reference was provided.\n\n" ++
      "<reference_solution>\n").toList ++ piTrace ++ "\n</reference_solution>".toList

/-- What the trainer uses of a tokenizer.  `applyChatTemplate` gets the user text and
`enable_thinking` if it is passed; `none` stands for a `TypeError`. -/
structure Tokenizer (Tok : Type) where
  applyChatTemplate : PyStr → Option Bool → Option PyStr
  encode : List PyStr → List (List Tok)
  truncationLeft : Bool
  padTokenId : Option Tok
  eosTokenId : Option Tok

/-- `_render_chat`: without the thinking switch when the template does not know it. -/
def renderChat {Tok : Type} (tokenizer : Tokenizer Tok) (userText : PyStr) (enableThinking : Bool) :
    Option PyStr :=
  match tokenizer.applyChatTemplate userText (some enableThinking) with
  | some s => some s
  | none => tokenizer.applyChatTemplate userText none

def buildPiTeacherPrompt {Tok : Type} (tokenizer : Tokenizer Tok) (problem piTrace : PyStr)
    (enableThinking : Bool) : Option PyStr :=
  renderChat tokenizer (piTeacherUserTemplate problem piTrace) enableThinking

/-! ### The guard -/

def openTag : PyStr := "<reference_solution>".toList
def closeTag : PyStr := "</reference_solution>".toList

/-- The two errors of `assert_no_pi_in_student_prompt`. -/
inductive LeakError where
  | referenceTags
  | traceText
deriving DecidableEq

def LeakError.message : LeakError → String
  | referenceTags => "Student prompt contains PI reference tags"
  | traceText => "Student prompt contains privileged trace text"

def assertNoPiInStudentPrompt (studentPrompt piTrace : PyStr) : Except LeakError Unit :=
  if contains studentPrompt openTag || contains studentPrompt closeTag then
    .error .referenceTags
  else if !piTrace.isEmpty && !(strip piTrace).isEmpty && contains studentPrompt (strip piTrace) then
    .error .traceText
  else .ok ()

section rendering
variable (printable : Char → Bool)

/-- The text of one item of a prompt list. -/
def itemToText : PyVal → PyStr
  | .dict items =>
      match (PyVal.get? "content".toList items).getD (.str []) with
      | .str s => s
      | content => content.toStr printable
  | item => item.toStr printable

/-- `_raw_prompt_to_text`. -/
def rawPromptToText : PyVal → Option PyStr
  | .none => none
  | .str s => some s
  | .list items => some (join ['\n'] (items.map (itemToText printable)))
  | rawPrompt => some (rawPrompt.toStr printable)

end rendering

/-! ### What a prompt shows -/

/-- The text of a structured content part. -/
def partText : PyVal → Option PyStr
  | .dict items => match PyVal.get? "text".toList items with
    | some (.str s) => some s
    | _ => none
  | _ => none

/-- The content of a message. -/
def messageContent : PyVal → Option PyVal
  | .dict items => PyVal.get? "content".toList items
  | _ => none

/-- The texts of the structured parts of a prompt. -/
def structuredParts : PyVal → List PyStr
  | .list messages => messages.flatMap fun message => match messageContent message with
    | some (.list parts) => parts.filterMap partText
    | _ => []
  | _ => []

/-- The strings a prompt shows unchanged: the prompt, or the string contents. -/
def plainContents : PyVal → List PyStr
  | .str s => [s]
  | .list messages => messages.filterMap fun message => match messageContent message with
    | some (.str s) => some s
    | _ => none
  | _ => []

def promptPieces (rawPrompt : PyVal) : List PyStr :=
  plainContents rawPrompt ++ structuredParts rawPrompt

/-- The prompt shows a reference tag or the stripped trace. -/
def Leaks (rawPrompt : PyVal) (piTrace : PyStr) : Prop :=
  ∃ x ∈ promptPieces rawPrompt, openTag <:+: x ∨ closeTag <:+: x ∨
    (strip piTrace ≠ [] ∧ strip piTrace <:+: x)

/-- A structured part that holds the stripped trace holds it in its `repr` as well. -/
def TraceSurvivesRepr (printable : Char → Bool) (rawPrompt : PyVal) (piTrace : PyStr) : Prop :=
  ∀ x ∈ structuredParts rawPrompt, strip piTrace <:+: x →
    strip piTrace <:+: reprStr printable x

section lemmas
variable {printable : Char → Bool} {rawPrompt : PyVal} {piTrace x : PyStr}

/-- A string content stands in the rendering as it is. -/
theorem content_infix_rawPromptToText (printable : Char → Bool) (h : x ∈ plainContents rawPrompt) :
    x <:+: (rawPromptToText printable rawPrompt).getD [] := by
  cases rawPrompt with
  | str s =>
      obtain rfl : x = s := by simpa [plainContents] using h
      exact List.infix_rfl
  | list messages =>
      obtain ⟨message, hm, hx⟩ := List.mem_filterMap.mp h
      have hitem : itemToText printable message = x := by
        cases message with
        | dict items =>
            simp only [messageContent] at hx
            split at hx
            · rename_i s hs
              obtain rfl : s = x := by simpa using hx
              simp only [itemToText, hs, Option.getD_some]
            · cases hx
        | _ => simp [messageContent] at hx
      rw [← hitem]
      exact infix_join _ (List.mem_map_of_mem hm)
  | _ => simp [plainContents] at h

/-- Of a structured part the rendering holds the `repr` of its text. -/
theorem repr_part_infix_rawPromptToText (printable : Char → Bool) (h : x ∈ structuredParts rawPrompt) :
    reprStr printable x <:+: (rawPromptToText printable rawPrompt).getD [] := by
  cases rawPrompt with
  | list messages =>
      obtain ⟨message, hm, hx⟩ := List.mem_flatMap.mp h
      cases message with
      | dict items =>
          simp only [messageContent] at hx
          split at hx
          · rename_i parts hparts
            obtain ⟨part, hpart, htext⟩ := List.mem_filterMap.mp hx
            -- the part is a dictionary whose text is `x`
            have hrepr : reprStr printable x <:+: part.repr printable := by
              cases part with
              | dict fields =>
                  simp only [partText] at htext
                  split at htext
                  · rename_i s hs
                    obtain rfl : s = x := by simpa using htext
                    obtain ⟨k, hk⟩ := PyVal.get?_mem hs
                    exact PyVal.repr_infix_dict printable hk
                  · cases htext
              | _ => simp [partText] at htext
            have hitem : itemToText printable (.dict items) =
                (PyVal.list parts).repr printable := by
              simp only [itemToText, hparts, Option.getD_some, PyVal.toStr]
            have hlist := PyVal.repr_infix_list printable hpart
            rw [← hitem] at hlist
            exact (hrepr.trans hlist).trans (infix_join _ (List.mem_map_of_mem hm))
          · cases hx
      | _ => simp [messageContent] at hx
  | _ => simp [structuredParts] at h

theorem plain_of_mem_tags {c : Char} (h : c ∈ openTag ∨ c ∈ closeTag) : Plain printable c := by
  have htags := List.all_eq_true.mp
    (show (openTag ++ closeTag).all (fun c => decide (Plain (fun _ => false) c)) = true by decide)
  have hascii := List.all_eq_true.mp
    (show (openTag ++ closeTag).all (fun c => decide (c.toNat < 0x7f)) = true by decide)
  have hmem : c ∈ openTag ++ closeTag := List.mem_append.mpr h
  have hc := of_decide_eq_true (htags c hmem)
  have hlt := of_decide_eq_true (hascii c hmem)
  simp only [Plain, escape, hlt, if_true] at hc ⊢
  exact hc

/-- What the guard lets through. -/
theorem assertNoPiInStudentPrompt_eq_ok_iff {studentPrompt : PyStr} :
    assertNoPiInStudentPrompt studentPrompt piTrace = .ok () ↔
      ¬ openTag <:+: studentPrompt ∧ ¬ closeTag <:+: studentPrompt ∧
        (strip piTrace ≠ [] → ¬ strip piTrace <:+: studentPrompt) := by
  have hstrip : piTrace = [] → strip piTrace = [] := by
    rintro rfl
    rfl
  unfold assertNoPiInStudentPrompt contains
  by_cases hopen : openTag <:+: studentPrompt
  · simp [hopen]
  by_cases hclose : closeTag <:+: studentPrompt
  · simp [hopen, hclose]
  by_cases htrace : strip piTrace <:+: studentPrompt
  · by_cases hempty : strip piTrace = []
    · simp [hopen, hclose, hempty]
    · have hne : piTrace ≠ [] := fun h => hempty (hstrip h)
      simp [hopen, hclose, htrace, hempty, hne]
  · simp [hopen, hclose, htrace]

/-- **What the guard is worth.**  A prompt that passed the guard shows no privileged text
exactly when no structured part hides the trace behind escapes. -/
theorem not_leaks_iff_of_guard
    (h : assertNoPiInStudentPrompt ((rawPromptToText printable rawPrompt).getD []) piTrace =
      .ok ()) :
    ¬ Leaks rawPrompt piTrace ↔ TraceSurvivesRepr printable rawPrompt piTrace := by
  obtain ⟨hopen, hclose, htrace⟩ := assertNoPiInStudentPrompt_eq_ok_iff.mp h
  constructor
  · intro hleak x hx hin
    by_cases hempty : strip piTrace = []
    · rw [hempty]
      exact List.nil_infix
    · exact absurd ⟨x, List.mem_append_right _ hx, .inr (.inr ⟨hempty, hin⟩)⟩ hleak
  · rintro hsurvive ⟨x, hx, hleak⟩
    rcases List.mem_append.mp hx with hx | hx
    · have hin := content_infix_rawPromptToText printable hx
      rcases hleak with hl | hl | ⟨hne, hl⟩
      · exact hopen (hl.trans hin)
      · exact hclose (hl.trans hin)
      · exact htrace hne (hl.trans hin)
    · have hin := repr_part_infix_rawPromptToText printable hx
      rcases hleak with hl | hl | ⟨hne, hl⟩
      · exact hopen ((infix_repr (fun c hc => plain_of_mem_tags (.inl hc)) hl).trans hin)
      · exact hclose ((infix_repr (fun c hc => plain_of_mem_tags (.inr hc)) hl).trans hin)
      · exact htrace hne ((hsurvive x hx hl).trans hin)

/-- A trace without escaped characters is found in every structured part. -/
theorem TraceSurvivesRepr.of_plain (h : ∀ c ∈ strip piTrace, Plain printable c) :
    TraceSurvivesRepr printable rawPrompt piTrace := fun _ _ hin => infix_repr h hin

end lemmas

end ExtpiRlsd
