import ExtpiRlsd.PiShardRuns
import ExtpiRlsd.UpliftOrder

/-! # Teacher traces and closed teacher outputs

`generate_teacher_traces.py` asks a local model for all attempts at once and keeps the shortest
verified one; `generate_closed_teacher_data.py` asks a remote model again and again until an
attempt is verified.  The remote client may refuse the argument `max_tokens`, once, and then it is
not sent again (`askTeacher`).

The client is a parameter that sees every earlier request, so a theorem about all clients is one
about every run.  `closedTeacher_run` says what such a run asked and what it wrote. -/

namespace ExtpiRlsd

open PyText PyData

/-! ### Local traces -/

/-- An attempt as the verifier judges it. -/
def judgedAttempt (v : Verifier) (gold : Json) (idx : ℕ) (candidate : Candidate) : Attempt :=
  let boxed := extractBoxedAnswer candidate.text
  { attemptIndex := idx, text := candidate.text, boxedAnswer := boxed
    verified := v.verifyAnswer boxed gold
    finishReason := candidate.finishReason, tokenCount := candidate.tokenCount }

structure TraceArgs where
  maxPrompts : Option ℤ
  model : PyStr
  /-- `vars(args)`. -/
  params : List (PyStr × Json)
  verifier : Verifier

/-- `PI_GENERATION_PROMPT.format(problem=problem)`. -/
def piGenerationPrompt (problem : PyStr) : PyStr :=
  ("Solve the following mathematics problem. Provide self-contained visible reasoning.\n" ++
    "End with the final answer in \\boxed\x7b...\x7d.\n\n" ++
    "Do not mention any gold or reference solution.\n\n").toList ++ problem

section traces
variable {Tok : Type} (args : TraceArgs) (tokenizer : Tokenizer Tok)

/-- `rows[: args.max_prompts]`. -/
def TraceArgs.usedRows (rows : List Row) : List Row :=
  match args.maxPrompts with
  | none => rows
  | some k => sliceTo k rows

/-- The prompt of a row. -/
def tracePrompt (row : Row) : Except PyError PyStr := do
  let problem ← row.getItem "problem".toList
  let content := piGenerationPrompt (problem.toStr args.verifier.printer)
  match tokenizer.applyChatTemplate content (some true) with
  | some prompt => return prompt
  | none => .error .typeError

/-- The fields of the new row but its metadata. -/
def withQwen8bTrace (selected : Option Attempt) (attempts : List Attempt) (row : Row) : Row :=
  row |>.setItem "qwen8b_pi_trace".toList (optStr (selected.map (·.text)))
    |>.setItem "qwen8b_pi_verified".toList (.bool selected.isSome)
    |>.setItem "qwen8b_pi_attempts".toList (.int attempts.length)

/-- The new row of a row and its candidates. -/
def traceRow (createdAt : PyStr) (row : Row) (candidates : List Candidate) :
    Except PyError Row := do
  let gold ← goldAnswer row candidates
  let attempts := candidates.mapIdx (judgedAttempt args.verifier gold)
  let newRow := (withQwen8bTrace (selectAttempt attempts) attempts row).setDefault
    "metadata".toList (.obj [])
  newRow.setInner "metadata".toList "qwen8b_pi_generation".toList (.obj [
    ("model".toList, .str args.model),
    ("created_at_utc".toList, .str createdAt),
    ("params".toList, .obj args.params),
    ("attempts".toList, .arr (attempts.map Attempt.toJson))])

/-- `main`, from the rows read to the rows written; `llmGenerate` answers all prompts and
`clock` is what is noted for the row of a number. -/
def generateTeacherTraces (llmGenerate : List PyStr → List (List Candidate)) (clock : ℕ → PyStr)
    (rows : List Row) : Except PyError (List Row) := do
  let rows := args.usedRows rows
  let prompts ← rows.mapM (tracePrompt args tokenizer)
  forZipStrict (fun row (candidates, i) => traceRow args (clock i) row candidates) rows
    (llmGenerate prompts).zipIdx

end traces

/-! ### The remote client -/

/-- What `client.chat.completions.create` is called with. -/
structure ChatRequest where
  model : PyStr
  content : PyStr
  temperature : PyFloat
  topP : PyFloat
  maxTokens : Option ℤ
deriving DecidableEq

/-- The id and the first choice's content of a response. -/
structure ChatReply where
  id : Json
  content : Option PyStr

inductive ChatError where
  | typeError
  | other
deriving DecidableEq

/-- The client, which has seen the earlier requests. -/
abbrev ChatClient := List ChatRequest → ChatRequest → Except ChatError ChatReply

structure ClosedArgs where
  maxRows : Option ℤ
  maxAttempts : ℤ
  baseUrl : PyStr
  model : PyStr
  maxTokens : ℤ
  temperature : PyFloat
  topP : PyFloat
  verifier : Verifier

/-- What is raised: by a row, or by the client. -/
inductive ClosedError where
  | row (e : PyError)
  | chat (e : ChatError)

/-- The requests sent so far and `max_tokens_supported`. -/
structure ChatState where
  log : List ChatRequest
  maxTokensSupported : Bool

structure ClosedAttempt where
  attemptIndex : ℕ
  requestId : Json
  text : PyStr
  boxedAnswer : Option PyStr
  verified : Bool

def ClosedAttempt.toJson (a : ClosedAttempt) : Json := .obj [
  ("attempt_index".toList, .int a.attemptIndex),
  ("request_id".toList, a.requestId),
  ("text".toList, .str a.text),
  ("boxed_answer".toList, optStr a.boxedAnswer),
  ("verified".toList, .bool a.verified)]

/-- `PROMPT.format(problem=problem)`. -/
def closedPrompt (problem : PyStr) : PyStr :=
  taskInstruction ++
    ("Do not provide hidden chain-of-thought. " ++
      "Provide only visible reasoning that can be audited.\n\n").toList ++ problem

section closed
variable (client : ChatClient) (args : ClosedArgs)

/-- `request_kwargs`. -/
def chatRequest (withMaxTokens : Bool) (problem : PyStr) : ChatRequest where
  model := args.model
  content := closedPrompt problem
  temperature := args.temperature
  topP := args.topP
  maxTokens := if withMaxTokens then some args.maxTokens else none

/-- One request, repeated without `max_tokens` where the client does not know the argument. -/
def askTeacher (st : ChatState) (problem : PyStr) : Except ChatError (ChatReply × ChatState) :=
  let request := chatRequest args st.maxTokensSupported problem
  match client st.log request with
  | .ok reply => .ok (reply, { st with log := st.log ++ [request] })
  | .error .typeError =>
    if !st.maxTokensSupported then .error .typeError
    else
      let log := st.log ++ [request]
      let request := chatRequest args false problem
      match client log request with
      | .ok reply => .ok (reply, ⟨log ++ [request], false⟩)
      | .error e => .error e
  | .error e => .error e

def closedAttempt (gold : Json) (idx : ℕ) (reply : ChatReply) : ClosedAttempt :=
  let text := reply.content.getD []
  let boxed := extractBoxedAnswer text
  { attemptIndex := idx, requestId := reply.id, text, boxedAnswer := boxed
    verified := args.verifier.verifyAnswer boxed gold }

/-- The attempts at a row, the text that is selected, and the state behind them. -/
structure ClosedOutcome where
  attempts : List ClosedAttempt
  selected : Option PyStr
  state : ChatState

/-- The loop over `range(max_attempts)` from a number on: it ends with a verified attempt. -/
def closedAttempts (row : Row) : ℕ → ℕ → ChatState → Except ClosedError ClosedOutcome
  | 0, _, st => .ok ⟨[], none, st⟩
  | remaining + 1, idx, st => do
      let problem ← (row.getItem "problem".toList).mapError .row
      let (reply, st) ←
        (askTeacher client args st (problem.toStr args.verifier.printer)).mapError .chat
      let gold ← (row.getItem "gold_answer".toList).mapError .row
      let attempt := closedAttempt args gold idx reply
      if attempt.verified then return ⟨[attempt], some attempt.text, st⟩
      let rest ← closedAttempts row remaining (idx + 1) st
      return { rest with attempts := attempt :: rest.attempts }

/-- What is noted under `closed_teacher_generation`. -/
def closedGeneration (createdAt : PyStr) (outcome : ClosedOutcome) : Row := [
  ("provider".toList, .str "openai_compatible".toList),
  ("base_url".toList, .str args.baseUrl),
  ("model".toList, .str args.model),
  ("created_at_utc".toList, .str createdAt),
  ("generation_config".toList, .obj [
    ("max_tokens".toList, .int args.maxTokens),
    ("max_tokens_supported".toList, .bool outcome.state.maxTokensSupported),
    ("temperature".toList, .float args.temperature),
    ("top_p".toList, .float args.topP)]),
  ("attempts".toList, .arr (outcome.attempts.map ClosedAttempt.toJson))]

/-- The new row of a row and its attempts. -/
def closedRow (createdAt : PyStr) (row : Row) (outcome : ClosedOutcome) : Except PyError Row :=
  let newRow := row
    |>.setItem "closed_teacher_output".toList (optStr outcome.selected)
    |>.setItem "closed_teacher_verified".toList (.bool outcome.selected.isSome)
    |>.setDefault "metadata".toList (.obj [])
  newRow.setInner "metadata".toList "closed_teacher_generation".toList
    (.obj (closedGeneration args createdAt outcome))

/-- One round of the loop over the rows. -/
def closedStep (updated : List Row × ChatState) (job : Row × PyStr) :
    Except ClosedError (List Row × ChatState) := do
  let outcome ← closedAttempts client args job.1 args.maxAttempts.toNat 0 updated.2
  let newRow ← (closedRow args job.2 job.1 outcome).mapError .row
  return (updated.1 ++ [newRow], outcome.state)

/-- `rows[: args.max_rows]`. -/
def ClosedArgs.usedRows (rows : List Row) : List Row :=
  match args.maxRows with
  | none => rows
  | some k => sliceTo k rows

/-- `main`, from the rows read to the rows written and the requests sent. -/
def generateClosedTeacherData (clock : ℕ → PyStr) (rows : List Row) :
    Except ClosedError (List Row × ChatState) :=
  ((args.usedRows rows).zipIdx.map fun (row, i) => (row, clock i)).foldlM
    (closedStep client args) ([], ⟨[], true⟩)

end closed

/-! ### Rows with a local trace -/

section traceRows
variable {args : TraceArgs} {row newRow : Row} {createdAt : PyStr} {candidates : List Candidate}

def qwen8bFields : List PyStr :=
  ["qwen8b_pi_trace".toList, "qwen8b_pi_verified".toList, "qwen8b_pi_attempts".toList]

theorem get?_withQwen8bTrace_of_notMem {key : PyStr} (h : key ∉ qwen8bFields)
    (selected : Option Attempt) (attempts : List Attempt) (row : Row) :
    Row.get? key (withQwen8bTrace selected attempts row) = Row.get? key row := by
  simp only [qwen8bFields, List.mem_cons, List.not_mem_nil, or_false, not_or] at h
  obtain ⟨h₁, h₂, h₃⟩ := h
  unfold withQwen8bTrace
  rw [Row.get?_setItem_of_ne h₃, Row.get?_setItem_of_ne h₂, Row.get?_setItem_of_ne h₁]

/-- The new row in terms of what it was made of. -/
theorem traceRow_eq_ok (h : traceRow args createdAt row candidates = .ok newRow) :
    ∃ gold, (candidates ≠ [] → Row.get? "gold_answer".toList row = some gold) ∧
      ∀ key, key ≠ "metadata".toList → Row.get? key newRow = Row.get? key
        (withQwen8bTrace (selectAttempt (candidates.mapIdx (judgedAttempt args.verifier gold)))
          (candidates.mapIdx (judgedAttempt args.verifier gold)) row) := by
  obtain ⟨gold, hgold, h⟩ := Checked.bind_eq_ok_iff.mp h
  obtain ⟨fields, -, rfl⟩ := Row.setInner_eq_ok h
  refine ⟨gold, ?_, ?_⟩
  · intro hne
    cases candidates with
    | nil => exact absurd rfl hne
    | cons candidate candidates =>
        have hitem : row.getItem "gold_answer".toList = .ok gold := hgold
        exact Row.getItem_eq_ok_iff.mp hitem
  · intro key hkey
    rw [Row.get?_setItem_of_ne hkey, Row.get?_setDefault_of_ne hkey]

/-- A selected attempt is a candidate whose boxed answer is verified. -/
theorem selectAttempt_judged {v : Verifier} {gold : Json} {a : Attempt}
    (h : selectAttempt (candidates.mapIdx (judgedAttempt v gold)) = some a) :
    (∃ candidate ∈ candidates, a.text = candidate.text) ∧
      v.verifyAnswer (extractBoxedAnswer a.text) gold = true := by
  obtain ⟨hmem, -⟩ := shortest_eq_some h
  obtain ⟨hattempt, hok⟩ := List.mem_filter.mp hmem
  obtain ⟨i, hi, rfl⟩ := List.mem_mapIdx.mp hattempt
  exact ⟨⟨_, List.getElem_mem hi, rfl⟩, hok⟩

end traceRows

/-! ### One request -/

section requests
variable {client : ChatClient} {args : ClosedArgs} {st st' : ChatState}

/-- Requests with `max_tokens` come before requests without, and as long as none was refused there
are none of the latter. -/
def Phased (args : ClosedArgs) (st : ChatState) : Prop :=
  ∃ before after, st.log = before ++ after ∧
    (∀ request ∈ before, request.maxTokens = some args.maxTokens) ∧
    (∀ request ∈ after, request.maxTokens = none) ∧
    (st.maxTokensSupported = true → after = [])

/-- What one question adds to the log: a request, or the refused one and its repetition. -/
theorem askTeacher_eq_ok {problem : PyStr} {reply : ChatReply}
    (h : askTeacher client args st problem = .ok (reply, st')) :
    (st' = { st with log := st.log ++ [chatRequest args st.maxTokensSupported problem] }) ∨
    (st.maxTokensSupported = true ∧ st' =
      ⟨st.log ++ [chatRequest args true problem, chatRequest args false problem], false⟩) := by
  unfold askTeacher at h
  dsimp only at h
  split at h
  · exact .inl (Prod.mk.inj (Except.ok.inj h)).2.symm
  · cases hsupported : st.maxTokensSupported with
    | false =>
        rw [hsupported] at h
        cases h
    | true =>
        rw [hsupported, Bool.not_true, if_neg Bool.false_ne_true] at h
        split at h
        · refine .inr ⟨rfl, ?_⟩
          rw [← (Prod.mk.inj (Except.ok.inj h)).2, List.append_assoc]
          rfl
        · cases h
  · cases h

theorem phased_askTeacher {problem : PyStr} {reply : ChatReply} (hst : Phased args st)
    (h : askTeacher client args st problem = .ok (reply, st')) : Phased args st' := by
  obtain ⟨before, after, hlog, hbefore, hafter, hnone⟩ := hst
  rcases askTeacher_eq_ok h with rfl | ⟨hsupported, rfl⟩
  · cases hsupported : st.maxTokensSupported with
    | true =>
        obtain rfl := hnone hsupported
        refine ⟨before ++ [chatRequest args true problem], [], ?_, ?_, nofun, fun _ => rfl⟩
        · rw [hlog, List.append_nil, List.append_nil]
        · exact List.forall_mem_append.mpr ⟨hbefore, List.forall_mem_singleton.mpr rfl⟩
    | false =>
        refine ⟨before, after ++ [chatRequest args false problem], ?_, hbefore, ?_, ?_⟩
        · rw [hlog, List.append_assoc]
        · exact List.forall_mem_append.mpr ⟨hafter, List.forall_mem_singleton.mpr rfl⟩
        · intro htrue
          cases htrue
  · obtain rfl := hnone hsupported
    refine ⟨before ++ [chatRequest args true problem], [chatRequest args false problem], ?_, ?_, ?_,
      nofun⟩
    · rw [hlog, List.append_nil, List.append_assoc]
      rfl
    · exact List.forall_mem_append.mpr ⟨hbefore, List.forall_mem_singleton.mpr rfl⟩
    · exact List.forall_mem_singleton.mpr rfl

/-- A question costs one request, and one more when the client stops to know `max_tokens`. -/
theorem length_log_askTeacher {problem : PyStr} {reply : ChatReply}
    (h : askTeacher client args st problem = .ok (reply, st')) :
    st'.log.length + st'.maxTokensSupported.toNat =
      st.log.length + st.maxTokensSupported.toNat + 1 := by
  rcases askTeacher_eq_ok h with rfl | ⟨hsupported, rfl⟩
  · rw [List.length_append, List.length_singleton]
    dsimp only
    omega
  · rw [hsupported, List.length_append]
    rfl

end requests

/-! ### The attempts at one row -/

section attempts
variable {client : ChatClient} {args : ClosedArgs} {row : Row}

/-- The loop ended with the first verified attempt, or with the last of all attempts. -/
inductive Stopped (n : ℕ) (attempts : List ClosedAttempt) : Option PyStr → Prop where
  | verified {failed : List ClosedAttempt} {last : ClosedAttempt} :
      attempts = failed ++ [last] → (∀ a ∈ failed, a.verified = false) → last.verified = true →
        Stopped n attempts (some last.text)
  | exhausted : attempts.length = n → (∀ a ∈ attempts, a.verified = false) →
      Stopped n attempts none

theorem Stopped.cons {n : ℕ} {attempts : List ClosedAttempt} {selected : Option PyStr}
    (h : Stopped n attempts selected) {a : ClosedAttempt} (ha : a.verified = false) :
    Stopped (n + 1) (a :: attempts) selected := by
  cases h with
  | @verified failed last happend hfailed hlast =>
      have happend' : a :: attempts = (a :: failed) ++ [last] := congrArg (a :: ·) happend
      exact .verified happend' (List.forall_mem_cons.mpr ⟨ha, hfailed⟩) hlast
  | exhausted hlength hfailed =>
      exact .exhausted (congrArg (· + 1) hlength) (List.forall_mem_cons.mpr ⟨ha, hfailed⟩)

/-- The attempt is judged by its text. -/
def ClosedAttempt.Judged (v : Verifier) (gold : Json) (a : ClosedAttempt) : Prop :=
  a.boxedAnswer = extractBoxedAnswer a.text ∧ a.verified = v.verifyAnswer a.boxedAnswer gold

/-- The request is made of the problem of one of the rows and of the arguments. -/
def AsksProblem (args : ClosedArgs) (rows : List Row) (request : ChatRequest) : Prop :=
  ∃ row ∈ rows, ∃ problem, Row.get? "problem".toList row = some problem ∧
    ∃ withMaxTokens,
      request = chatRequest args withMaxTokens (problem.toStr args.verifier.printer)

/-- What one question about a row did to the state. -/
structure AskedAt (args : ClosedArgs) (row : Row) (st st' : ChatState) : Prop where
  phased : Phased args st → Phased args st'
  cost : st'.log.length + st'.maxTokensSupported.toNat =
    st.log.length + st.maxTokensSupported.toNat + 1
  asked : ∀ request ∈ st'.log, request ∈ st.log ∨ AsksProblem args [row] request

/-- What the attempts at a row did to the state. -/
structure AttemptsAt (args : ClosedArgs) (row : Row) (n : ℕ) (st : ChatState)
    (outcome : ClosedOutcome) : Prop where
  stopped : Stopped n outcome.attempts outcome.selected
  length_le : outcome.attempts.length ≤ n
  judged : ∃ gold, (outcome.attempts ≠ [] → Row.get? "gold_answer".toList row = some gold) ∧
    ∀ a ∈ outcome.attempts, a.Judged args.verifier gold
  phased : Phased args st → Phased args outcome.state
  cost : outcome.state.log.length + outcome.state.maxTokensSupported.toNat =
    st.log.length + st.maxTokensSupported.toNat + outcome.attempts.length
  asked : ∀ request ∈ outcome.state.log, request ∈ st.log ∨ AsksProblem args [row] request

/-- One question of the loop asks for the problem of the row. -/
theorem askedAt_askTeacher {st st' : ChatState} {problem : Json} {reply : ChatReply}
    (hproblem : Row.get? "problem".toList row = some problem)
    (h : askTeacher client args st (problem.toStr args.verifier.printer) = .ok (reply, st')) :
    AskedAt args row st st' := by
  refine ⟨fun hst => phased_askTeacher hst h, length_log_askTeacher h, ?_⟩
  have hnew : ∀ withMaxTokens, AsksProblem args [row]
      (chatRequest args withMaxTokens (problem.toStr args.verifier.printer)) :=
    fun withMaxTokens => ⟨row, List.mem_cons_self, problem, hproblem, withMaxTokens, rfl⟩
  intro request hrequest
  rcases askTeacher_eq_ok h with rfl | ⟨-, rfl⟩
  · rcases List.mem_append.mp hrequest with hrequest | hrequest
    · exact .inl hrequest
    · rw [List.mem_singleton.mp hrequest]
      exact .inr (hnew _)
  · rcases List.mem_append.mp hrequest with hrequest | hrequest
    · exact .inl hrequest
    · simp only [List.mem_cons, List.not_mem_nil, or_false] at hrequest
      rcases hrequest with rfl | rfl
      · exact .inr (hnew true)
      · exact .inr (hnew false)

/-- A verified attempt is the last one. -/
theorem AskedAt.stop {n : ℕ} {st st' : ChatState} {attempt : ClosedAttempt} {gold : Json}
    (h : AskedAt args row st st') (hgold : Row.get? "gold_answer".toList row = some gold)
    (hjudged : attempt.Judged args.verifier gold) (hverified : attempt.verified = true) :
    AttemptsAt args row (n + 1) st ⟨[attempt], some attempt.text, st'⟩ := by
  have happend : [attempt] = [] ++ [attempt] := rfl
  refine ⟨.verified happend nofun hverified, ?_, ⟨gold, fun _ => hgold, ?_⟩, h.phased, h.cost,
    h.asked⟩
  · exact Nat.succ_le_succ (Nat.zero_le n)
  · exact List.forall_mem_singleton.mpr hjudged

/-- After a failed attempt come the attempts of the shorter loop. -/
theorem AskedAt.retry {n : ℕ} {st st' : ChatState} {attempt : ClosedAttempt} {gold : Json}
    {rest : ClosedOutcome} (h : AskedAt args row st st')
    (hgold : Row.get? "gold_answer".toList row = some gold)
    (hjudged : attempt.Judged args.verifier gold) (hfailed : attempt.verified = false)
    (hrest : AttemptsAt args row n st' rest) :
    AttemptsAt args row (n + 1) st { rest with attempts := attempt :: rest.attempts } := by
  obtain ⟨gold', hgold', hjudged'⟩ := hrest.judged
  refine ⟨hrest.stopped.cons hfailed, Nat.succ_le_succ hrest.length_le,
    ⟨gold, fun _ => hgold, List.forall_mem_cons.mpr ⟨hjudged, ?_⟩⟩,
    fun hst => hrest.phased (h.phased hst), ?_, ?_⟩
  · intro a ha
    have hgold'' := hgold' (List.ne_nil_of_mem ha)
    rw [hgold] at hgold''
    rw [Option.some.inj hgold'']
    exact hjudged' a ha
  · rw [hrest.cost, h.cost, List.length_cons]
    omega
  · intro request hrequest
    rcases hrest.asked request hrequest with hrequest | hrequest
    · exact h.asked request hrequest
    · exact .inr hrequest

theorem closedAttempts_eq_ok {n idx : ℕ} {st : ChatState} {outcome : ClosedOutcome}
    (h : closedAttempts client args row n idx st = .ok outcome) :
    AttemptsAt args row n st outcome := by
  induction n generalizing idx st outcome with
  | zero =>
      obtain rfl := Except.ok.inj h
      exact ⟨.exhausted rfl nofun, le_refl _, ⟨.null, fun hne => absurd rfl hne, nofun⟩, id, rfl,
        fun _ => .inl⟩
  | succ n ih =>
      obtain ⟨problem, hproblem, h⟩ := Checked.bind_eq_ok_iff.mp h
      obtain ⟨⟨reply, st₁⟩, hask, h⟩ := Checked.bind_eq_ok_iff.mp h
      obtain ⟨gold, hgold, h⟩ := Checked.bind_eq_ok_iff.mp h
      rw [Checked.mapError_eq_ok_iff] at hask
      have hproblem := Row.getItem_eq_ok_iff.mp (Checked.mapError_eq_ok_iff.mp hproblem)
      have hgold := Row.getItem_eq_ok_iff.mp (Checked.mapError_eq_ok_iff.mp hgold)
      have hasked := askedAt_askTeacher hproblem hask
      set attempt := closedAttempt args gold idx reply with hattempt
      have hjudged : attempt.Judged args.verifier gold := ⟨rfl, rfl⟩
      cases hverified : attempt.verified with
      | true =>
          rw [if_pos hverified] at h
          obtain rfl := Except.ok.inj h
          exact hasked.stop hgold hjudged hverified
      | false =>
          rw [if_neg (by rw [hverified]; exact Bool.false_ne_true)] at h
          obtain ⟨rest, hrest, h⟩ := Checked.bind_eq_ok_iff.mp h
          obtain rfl := Except.ok.inj h
          exact hasked.retry hgold hjudged hverified (ih hrest)

end attempts

/-! ### All rows -/

section run
variable {client : ChatClient} {args : ClosedArgs}

def closedFields : List PyStr :=
  ["closed_teacher_output".toList, "closed_teacher_verified".toList, "metadata".toList]

/-- What is written for a row after its attempts. -/
structure ClosedWrites (args : ClosedArgs) (row newRow : Row) (attempts : List ClosedAttempt) :
    Prop where
  selected : ∃ selected, Stopped args.maxAttempts.toNat attempts selected ∧
    Row.get? "closed_teacher_output".toList newRow = some (optStr selected) ∧
    Row.get? "closed_teacher_verified".toList newRow = some (.bool selected.isSome)
  length_le : attempts.length ≤ args.maxAttempts.toNat
  judged : ∃ gold, (attempts ≠ [] → Row.get? "gold_answer".toList row = some gold) ∧
    ∀ a ∈ attempts, a.Judged args.verifier gold
  recorded : ∃ fields generation, Row.get? "metadata".toList newRow = some (.obj fields) ∧
    Row.get? "closed_teacher_generation".toList fields = some (.obj generation) ∧
    Row.get? "attempts".toList generation = some (.arr (attempts.map ClosedAttempt.toJson))
  frame : ∀ key, key ∉ closedFields → Row.get? key newRow = Row.get? key row

theorem closedRow_eq_ok {createdAt : PyStr} {row newRow : Row} {outcome : ClosedOutcome}
    {st : ChatState} (hattempts : AttemptsAt args row args.maxAttempts.toNat st outcome)
    (h : closedRow args createdAt row outcome = .ok newRow) :
    ClosedWrites args row newRow outcome.attempts := by
  obtain ⟨fields, -, rfl⟩ := Row.setInner_eq_ok h
  refine ⟨⟨outcome.selected, hattempts.stopped, ?_, ?_⟩, hattempts.length_le, hattempts.judged,
    ⟨_, closedGeneration args createdAt outcome, Row.get?_setItem_self _ _ _,
      Row.get?_setItem_self _ _ _, rfl⟩, ?_⟩
  · rw [Row.get?_setItem_of_ne (by decide), Row.get?_setDefault_of_ne (by decide),
      Row.get?_setItem_of_ne (by decide), Row.get?_setItem_self]
  · rw [Row.get?_setItem_of_ne (by decide), Row.get?_setDefault_of_ne (by decide),
      Row.get?_setItem_self]
  · intro key hkey
    simp only [closedFields, List.mem_cons, List.not_mem_nil, or_false, not_or] at hkey
    obtain ⟨h₁, h₂, h₃⟩ := hkey
    rw [Row.get?_setItem_of_ne h₃, Row.get?_setDefault_of_ne h₃, Row.get?_setItem_of_ne h₂,
      Row.get?_setItem_of_ne h₁]

theorem AsksProblem.mono {rows rows' : List Row} {request : ChatRequest}
    (h : AsksProblem args rows request) (hsub : rows ⊆ rows') : AsksProblem args rows' request := by
  obtain ⟨row, hrow, hasked⟩ := h
  exact ⟨row, hsub hrow, hasked⟩

/-- What a run over some rows wrote and asked. -/
structure ClosedRun (args : ClosedArgs) (rows newRows : List Row) (st : ChatState) : Prop where
  written : ∃ written : List (Row × List ClosedAttempt), newRows = written.map Prod.fst ∧
    List.Forall₂ (fun row w => ClosedWrites args row w.1 w.2) rows written ∧
    st.log.length + st.maxTokensSupported.toNat = 1 + (written.map fun w => w.2.length).sum
  phased : Phased args st
  asked : ∀ request ∈ st.log, AsksProblem args rows request

theorem ClosedRun.step {rows newRows : List Row} {st : ChatState}
    (h : ClosedRun args rows newRows st) {job : Row × PyStr} {newRows' : List Row}
    {st' : ChatState} (hstep : closedStep client args (newRows, st) job = .ok (newRows', st')) :
    ClosedRun args (rows ++ [job.1]) newRows' st' := by
  obtain ⟨outcome, houtcome, hstep⟩ := Checked.bind_eq_ok_iff.mp hstep
  obtain ⟨newRow, hrow, hstep⟩ := Checked.bind_eq_ok_iff.mp hstep
  obtain ⟨rfl, rfl⟩ := Prod.mk.inj (Except.ok.inj hstep)
  have hattempts := closedAttempts_eq_ok houtcome
  have hwrites := closedRow_eq_ok hattempts (Checked.mapError_eq_ok_iff.mp hrow)
  obtain ⟨written, rfl, hwritten, hcost⟩ := h.written
  refine ⟨⟨written ++ [(newRow, outcome.attempts)], ?_, ?_, ?_⟩, hattempts.phased h.phased, ?_⟩
  · rw [List.map_append, List.map_singleton]
  · exact List.rel_append hwritten (.cons hwrites .nil)
  · rw [hattempts.cost, hcost, List.map_append, List.sum_append, List.map_singleton,
      List.sum_singleton, Nat.add_assoc]
  · intro request hrequest
    rcases hattempts.asked request hrequest with hold | hnew
    · exact (h.asked request hold).mono (List.subset_append_left _ _)
    · exact hnew.mono (List.subset_append_right _ _)

/-- **Every run of the closed teacher stops each row at its first verified attempt and sends
nothing but problems.**  Whatever the client answers and refuses: no row has more attempts than
allowed, and each is judged by its own text; the requests with `max_tokens` come before those
without; the run costs one request for each attempt and one more if `max_tokens` was refused; and
every request is made of the problem of a row. -/
theorem closedTeacher_run {clock : ℕ → PyStr} {rows newRows : List Row} {st : ChatState}
    (h : generateClosedTeacherData client args clock rows = .ok (newRows, st)) :
    ClosedRun args (args.usedRows rows) newRows st := by
  have hrun := Checked.foldlM_invariant
    (fun (done : List (Row × PyStr)) (out : List Row × ChatState) =>
      ClosedRun args (done.map Prod.fst) out.1 out.2) ?_ ?_ h
  · rw [List.map_map] at hrun
    have hfst : (Prod.fst ∘ fun (row, i) => ((row, clock i) : Row × PyStr)) = Prod.fst := rfl
    rw [hfst, List.zipIdx_map_fst] at hrun
    exact hrun
  · intro done out job out' hdone hstep
    rw [List.map_append, List.map_singleton]
    exact hdone.step hstep
  · exact ⟨⟨[], rfl, .nil, rfl⟩, ⟨[], [], rfl, nofun, nofun, fun _ => rfl⟩, nofun⟩

end run

/-- A client that refuses `max_tokens`, answers wrongly, and then with the boxed sum. -/
def stubbornClient : ChatClient := fun log request =>
  if request.maxTokens.isSome then .error .typeError
  else if log.length < 2 then .ok ⟨.null, some "so 5".toList⟩
  else .ok ⟨.null, some "so \\boxed\x7b4\x7d".toList⟩

def closedSums : ClosedArgs where
  maxRows := some 2
  maxAttempts := 4
  baseUrl := "url".toList
  model := "model".toList
  maxTokens := 8192
  temperature := .fin (3 / 5)
  topP := .fin (19 / 20)
  verifier := twoWorkers.verifier

/-- Two rows cost three attempts and a refused request. -/
theorem closedTeacher_run_stubborn : ∃ newRows st,
    generateClosedTeacherData stubbornClient closedSums (fun _ => []) threeSums =
      .ok (newRows, st) ∧
    newRows.length = 2 ∧ st.log.length = 4 ∧ ClosedRun closedSums (threeSums.take 2) newRows st := by
  refine ⟨_, _, rfl, rfl, rfl, ?_⟩
  have hclock : generateClosedTeacherData stubbornClient closedSums (fun _ => []) threeSums =
      .ok _ := rfl
  exact closedTeacher_run hclock

end ExtpiRlsd
