import ExtpiRlsd.MathReward
import ExtpiRlsd.Lib.Checked
import ExtpiRlsd.Lib.Interleaving

/-! # Sharded trace generation

`generate_verified_pi_shard.py`: a worker asks the model for attempts at the rows of its residue
class, keeps the shortest verified attempt of each as the row's trace, and appends the row to its
success file or its failure file.  The two files, here the lists of the rows in their lines, are
all that a worker remembers when it is killed and started again.

A worker is a state machine (`workerStep`): it starts from its files, gets the outputs for a batch,
appends one row after another, and finishes or is killed.  All workers together are `shardStep`,
whose runs are the interleavings of theirs. -/

namespace ExtpiRlsd

open PyText PyData

/-! ### One row -/

/-- A candidate of the model's output. -/
structure Candidate where
  text : PyStr
  finishReason : Json
  tokenCount : ℕ

structure Attempt where
  attemptIndex : ℕ
  text : PyStr
  boxedAnswer : Option PyStr
  verified : Bool
  finishReason : Json
  tokenCount : ℕ

def optStr : Option PyStr → Json
  | none => .null
  | some s => .str s

def Attempt.toJson (a : Attempt) : Json := .obj [
  ("attempt_index".toList, .int a.attemptIndex),
  ("text".toList, .str a.text),
  ("boxed_answer".toList, optStr a.boxedAnswer),
  ("verified".toList, .bool a.verified),
  ("finish_reason".toList, a.finishReason),
  ("token_count".toList, .int a.tokenCount)]

/-- The arguments that all workers share. -/
structure ShardArgs where
  numWorkers : ℕ
  batchSize : ℕ
  batch_pos : 1 ≤ batchSize
  targetSuccesses : ℤ
  maxInputRows : Option ℤ
  modelPath : PyStr
  /-- `vars(args)` without the worker's own number. -/
  params : List (PyStr × Json)
  verifier : Verifier

section row
variable (args : ShardArgs)

def attemptOf (gold : Json) (idx : ℕ) (candidate : Candidate) : Attempt :=
  let boxed := extractBoxedAnswer candidate.text
  { attemptIndex := idx, text := candidate.text, boxedAnswer := boxed
    verified := args.verifier.verifyAnswer boxed gold
    finishReason := candidate.finishReason, tokenCount := candidate.tokenCount }

def attemptsOf (gold : Json) (candidates : List Candidate) : List Attempt :=
  candidates.mapIdx (attemptOf args gold)

/-- `min(attempts, key=lambda item: item["token_count"])`, the first of the shortest. -/
def shortest : List Attempt → Option Attempt
  | [] => none
  | a :: as => match shortest as with
    | none => some a
    | some b => if b.tokenCount < a.tokenCount then some b else some a

/-- The attempt that is selected. -/
def selectAttempt (attempts : List Attempt) : Option Attempt :=
  shortest (attempts.filter (·.verified))

/-- What is noted under `qwen8b_pi_generation`. -/
def generationInfo (workerId : ℕ) (createdAt : PyStr) (attempts : List Attempt) : Row := [
  ("model".toList, .str "Qwen3-32B".toList),
  ("model_path".toList, .str args.modelPath),
  ("trace_label".toList, .str "qwen3_32b_pi_thinking_on".toList),
  ("enable_thinking".toList, .bool true),
  ("created_at_utc".toList, .str createdAt),
  ("worker_id".toList, .int workerId),
  ("num_workers".toList, .int args.numWorkers),
  ("params".toList, .obj (("worker_id".toList, .int workerId) :: args.params)),
  ("attempts".toList, .arr (attempts.map Attempt.toJson))]

def shardMetadataKey : PyStr := "metadata".toList

/-- The fields of the new row but its metadata. -/
def withTrace (selected : Option Attempt) (attempts : List Attempt) (row : Row) : Row :=
  let trace := optStr (selected.map (·.text))
  row |>.setItem "qwen8b_pi_trace".toList trace
    |>.setItem "qwen8b_pi_verified".toList (.bool selected.isSome)
    |>.setItem "qwen8b_pi_attempts".toList (.int attempts.length)
    |>.setItem "qwen32b_pi_trace".toList trace
    |>.setItem "qwen32b_pi_verified".toList (.bool selected.isSome)

/-- `row["gold_answer"]`, which is read for each candidate. -/
def goldAnswer (row : Row) : List Candidate → Except PyError Json
  | [] => .ok .null
  | _ => row.getItem "gold_answer".toList

/-- The new row, and whether it is a success. -/
def shardRow (workerId : ℕ) (createdAt : PyStr) (row : Row) (candidates : List Candidate) :
    Except PyError (Row × Bool) := do
  let gold ← goldAnswer row candidates
  let attempts := attemptsOf args gold candidates
  let selected := selectAttempt attempts
  let info := .obj (generationInfo args workerId createdAt attempts)
  let newRow := (withTrace selected attempts row).setDefault shardMetadataKey (.obj [])
  let newRow ← newRow.setInner shardMetadataKey "qwen8b_pi_generation".toList info
  let newRow ← newRow.setInner shardMetadataKey "qwen32b_pi_generation".toList info
  return (newRow, selected.isSome)

end row

/-! ### One worker -/

/-- A running process: the rows of the later batches, the rows of this batch that are not appended
yet with their outputs, and whether the batch had as many outputs as rows. -/
structure ShardProcess where
  rows : List Row
  batch : List (Row × List Candidate)
  successes : ℕ
  strict : Bool

/-- A worker: its two files, absent at first, and its process if one is running. -/
structure Worker where
  success : Option (List Row)
  failure : Option (List Row)
  process : Option ShardProcess

def Worker.initial : Worker := ⟨none, none, none⟩

inductive WorkerEvent where
  | start
  | generate (outputs : List (List Candidate))
  | append (createdAt : PyStr)
  | finish
  | kill

/-- `append_jsonl`. -/
def appendJsonl (file : Option (List Row)) (row : Row) : Option (List Row) :=
  some (file.getD [] ++ [row])

section worker
variable (args : ShardArgs)

/-- `str(row.get("id"))`. -/
def shardId (row : Row) : PyStr := (row.get "id".toList).toStr args.verifier.printer

/-- `load_seen_ids`. -/
def loadSeenIds (success failure : Option (List Row)) : List PyStr :=
  ((success.getD [] ++ failure.getD []).filter fun row => (row.get "id".toList).truthy).map
    (shardId args)

/-- The source rows that are used. -/
def usedRows (source : List Row) : List Row :=
  match args.maxInputRows with
  | none => source
  | some k => sliceTo k source

/-- The rows of the worker's residue class. -/
def classRows (source : List Row) (workerId : ℕ) : List Row :=
  ((usedRows args source).zipIdx.filter fun p => p.2 % args.numWorkers == workerId).map Prod.fst

/-- The rows of the class that are in neither file. -/
def pendingRows (source : List Row) (workerId : ℕ) (seen : List PyStr) : List Row :=
  (classRows args source workerId).filter fun row => !seen.contains (shardId args row)

/-- The target is not reached. -/
def belowTarget (successes : ℕ) : Bool := decide ((successes : ℤ) < args.targetSuccesses)

/-- One step of a worker, where it can take it. -/
def workerStep (source : List Row) (workerId : ℕ) (st : Worker) : WorkerEvent → Option Worker
  | .start => match st.process with
    | some _ => none
    | none =>
      let successes := (st.success.getD []).length
      if belowTarget args successes then
        let seen := loadSeenIds args st.success st.failure
        some { st with process := some ⟨pendingRows args source workerId seen, [], successes, true⟩ }
      else some st
  | .generate outputs => match st.process with
    | some ⟨row :: rows, [], successes, true⟩ =>
      let batch := (row :: rows).take args.batchSize
      if belowTarget args successes &&
          batch.all (fun row => (Row.get? "problem".toList row).isSome) then
        some { st with process := some ⟨(row :: rows).drop args.batchSize, batch.zip outputs,
          successes, decide (outputs.length = batch.length)⟩ }
      else none
    | _ => none
  | .append createdAt => match st.process with
    | some ⟨rows, (row, candidates) :: batch, successes, strict⟩ =>
      match shardRow args workerId createdAt row candidates with
      | .ok (newRow, true) => some {
          success := appendJsonl st.success newRow, failure := st.failure
          process := some ⟨rows, batch, successes + 1, strict⟩ }
      | .ok (newRow, false) => some {
          success := st.success, failure := appendJsonl st.failure newRow
          process := some ⟨rows, batch, successes, strict⟩ }
      | .error _ => none
    | _ => none
  | .finish => match st.process with
    | some ⟨rows, [], successes, true⟩ =>
      if rows.isEmpty || !belowTarget args successes then some { st with process := none } else none
    | _ => none
  | .kill => match st.process with
    | some _ => some { st with process := none }
    | none => none

/-! ### All workers -/

/-- The workers `0` to `N - 1`. -/
abbrev ShardWorld := Fin args.numWorkers → Worker

def ShardWorld.initial : ShardWorld args := fun _ => .initial

def workerSteps (source : List Row) (w : Fin args.numWorkers) : Worker → WorkerEvent → Option Worker :=
  workerStep args source w

/-- One worker takes a step. -/
def shardStep (source : List Row) (world : ShardWorld args) (w : Fin args.numWorkers)
    (event : WorkerEvent) : Option (ShardWorld args) :=
  Interleaving.worldStep (workerSteps args source) world w event

/-- The worlds that some interleaving of steps leads to. -/
def ShardReachable (source : List Row) (world : ShardWorld args) : Prop :=
  Interleaving.Reachable (workerSteps args source) (ShardWorld.initial args) world

end worker

end ExtpiRlsd
