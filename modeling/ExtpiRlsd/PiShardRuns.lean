import ExtpiRlsd.PiShardRows

/-! # Runs of sharded trace generation

The invariant of a worker: what it appended are rows of its class, each once, with their traces;
its success file does not pass the target by a whole batch; and the rows before its process are
those of its class that it has not appended (`WorkerInv`).  Every step keeps it, a kill and a new
start among them, since a start reads all of it from the two files.

`shard_loses_nothing` is about every interleaving of all workers. -/

namespace ExtpiRlsd

open PyText PyData

/-! ### Classes and pending rows -/

/-- The row has an id, a string that is not empty. -/
def HasStringId (row : Row) : Prop := ∃ s, Row.get? "id".toList row = some (.str s) ∧ s ≠ []

/-- The source rows have distinct ids. -/
structure DistinctIds (args : ShardArgs) (source : List Row) : Prop where
  ids : ∀ row ∈ source, HasStringId row
  nodup : (source.map (shardId args)).Nodup

section classes
variable {args : ShardArgs} {source : List Row} {workerId : ℕ}

theorem usedRows_initial (args : ShardArgs) (source : List Row) : usedRows args source <+: source := by
  unfold usedRows
  split
  · exact List.prefix_rfl
  · exact List.take_prefix _ _

theorem getElem?_usedRows {i : ℕ} {row : Row} (h : (usedRows args source)[i]? = some row) :
    source[i]? = some row := by
  obtain ⟨hi, rfl⟩ := List.getElem?_eq_some_iff.mp h
  exact List.prefix_iff_getElem?.mp (usedRows_initial args source) i hi

theorem mem_classRows_iff {row : Row} : row ∈ classRows args source workerId ↔
    ∃ i, (usedRows args source)[i]? = some row ∧ i % args.numWorkers = workerId := by
  unfold classRows
  rw [List.mem_map]
  constructor
  · rintro ⟨⟨r, i⟩, hmem, rfl⟩
    obtain ⟨hmem, hi⟩ := List.mem_filter.mp hmem
    exact ⟨i, List.mk_mem_zipIdx_iff_getElem?.mp hmem, beq_iff_eq.mp hi⟩
  · rintro ⟨i, hrow, hi⟩
    exact ⟨(row, i), List.mem_filter.mpr ⟨List.mk_mem_zipIdx_iff_getElem?.mpr hrow,
      beq_iff_eq.mpr hi⟩, rfl⟩

theorem classRows_sublist (args : ShardArgs) (source : List Row) (workerId : ℕ) :
    (classRows args source workerId).Sublist source := by
  have hmap := (List.filter_sublist (l := (usedRows args source).zipIdx)
    (p := fun p => p.2 % args.numWorkers == workerId)).map Prod.fst
  rw [List.zipIdx_map_fst] at hmap
  exact hmap.trans (usedRows_initial args source).sublist

/-- The ids that are waited for. -/
theorem nodup_pendingRows (h : DistinctIds args source) (seen : List PyStr) :
    ((pendingRows args source workerId seen).map (shardId args)).Nodup := by
  have hsub : (pendingRows args source workerId seen).Sublist source :=
    List.filter_sublist.trans (classRows_sublist args source workerId)
  exact h.nodup.sublist (hsub.map _)

theorem mem_pendingRows_iff {seen : List PyStr} {row : Row} :
    row ∈ pendingRows args source workerId seen ↔
      row ∈ classRows args source workerId ∧ shardId args row ∉ seen := by
  rw [pendingRows, List.mem_filter, Bool.not_eq_true', ← Bool.not_eq_true, List.contains_iff_mem]

/-- One more id is seen. -/
theorem pendingRows_insert {seen seen' : List PyStr} {d : PyStr}
    (h : ∀ e, e ∈ seen' ↔ e = d ∨ e ∈ seen) :
    pendingRows args source workerId seen' =
      (pendingRows args source workerId seen).filter fun row => decide (shardId args row ≠ d) := by
  unfold pendingRows
  rw [List.filter_filter]
  apply List.filter_congr
  intro row _
  rw [Bool.eq_iff_iff, Bool.not_eq_true', ← Bool.not_eq_true, List.contains_iff_mem, h,
    Bool.and_eq_true, decide_eq_true_iff, Bool.not_eq_true', ← Bool.not_eq_true,
    List.contains_iff_mem, not_or]

/-- The head of a part of the pending rows is waited for no longer. -/
theorem tail_sublist_pendingRows (hids : DistinctIds args source) {seen seen' : List PyStr}
    {row : Row} {rest : List Row}
    (hsub : (row :: rest).Sublist (pendingRows args source workerId seen))
    (h : ∀ e, e ∈ seen' ↔ e = shardId args row ∨ e ∈ seen) :
    rest.Sublist (pendingRows args source workerId seen') ∧
      (row :: rest = pendingRows args source workerId seen →
        rest = pendingRows args source workerId seen') := by
  have hnodup := (nodup_pendingRows hids seen).sublist (hsub.map (shardId args))
  obtain ⟨hnotMem, -⟩ := List.nodup_cons.mp hnodup
  have hrest : (row :: rest).filter (fun r => decide (shardId args r ≠ shardId args row)) = rest := by
    have hhead : decide (shardId args row ≠ shardId args row) = false := by simp
    rw [List.filter_cons, hhead, if_neg Bool.false_ne_true, List.filter_eq_self]
    intro r hr
    rw [decide_eq_true_iff]
    intro heq
    exact hnotMem (heq ▸ List.mem_map_of_mem hr)
  rw [pendingRows_insert h]
  constructor
  · have hfilter := hsub.filter fun r => decide (shardId args r ≠ shardId args row)
    rw [hrest] at hfilter
    exact hfilter
  · intro heq
    rw [← heq, hrest]

end classes

/-! ### The invariant of one worker -/

/-- The rows of both files. -/
def Worker.appended (st : Worker) : List Row := st.success.getD [] ++ st.failure.getD []

def appendedIds (args : ShardArgs) (st : Worker) : List PyStr := st.appended.map (shardId args)

/-- What a running process has before it. -/
structure ProcessInv (args : ShardArgs) (source : List Row) (workerId : ℕ) (st : Worker)
    (p : ShardProcess) : Prop where
  successes : p.successes = (st.success.getD []).length
  bound : (p.successes : ℤ) + p.batch.length ≤ args.targetSuccesses + args.batchSize - 1
  pending : (p.batch.map Prod.fst ++ p.rows).Sublist
    (pendingRows args source workerId (appendedIds args st))
  all_pending : p.strict = true → p.batch.map Prod.fst ++ p.rows =
    pendingRows args source workerId (appendedIds args st)

/-- The file holds rows with this verification and their traces. -/
def HoldsTraces (args : ShardArgs) (verified : Bool) (file : Option (List Row)) : Prop :=
  ∀ row ∈ file.getD [], ∃ gold candidates trace,
    HasShortestTrace args verified row gold candidates trace

structure WorkerInv (args : ShardArgs) (source : List Row) (workerId : ℕ) (st : Worker) :
    Prop where
  nodup : (appendedIds args st).Nodup
  of_class : ∀ r ∈ st.appended, ∃ row ∈ classRows args source workerId,
    shardId args row = shardId args r
  ids : ∀ r ∈ st.appended, HasStringId r
  success : HoldsTraces args true st.success
  failure : HoldsTraces args false st.failure
  bound : ∀ file, st.success = some file →
    (file.length : ℤ) ≤ args.targetSuccesses + args.batchSize - 1
  process : ∀ p, st.process = some p → ProcessInv args source workerId st p

section steps
variable {args : ShardArgs} {source : List Row} {workerId : ℕ} {st : Worker}

theorem workerInv_initial : WorkerInv args source workerId .initial where
  nodup := .nil
  of_class := fun _ h => absurd h List.not_mem_nil
  ids := fun _ h => absurd h List.not_mem_nil
  success := fun _ h => absurd h List.not_mem_nil
  failure := fun _ h => absurd h List.not_mem_nil
  bound := nofun
  process := nofun

/-- A worker without process keeps its files. -/
theorem WorkerInv.stopped (h : WorkerInv args source workerId st) :
    WorkerInv args source workerId { st with process := none } :=
  ⟨h.nodup, h.of_class, h.ids, h.success, h.failure, h.bound, nofun⟩

/-- A worker with the same files and another process. -/
theorem WorkerInv.withProcess (h : WorkerInv args source workerId st) {p : ShardProcess}
    (hp : ProcessInv args source workerId st p) :
    WorkerInv args source workerId { st with process := some p } := by
  refine ⟨h.nodup, h.of_class, h.ids, h.success, h.failure, h.bound, ?_⟩
  intro q hq
  obtain rfl := Option.some.inj hq
  exact ⟨hp.successes, hp.bound, hp.pending, hp.all_pending⟩

theorem loadSeenIds_eq (h : WorkerInv args source workerId st) :
    loadSeenIds args st.success st.failure = appendedIds args st := by
  have hall : (st.success.getD [] ++ st.failure.getD []).filter
      (fun row => (row.get "id".toList).truthy) = st.success.getD [] ++ st.failure.getD [] := by
    apply List.filter_eq_self.mpr
    intro row hrow
    obtain ⟨s, hs, hne⟩ := h.ids row hrow
    rw [Row.get_of_get? hs]
    cases s with
    | nil => exact absurd rfl hne
    | cons c s => rfl
  rw [loadSeenIds, hall]
  rfl

theorem workerInv_start (h : WorkerInv args source workerId st) {st' : Worker}
    (hstep : workerStep args source workerId st .start = some st') :
    WorkerInv args source workerId st' := by
  rw [workerStep] at hstep
  split at hstep
  · cases hstep
  · dsimp only at hstep
    split at hstep
    · next hbelow =>
        obtain rfl := Option.some.inj hstep
        have hbelow : (((st.success.getD []).length : ℕ) : ℤ) < args.targetSuccesses :=
          of_decide_eq_true hbelow
        have hbatch := args.batch_pos
        rw [loadSeenIds_eq h]
        refine h.withProcess ⟨rfl, ?_, ?_, ?_⟩
        · simp only [List.length_nil]
          omega
        · exact List.Sublist.refl _
        · exact fun _ => rfl
    · obtain rfl := Option.some.inj hstep
      exact h

theorem map_fst_zip_prefix {α β : Type*} (xs : List α) (ys : List β) :
    (xs.zip ys).map Prod.fst <+: xs := by
  induction xs generalizing ys with
  | nil => exact List.prefix_rfl
  | cons x xs ih => cases ys with
    | nil => exact List.nil_prefix
    | cons y ys => exact List.cons_prefix_cons.mpr ⟨rfl, ih ys⟩

theorem workerInv_generate (h : WorkerInv args source workerId st)
    {outputs : List (List Candidate)} {st' : Worker}
    (hstep : workerStep args source workerId st (.generate outputs) = some st') :
    WorkerInv args source workerId st' := by
  rw [workerStep] at hstep
  split at hstep
  · next row rows successes hprocess =>
      dsimp only at hstep
      split at hstep
      · next hguard =>
          obtain rfl := Option.some.inj hstep
          have hp := h.process _ hprocess
          have hall : row :: rows = pendingRows args source workerId (appendedIds args st) :=
            hp.all_pending rfl
          have hbelow : (successes : ℤ) < args.targetSuccesses :=
            of_decide_eq_true ((Bool.and_eq_true _ _).mp hguard).1
          refine h.withProcess ⟨hp.successes, ?_, ?_, ?_⟩
          · have hlength : (((row :: rows).take args.batchSize).zip outputs).length ≤
                args.batchSize := by
              rw [List.length_zip]
              exact (min_le_left _ _).trans (List.length_take_le _ _)
            dsimp only
            omega
          · rw [← hall]
            have hprefix := map_fst_zip_prefix ((row :: rows).take args.batchSize) outputs
            have hsub := hprefix.sublist.append_right ((row :: rows).drop args.batchSize)
            rw [List.take_append_drop] at hsub
            exact hsub
          · intro hstrict
            have hlength := of_decide_eq_true hstrict
            dsimp only
            rw [List.map_fst_zip (le_of_eq hlength.symm), List.take_append_drop]
            exact hall
      · cases hstep
  · cases hstep

theorem shardId_shardRow {createdAt : PyStr} {row newRow : Row} {candidates : List Candidate}
    {verified : Bool}
    (h : shardRow args workerId createdAt row candidates = .ok (newRow, verified)) :
    shardId args newRow = shardId args row := by
  unfold shardId Row.get
  rw [get?_id_shardRow h]

theorem holdsTraces_appendJsonl {createdAt : PyStr} {row newRow : Row}
    {candidates : List Candidate} {verified : Bool} {file : Option (List Row)}
    (hfile : HoldsTraces args verified file)
    (h : shardRow args workerId createdAt row candidates = .ok (newRow, verified)) :
    HoldsTraces args verified (appendJsonl file newRow) := by
  intro r hr
  rcases List.mem_append.mp hr with hr | hr
  · exact hfile r hr
  · rw [List.mem_singleton.mp hr]
    obtain ⟨gold, trace, htrace⟩ := hasShortestTrace_of_shardRow h
    exact ⟨gold, candidates, trace, htrace⟩

/-- The new row is of the class and was in neither file. -/
theorem WorkerInv.append (hids : DistinctIds args source) (h : WorkerInv args source workerId st)
    {st' : Worker} {createdAt : PyStr} {row newRow : Row} {candidates : List Candidate}
    {verified : Bool} {rows : List Row} {batch : List (Row × List Candidate)}
    {successes successes' : ℕ} {strict : Bool}
    (hp : ProcessInv args source workerId st ⟨rows, (row, candidates) :: batch, successes, strict⟩)
    (hrow : shardRow args workerId createdAt row candidates = .ok (newRow, verified))
    (hperm : st'.appended.Perm (newRow :: st.appended))
    (hsuccess : HoldsTraces args true st'.success) (hfailure : HoldsTraces args false st'.failure)
    (hcount : (st'.success.getD []).length = successes') (hle : successes' ≤ successes + 1)
    (hprocess : st'.process = some ⟨rows, batch, successes', strict⟩) :
    WorkerInv args source workerId st' := by
  have hid := shardId_shardRow hrow
  have hpermIds : (appendedIds args st').Perm (shardId args row :: appendedIds args st) := by
    have hmap := hperm.map (shardId args)
    rw [List.map_cons, hid] at hmap
    exact hmap
  have hmem : ∀ e, e ∈ appendedIds args st' ↔ e = shardId args row ∨ e ∈ appendedIds args st := by
    intro e
    rw [hpermIds.mem_iff, List.mem_cons]
  have hpending : row ∈ pendingRows args source workerId (appendedIds args st) :=
    hp.pending.subset List.mem_cons_self
  obtain ⟨hclass, hnew⟩ := mem_pendingRows_iff.mp hpending
  have hsource : row ∈ source := (classRows_sublist args source workerId).subset hclass
  have htail := tail_sublist_pendingRows hids hp.pending hmem
  have hroom : (successes : ℤ) + ((batch.length + 1 : ℕ) : ℤ) ≤
      args.targetSuccesses + args.batchSize - 1 := hp.bound
  constructor
  · exact hpermIds.nodup_iff.mpr (List.nodup_cons.mpr ⟨hnew, h.nodup⟩)
  · intro r hr
    rcases List.mem_cons.mp (hperm.mem_iff.mp hr) with rfl | hr
    · exact ⟨row, hclass, hid.symm⟩
    · exact h.of_class r hr
  · intro r hr
    rcases List.mem_cons.mp (hperm.mem_iff.mp hr) with rfl | hr
    · unfold HasStringId
      rw [get?_id_shardRow hrow]
      exact hids.ids row hsource
    · exact h.ids r hr
  · exact hsuccess
  · exact hfailure
  · intro file hfile
    rw [hfile, Option.getD_some] at hcount
    omega
  · intro p hpnew
    rw [hprocess] at hpnew
    obtain rfl := Option.some.inj hpnew
    refine ⟨hcount.symm, ?_, htail.1, ?_⟩
    · dsimp only
      omega
    · intro hstrict
      exact htail.2 (hp.all_pending hstrict)

theorem workerInv_append (hids : DistinctIds args source) (h : WorkerInv args source workerId st)
    {createdAt : PyStr} {st' : Worker}
    (hstep : workerStep args source workerId st (.append createdAt) = some st') :
    WorkerInv args source workerId st' := by
  rw [workerStep] at hstep
  split at hstep
  · next rows row candidates batch successes strict hprocess =>
      have hp := h.process _ hprocess
      have hsuccesses : successes = (st.success.getD []).length := hp.successes
      split at hstep
      · next newRow hrow =>
          obtain rfl := Option.some.inj hstep
          refine h.append hids hp hrow ?_ (holdsTraces_appendJsonl h.success hrow) h.failure ?_
            (le_refl _) rfl
          · simp [Worker.appended, appendJsonl]
          · simp [appendJsonl, hsuccesses]
      · next newRow hrow =>
          obtain rfl := Option.some.inj hstep
          refine h.append hids hp hrow ?_ h.success (holdsTraces_appendJsonl h.failure hrow)
            hsuccesses.symm (Nat.le_succ _) rfl
          have hlast := List.perm_append_singleton newRow (st.success.getD [] ++ st.failure.getD [])
          simpa [Worker.appended, appendJsonl] using hlast
      · cases hstep
  · cases hstep

/-- A worker that stops leaves its files as they are. -/
theorem workerStep_finish {st' : Worker}
    (hstep : workerStep args source workerId st .finish = some st') :
    ∃ rows successes, st.process = some ⟨rows, [], successes, true⟩ ∧
      (rows = [] ∨ args.targetSuccesses ≤ successes) ∧ st' = { st with process := none } := by
  rw [workerStep] at hstep
  split at hstep
  · next rows successes hprocess =>
      split at hstep
      · next hguard =>
          refine ⟨rows, successes, hprocess, ?_, (Option.some.inj hstep).symm⟩
          rw [Bool.or_eq_true, List.isEmpty_iff, Bool.not_eq_true'] at hguard
          apply hguard.imp_right
          intro hbelow
          exact not_lt.mp (of_decide_eq_false hbelow)
      · cases hstep
  · cases hstep

theorem workerInv_kill (h : WorkerInv args source workerId st) {st' : Worker}
    (hstep : workerStep args source workerId st .kill = some st') :
    WorkerInv args source workerId st' := by
  rw [workerStep] at hstep
  split at hstep
  · obtain rfl := Option.some.inj hstep
    exact h.stopped
  · cases hstep

/-- **Every step of a worker keeps its invariant.** -/
theorem workerInv_step (hids : DistinctIds args source) (h : WorkerInv args source workerId st)
    {event : WorkerEvent} {st' : Worker}
    (hstep : workerStep args source workerId st event = some st') :
    WorkerInv args source workerId st' := by
  cases event with
  | start => exact workerInv_start h hstep
  | generate outputs => exact workerInv_generate h hstep
  | append createdAt => exact workerInv_append hids h hstep
  | finish =>
      obtain ⟨rows, successes, -, -, rfl⟩ := workerStep_finish hstep
      exact h.stopped
  | kill => exact workerInv_kill h hstep

end steps

/-! ### All workers -/

section world
variable {args : ShardArgs} {source : List Row} {world : ShardWorld args}

/-- The invariant of each worker, whatever the others do. -/
theorem workerInv_of_reachable (hids : DistinctIds args source)
    (h : ShardReachable args source world) (w : Fin args.numWorkers) :
    WorkerInv args source w (world w) := by
  unfold ShardReachable at h
  refine Interleaving.forall_of_reachable
    (fun (v : Fin args.numWorkers) st => WorkerInv args source v st) ?_ ?_ h w
  · intro v
    exact workerInv_initial
  · intro v st event st' hst hstep
    exact workerInv_step hids hst hstep

/-- An appended row is a source row of the worker's class. -/
theorem exists_index_of_appended (hids : DistinctIds args source)
    (h : ShardReachable args source world) {w : Fin args.numWorkers} {r : Row}
    (hr : r ∈ (world w).appended) : ∃ i row, source[i]? = some row ∧
      shardId args row = shardId args r ∧ i % args.numWorkers = w := by
  obtain ⟨row, hclass, hid⟩ := (workerInv_of_reachable hids h w).of_class r hr
  obtain ⟨i, hi, hmod⟩ := mem_classRows_iff.mp hclass
  exact ⟨i, row, getElem?_usedRows hi, hid, hmod⟩

theorem DistinctIds.index_inj (hids : DistinctIds args source) {i j : ℕ} {row row' : Row}
    (hi : source[i]? = some row) (hj : source[j]? = some row')
    (heq : shardId args row = shardId args row') : i = j := by
  obtain ⟨hlt, -⟩ := List.getElem?_eq_some_iff.mp hi
  apply (List.getElem?_inj (l := source.map (shardId args)) ?_ hids.nodup).mp
  · rw [List.getElem?_map, List.getElem?_map, hi, hj, Option.map_some, Option.map_some, heq]
  · rw [List.length_map]
    exact hlt

/-- The ids over all success and failure files. -/
def allAppendedIds (world : ShardWorld args) : List PyStr :=
  (List.finRange args.numWorkers).flatMap fun w => appendedIds args (world w)

theorem nodup_allAppendedIds (hids : DistinctIds args source)
    (h : ShardReachable args source world) : (allAppendedIds world).Nodup := by
  apply List.nodup_flatMap.mpr
  constructor
  · intro w _
    exact (workerInv_of_reachable hids h w).nodup
  · apply (List.nodup_finRange args.numWorkers).imp
    intro w v hne
    rw [Function.onFun, List.disjoint_left]
    intro d hw hv
    obtain ⟨r, hr, rfl⟩ := List.mem_map.mp hw
    obtain ⟨r', hr', heq⟩ := List.mem_map.mp hv
    obtain ⟨i, row, hi, hid, hmod⟩ := exists_index_of_appended hids h hr
    obtain ⟨j, row', hj, hid', hmod'⟩ := exists_index_of_appended hids h hr'
    have hij : i = j := hids.index_inj hi hj (by rw [hid, hid', heq])
    apply hne
    apply Fin.ext
    rw [← hmod, ← hmod', hij]

/-- A worker that finishes below its target has appended its class. -/
theorem count_appendedIds_of_finish (hids : DistinctIds args source)
    (h : ShardReachable args source world) {w : Fin args.numWorkers} {world' : ShardWorld args}
    (hfinish : shardStep args source world w .finish = some world')
    (hbelow : (((world w).success.getD []).length : ℤ) < args.targetSuccesses) {row : Row}
    (hrow : row ∈ classRows args source w) :
    (appendedIds args (world' w)).count (shardId args row) = 1 := by
  obtain ⟨st', hst, rfl⟩ := Interleaving.worldStep_eq_some hfinish
  obtain ⟨rows, successes, hprocess, hstop, rfl⟩ := workerStep_finish hst
  have hinv := workerInv_of_reachable hids h w
  have hp := hinv.process _ hprocess
  have hsuccesses : successes = ((world w).success.getD []).length := hp.successes
  rcases hstop with rfl | hreached
  · have hnone : [] = pendingRows args source w (appendedIds args (world w)) := hp.all_pending rfl
    rw [Function.update_self]
    apply List.count_eq_one_of_mem hinv.nodup
    by_contra hnew
    have hpending := mem_pendingRows_iff.mpr ⟨hrow, hnew⟩
    rw [← hnone] at hpending
    exact List.not_mem_nil hpending
  · omega

/-- **Nothing is lost and nothing is appended twice.**  In every interleaving of starts, batches,
appended rows and kills: no id is in two places, and it is in the files of the worker that its row
belongs to; no success file passes the target by a whole batch; a worker that finishes below its
target has appended each row of its class once; and the rows hold the traces of shortest verified
attempts. -/
theorem shard_loses_nothing (hids : DistinctIds args source)
    (h : ShardReachable args source world) :
    (allAppendedIds world).Nodup ∧
    (∀ w, ∀ r ∈ (world w).appended, ∃ i row, source[i]? = some row ∧
      shardId args row = shardId args r ∧ i % args.numWorkers = w) ∧
    (∀ w file, (world w).success = some file →
      (file.length : ℤ) ≤ args.targetSuccesses + args.batchSize - 1) ∧
    (∀ w world', shardStep args source world w .finish = some world' →
      (((world w).success.getD []).length : ℤ) < args.targetSuccesses →
        ∀ row ∈ classRows args source w,
          (appendedIds args (world' w)).count (shardId args row) = 1) ∧
    ∀ w, HoldsTraces args true (world w).success ∧ HoldsTraces args false (world w).failure := by
  refine ⟨nodup_allAppendedIds hids h, ?_, ?_, ?_, ?_⟩
  · intro w r hr
    exact exists_index_of_appended hids h hr
  · intro w
    exact (workerInv_of_reachable hids h w).bound
  · intro w world' hfinish hbelow row hrow
    exact count_appendedIds_of_finish hids h hfinish hbelow hrow
  · intro w
    exact ⟨(workerInv_of_reachable hids h w).success, (workerInv_of_reachable hids h w).failure⟩

end world

/-! ### What the appended rows are made of -/

section madeOf
variable {args : ShardArgs} {source : List Row} {workerId : ℕ} {st st' : Worker} {P : Row → Prop}

/-- What a worker has before it are source rows, and what it appended was made of them. -/
structure MadeOf (source : List Row) (P : Row → Prop) (st : Worker) : Prop where
  appended : ∀ r ∈ st.appended, P r
  process : ∀ p, st.process = some p →
    (∀ row ∈ p.rows, row ∈ source) ∧ ∀ job ∈ p.batch, job.1 ∈ source

theorem MadeOf.append (h : MadeOf source P st) {newRow : Row}
    (hnew : P newRow) (hperm : st'.appended.Perm (newRow :: st.appended)) {rows : List Row}
    {job : Row × List Candidate} {batch : List (Row × List Candidate)} {successes n : ℕ}
    {strict : Bool} (hprocess : st.process = some ⟨rows, job :: batch, n, strict⟩)
    (hprocess' : st'.process = some ⟨rows, batch, successes, strict⟩) : MadeOf source P st' := by
  obtain ⟨hrows, hbatch⟩ := h.process _ hprocess
  constructor
  · intro r hr
    rcases List.mem_cons.mp (hperm.mem_iff.mp hr) with rfl | hr
    · exact hnew
    · exact h.appended r hr
  · intro p hp
    rw [hprocess'] at hp
    obtain rfl := Option.some.inj hp
    exact ⟨hrows, fun job hjob => hbatch job (List.mem_cons_of_mem _ hjob)⟩

/-- Whatever is made of a source row has the property. -/
def MakesOnly (args : ShardArgs) (source : List Row) (P : Row → Prop) : Prop :=
  ∀ row ∈ source, ∀ workerId createdAt candidates newRow verified,
    shardRow args workerId createdAt row candidates = .ok (newRow, verified) → P newRow

theorem madeOf_start (h : MadeOf source P st)
    (hstep : workerStep args source workerId st .start = some st') : MadeOf source P st' := by
  rw [workerStep] at hstep
  split at hstep
  · cases hstep
  · dsimp only at hstep
    split at hstep
    · obtain rfl := Option.some.inj hstep
      refine ⟨h.appended, ?_⟩
      intro p hp
      obtain rfl := Option.some.inj hp
      refine ⟨fun row hrow => ?_, nofun⟩
      exact (classRows_sublist args source workerId).subset (List.mem_of_mem_filter hrow)
    · obtain rfl := Option.some.inj hstep
      exact h

theorem madeOf_generate (h : MadeOf source P st) {outputs : List (List Candidate)}
    (hstep : workerStep args source workerId st (.generate outputs) = some st') :
    MadeOf source P st' := by
  rw [workerStep] at hstep
  split at hstep
  · next row rows successes hprocess =>
      dsimp only at hstep
      split at hstep
      · obtain rfl := Option.some.inj hstep
        have hrows : ∀ r ∈ row :: rows, r ∈ source := (h.process _ hprocess).1
        refine ⟨h.appended, ?_⟩
        intro p hp
        obtain rfl := Option.some.inj hp
        refine ⟨fun r hr => hrows r (List.mem_of_mem_drop hr), ?_⟩
        intro job hjob
        exact hrows job.1 (List.mem_of_mem_take (List.of_mem_zip hjob).1)
      · cases hstep
  · cases hstep

theorem madeOf_append (hrow : MakesOnly args source P) (h : MadeOf source P st)
    {createdAt : PyStr}
    (hstep : workerStep args source workerId st (.append createdAt) = some st') :
    MadeOf source P st' := by
  rw [workerStep] at hstep
  split at hstep
  · next rows row candidates batch successes strict hprocess =>
      have hsource : row ∈ source := (h.process _ hprocess).2 (row, candidates) List.mem_cons_self
      split at hstep
      · next newRow hnew =>
          obtain rfl := Option.some.inj hstep
          refine h.append (hrow row hsource _ _ _ _ _ hnew) ?_ hprocess rfl
          simp [Worker.appended, appendJsonl]
      · next newRow hnew =>
          obtain rfl := Option.some.inj hstep
          refine h.append (hrow row hsource _ _ _ _ _ hnew) ?_ hprocess rfl
          have hlast := List.perm_append_singleton newRow (st.success.getD [] ++ st.failure.getD [])
          simpa [Worker.appended, appendJsonl] using hlast
      · cases hstep
  · cases hstep

theorem madeOf_kill (h : MadeOf source P st)
    (hstep : workerStep args source workerId st .kill = some st') : MadeOf source P st' := by
  rw [workerStep] at hstep
  split at hstep
  · obtain rfl := Option.some.inj hstep
    exact ⟨h.appended, nofun⟩
  · cases hstep

theorem madeOf_step (hrow : MakesOnly args source P) (h : MadeOf source P st)
    {event : WorkerEvent} (hstep : workerStep args source workerId st event = some st') :
    MadeOf source P st' := by
  cases event with
  | start => exact madeOf_start h hstep
  | generate outputs => exact madeOf_generate h hstep
  | append createdAt => exact madeOf_append hrow h hstep
  | finish =>
      obtain ⟨rows, successes, -, -, rfl⟩ := workerStep_finish hstep
      exact ⟨h.appended, nofun⟩
  | kill => exact madeOf_kill h hstep

/-- What holds of every row that is made of a source row holds of every appended row. -/
theorem forall_appended_of_reachable (hrow : MakesOnly args source P) {world : ShardWorld args}
    (h : ShardReachable args source world) (w : Fin args.numWorkers) :
    ∀ r ∈ (world w).appended, P r := by
  have hinv := Interleaving.forall_of_reachable
    (fun (_ : Fin args.numWorkers) (st : Worker) => MadeOf source P st) ?_ ?_ h w
  · exact hinv.appended
  · intro v
    exact ⟨nofun, nofun⟩
  · intro v st event st' hst hstep
    exact madeOf_step hrow hst hstep

end madeOf

/-! ### A worker that is killed -/

theorem one_le_batchSize : 1 ≤ 1 := le_refl 1

/-- Two workers without `math_verify`, for ASCII text. -/
def twoWorkers : ShardArgs where
  numWorkers := 2
  batchSize := 1
  batch_pos := one_le_batchSize
  targetSuccesses := 3
  maxInputRows := none
  modelPath := "model".toList
  params := []
  verifier := ⟨fun _ _ => none, .ascii, ⟨fun _ => true, fun _ => []⟩⟩

def sumRow (id : String) : Row := [("id".toList, .str id.toList),
  ("problem".toList, .str "2 + 2".toList), ("gold_answer".toList, .str "4".toList)]

def threeSums : List Row := [sumRow "a", sumRow "b", sumRow "c"]

theorem distinctIds_threeSums : DistinctIds twoWorkers threeSums where
  ids := by
    intro row hrow
    simp only [threeSums, List.mem_cons, List.not_mem_nil, or_false] at hrow
    rcases hrow with rfl | rfl | rfl <;> exact ⟨_, rfl, by decide⟩
  nodup := by
    have hids : threeSums.map (shardId twoWorkers) = ["a".toList, "b".toList, "c".toList] := by
      simp [threeSums, sumRow, shardId, Row.get, Row.get?]
    rw [hids]
    decide

def firstWorker : Fin twoWorkers.numWorkers := ⟨0, Nat.zero_lt_two⟩

/-- Worker `0` appends a row with a trace, is killed, and goes on with a row without one. -/
def killedOnce : List (Fin twoWorkers.numWorkers × WorkerEvent) := [
  (firstWorker, .start),
  (firstWorker, .generate [[⟨"so \\boxed\x7b4\x7d".toList, .str "stop".toList, 3⟩]]),
  (firstWorker, .append "now".toList), (firstWorker, .kill), (firstWorker, .start),
  (firstWorker, .generate [[⟨"so 5".toList, .str "stop".toList, 2⟩]]),
  (firstWorker, .append "later".toList), (firstWorker, .finish)]

theorem run_killedOnce : ∃ world : ShardWorld twoWorkers,
    Interleaving.run (workerSteps twoWorkers threeSums) (ShardWorld.initial twoWorkers) killedOnce =
      some world ∧
    appendedIds twoWorkers (world firstWorker) = ["a".toList, "c".toList] :=
  ⟨_, rfl, rfl⟩

/-- The killed worker appends both rows of its class, and no id is in two places. -/
theorem shard_loses_nothing_killedOnce : ∃ world : ShardWorld twoWorkers,
    appendedIds twoWorkers (world firstWorker) = ["a".toList, "c".toList] ∧
    (allAppendedIds world).Nodup := by
  obtain ⟨world, hrun, happended⟩ := run_killedOnce
  refine ⟨world, happended, ?_⟩
  have hreachable : ShardReachable twoWorkers threeSums world :=
    Interleaving.reachable_of_run .initial hrun
  exact (shard_loses_nothing distinctIds_threeSums hreachable).1

end ExtpiRlsd
