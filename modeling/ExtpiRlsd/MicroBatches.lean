import ExtpiRlsd.SeqlenBalancing

/-! # Micro-batches

`rearrange_micro_batches` and `restore_dynamic_batch` of `seqlen_balancing.py` with the two
functions of `engine/utils.py` around a forward pass: `prepare_micro_batches` splits the rows of
a rank, and `postprocess_batch_func` puts the outputs of the micro-batches back in order.

The dynamic split takes the lengths of the rows.  Its number of micro-batches is agreed on by the
ranks, so the numbers of the other ranks are an argument.

`rearrangeMicroBatches_eq_ok` describes the split, and `forwardBatch_eq_ok` the pass: whatever
relates every output to its row in one micro-batch relates them in the whole batch. -/

namespace ExtpiRlsd

open Checked Reindex

/-- The lengths of the rows: of a nested tensor, or by an attention mask of a width. -/
inductive BatchLens where
  | nested (seqLenEffective : List ℕ)
  | padded (width : ℕ) (seqLenEffective : List ℕ)

inductive MicroBatchError where
  | emptyBatch
  | maxTokenLen (maxTokenLen : ℕ) (maxSeqLen : String)
  | groupSize (batchSize forceGroupSize : ℕ)
  | tooManyMicroBatches
  | zeroDivision
  | balance (e : BalanceError)
  | microBatchSize
  | chunks (length chunks : ℕ)
  | restoreLength (indices batchSize : ℕ)
  | indexOutOfRange
deriving DecidableEq

/-- The text of a failure; the bound on the number of micro-batches has none. -/
def MicroBatchError.message : MicroBatchError → String
  | emptyBatch => "max() iterable argument is empty"
  | maxTokenLen bound longest =>
      "max_token_len must be greater than the sequence length. Got max_token_len=" ++
        toString bound ++ " and max_seq_len=" ++ longest
  | groupSize batchSize forceGroupSize =>
      "Batch size " ++ toString batchSize ++ " must be divisible by force_group_size " ++
        toString forceGroupSize
  | tooManyMicroBatches => ""
  | zeroDivision => "integer division or modulo by zero"
  | balance e => e.message
  | microBatchSize => "data size must be divisible by force_group_size * micro_batch_size_per_gpu"
  | chunks length count =>
      "expecting td with length divisible by chunks, but got " ++ toString length ++ " and " ++
        toString count
  | restoreLength indices batchSize => toString indices ++ " vs. " ++ toString batchSize
  | indexOutOfRange => "list index out of range"

/-! ### The split by workload -/

/-- `calculate_workload` of one length. -/
def calculateWorkload (seqlen : ℤ) : ℤ := 24576 * seqlen + seqlen ^ 2

/-- `ceildiv`, by the floor division of Python. -/
def ceildiv (a b : ℤ) : ℤ := -(a.fdiv (-b))

/-- `roundup_divisible`. -/
def roundupDivisible (a b : ℕ) : ℕ := (a + b - 1) / b * b

/-- `xs[::2]`. -/
def everySecond {α : Type*} : List α → List α
  | [] => []
  | [x] => [x]
  | x :: _ :: xs => x :: everySecond xs

/-- `xs[::n]`. -/
def everyNth {α : Type*} (n : ℕ) (xs : List α) : List α :=
  (List.range ((xs.length + n - 1) / n)).filterMap fun i => xs[i * n]?

namespace BatchLens

def seqLenEffective : BatchLens → List ℕ
  | nested lens => lens
  | padded _ lens => lens

/-- The longest row of a nested tensor, the width of a mask. -/
def maxSeqLen : BatchLens → Option ℕ
  | nested lens => lens.max?
  | padded width _ => some width

/-- How the longest length prints: a tensor for nested rows, a number for a mask. -/
def printMaxSeqLen : BatchLens → ℕ → String
  | nested _, n => "tensor(" ++ toString n ++ ")"
  | padded _ _, n => toString n

end BatchLens

/-- The number of micro-batches of a rank before the ranks agree. -/
def localNumMicroBatches (lens : BatchLens) (maxTokenLen forceGroupSize : ℕ)
    (minNumMicroBatch : Option ℕ) : ℕ :=
  let numGroups := lens.seqLenEffective.length / forceGroupSize
  let num := min numGroups (ceildiv lens.seqLenEffective.sum maxTokenLen).toNat
  match minNumMicroBatch with
  | none => num
  | some least => max least num

/-- The number of micro-batches the ranks agree on, rounded up to a multiple. -/
def numMicroBatches (lens : BatchLens) (maxTokenLen : ℕ) (peers : List ℕ)
    (numBatchesDividedBy minNumMicroBatch : Option ℕ) (forceGroupSize : ℕ) : ℕ :=
  let num := peers.foldl max
    (localNumMicroBatches lens maxTokenLen forceGroupSize minNumMicroBatch)
  numBatchesDividedBy.elim num (roundupDivisible num)

/-- The workloads of the groups of `forceGroupSize` consecutive rows. -/
def groupWorkloads (lens : BatchLens) (forceGroupSize : ℕ) : List ℤ :=
  (runs (lens.seqLenEffective.length / forceGroupSize) forceGroupSize
    (lens.seqLenEffective.map fun n : ℕ => calculateWorkload n)).map List.sum

/-- The rows of a list of groups. -/
def groupRows (forceGroupSize : ℕ) (groups : List ℕ) : List ℕ :=
  groups.flatMap fun g => List.range' (g * forceGroupSize) forceGroupSize

/-- What the micro-batches are sorted by: their workload, then their first row. -/
def microBatchKey (workloads : List ℤ) (forceGroupSize : ℕ) (rows : List ℕ) : ℤ ×ₗ ℕ :=
  toLex (((everyNth forceGroupSize rows).map fun i => workloads.getD (i / forceGroupSize) 0).sum,
    rows.headD 0)

/-- Largest first, then every second one in front, reversed: the small ones at both ends. -/
def placeSmallAtEnds (workloads : List ℤ) (forceGroupSize : ℕ) (idx : List (List ℕ)) :
    List (List ℕ) :=
  let sorted := idx.insertionSort fun p q =>
    microBatchKey workloads forceGroupSize q ≤ microBatchKey workloads forceGroupSize p
  (everySecond sorted).reverse ++ everySecond sorted.tail

/-- The row indices of `rearrange_micro_batches`; `peers` are the numbers of micro-batches of the
other ranks, none without a group.  Groups of one row are the case without
`force_group_size`. -/
def rearrangeMicroBatches (lens : BatchLens) (maxTokenLen : ℕ) (peers : List ℕ)
    (numBatchesDividedBy minNumMicroBatch : Option ℕ) (useDynamicBszBalance : Bool)
    (forceGroupSize : ℕ) : Except MicroBatchError (List (List ℕ)) := do
  let maxSeqLen ← lens.maxSeqLen.elim (.error .emptyBatch) .ok
  if maxTokenLen < maxSeqLen then throw (.maxTokenLen maxTokenLen (lens.printMaxSeqLen maxSeqLen))
  let batchSize := lens.seqLenEffective.length
  if forceGroupSize = 0 then throw .zeroDivision
  if batchSize % forceGroupSize ≠ 0 then throw (.groupSize batchSize forceGroupSize)
  let numGroups := batchSize / forceGroupSize
  if maxTokenLen = 0 then throw .zeroDivision
  if numBatchesDividedBy = some 0 then throw .zeroDivision
  let num := numMicroBatches lens maxTokenLen peers numBatchesDividedBy minNumMicroBatch
    forceGroupSize
  if numGroups < num then throw .tooManyMicroBatches
  let workloads := groupWorkloads lens forceGroupSize
  let groupIdx ← (getSeqlenBalancedPartitions workloads num false).mapError .balance
  let idx := groupIdx.map (groupRows forceGroupSize)
  return if useDynamicBszBalance then placeSmallAtEnds workloads forceGroupSize idx else idx

/-! ### Splitting and putting back -/

/-- `reverse_idx_map[idx] = i`. -/
def assignIndex (reverseIdxMap : List ℕ) (p : ℕ × ℕ) : Except MicroBatchError (List ℕ) :=
  if p.1 < reverseIdxMap.length then .ok (reverseIdxMap.set p.1 p.2) else .error .indexOutOfRange

/-- `get_reverse_idx`. -/
def getReverseIdx (idxMap : List ℕ) : Except MicroBatchError (List ℕ) :=
  idxMap.zipIdx.foldlM assignIndex idxMap

/-- `restore_dynamic_batch` of the rows of a tensor. -/
def restoreDynamicBatch {β : Type} (data : List β) (batchIdxList : List (List ℕ)) :
    Except MicroBatchError (List β) := do
  let indices := batchIdxList.flatten
  if indices.length ≠ data.length then throw (.restoreLength indices.length data.length)
  let revertIndices ← getReverseIdx indices
  (gather? data revertIndices).elim (.error .indexOutOfRange) .ok

/-- The options of `prepare_micro_batches`. -/
structure MicroBatchConfig where
  useDynamicBsz : Bool
  maxTokenLenPerGpu : ℕ
  microBatchSizePerGpu : ℕ
  spSize : ℕ
  forceGroupSize : ℕ

section rows
variable {ρ β : Type} (config : MicroBatchConfig) (len : ρ → ℕ)

/-- `chunk_tensordict`. -/
def chunkTensordict (td : List ρ) (chunks : ℕ) : Except MicroBatchError (List (List ρ)) :=
  if chunks = 0 then .error .zeroDivision
  else if td.length % chunks ≠ 0 then .error (.chunks td.length chunks)
  else .ok (runs chunks (td.length / chunks) td)

/-- `prepare_micro_batches` of nested rows: the micro-batches, and for the dynamic split the
indices of their rows. -/
def prepareMicroBatches (peers : List ℕ) (data : List ρ) :
    Except MicroBatchError (List (List ρ) × Option (List (List ℕ))) := do
  if config.useDynamicBsz then
    let idx ← rearrangeMicroBatches (.nested (data.map len))
      (config.maxTokenLenPerGpu * config.spSize) peers none none true config.forceGroupSize
    let microBatches ← idx.mapM fun p => (gather? data p).elim (.error .indexOutOfRange) .ok
    return (microBatches, some idx)
  else
    let size := config.forceGroupSize * config.microBatchSizePerGpu
    if size = 0 then throw .zeroDivision
    if data.length % size ≠ 0 then throw .microBatchSize
    let microBatches ← chunkTensordict data
      (data.length / (config.microBatchSizePerGpu * config.forceGroupSize))
    return (microBatches, none)

/-- The model output of `forward_backward_batch`: the outputs of the micro-batches behind each
other, and in the order of the rows after `postprocess_batch_func`. -/
def forwardBatch (forwardStep : List ρ → List β) (peers : List ℕ) (data : List ρ) :
    Except MicroBatchError (List β) := do
  let (microBatches, indices) ← prepareMicroBatches config len peers data
  let modelOutput := (microBatches.map forwardStep).flatten
  match indices with
  | some idx => restoreDynamicBatch modelOutput idx
  | none => return modelOutput

end rows

/-! ### The order of the micro-batches -/

theorem everySecond_cons {α : Type*} (x : α) (xs : List α) :
    everySecond (x :: xs) = x :: everySecond xs.tail := by
  cases xs <;> rfl

theorem everySecond_perm {α : Type*} (xs : List α) :
    (everySecond xs ++ everySecond xs.tail).Perm xs := by
  induction xs with
  | nil => exact List.Perm.refl _
  | cons x xs ih =>
      rw [everySecond_cons, List.tail_cons, List.cons_append]
      exact (List.perm_append_comm.trans ih).cons x

theorem placeSmallAtEnds_perm (workloads : List ℤ) (forceGroupSize : ℕ) (idx : List (List ℕ)) :
    (placeSmallAtEnds workloads forceGroupSize idx).Perm idx :=
  ((List.reverse_perm _).append_right _).trans
    ((everySecond_perm _).trans (List.perm_insertionSort _ idx))

theorem groupRows_range (forceGroupSize n : ℕ) :
    groupRows forceGroupSize (List.range n) = List.range (n * forceGroupSize) := by
  induction n with
  | zero => simp [groupRows]
  | succ n ih =>
      rw [List.range_succ, groupRows, List.flatMap_append, ← groupRows, ih, Nat.succ_mul,
        List.range_add]
      simp [List.range'_eq_map_range]

theorem flatten_map_groupRows (forceGroupSize : ℕ) (groups : List (List ℕ)) :
    (groups.map (groupRows forceGroupSize)).flatten = groupRows forceGroupSize groups.flatten := by
  induction groups with
  | nil => rfl
  | cons g gs ih =>
      rw [List.map_cons, List.flatten_cons, ih, List.flatten_cons]
      simp only [groupRows, List.flatMap_append]

/-- The workload of rows with these lengths. -/
def rowsWorkload (lens : BatchLens) (rows : List ℕ) : ℤ :=
  (rows.map fun i => calculateWorkload (lens.seqLenEffective.getD i 0)).sum

section split
variable {lens : BatchLens} {forceGroupSize : ℕ}

theorem rowsWorkload_groupRows (hdvd : forceGroupSize ∣ lens.seqLenEffective.length)
    {groups : List ℕ} (h : ∀ g ∈ groups, g < lens.seqLenEffective.length / forceGroupSize) :
    rowsWorkload lens (groupRows forceGroupSize groups) =
      load (groupWorkloads lens forceGroupSize) groups := by
  have hgroup : ∀ g < lens.seqLenEffective.length / forceGroupSize,
      rowsWorkload lens (List.range' (g * forceGroupSize) forceGroupSize) =
        (groupWorkloads lens forceGroupSize).getD g 0 := by
    intro g hg
    have hle : (g + 1) * forceGroupSize ≤ lens.seqLenEffective.length := by
      rw [← Nat.div_mul_cancel hdvd]
      exact Nat.mul_le_mul_right _ hg
    rw [Nat.succ_mul] at hle
    rw [List.getD_eq_getElem?_getD, groupWorkloads, runs, List.map_map, List.getElem?_map,
      List.getElem?_range hg, rowsWorkload]
    refine congrArg List.sum (List.ext_getElem ?_ fun i hi _ => ?_)
    · simp only [List.length_map, List.length_range', List.length_take, List.length_drop]
      omega
    · rw [List.length_map, List.length_range'] at hi
      have hi' : g * forceGroupSize + i < lens.seqLenEffective.length := by omega
      simp only [List.getElem_map, List.getElem_range', List.getElem_take, List.getElem_drop,
        Nat.one_mul]
      rw [List.getD_eq_getElem _ _ hi']
  induction groups with
  | nil => rfl
  | cons g gs ih =>
      have ih := ih fun g' hg' => h g' (List.mem_cons_of_mem _ hg')
      have hg := hgroup g (h g List.mem_cons_self)
      rw [rowsWorkload] at ih hg ⊢
      rw [groupRows, List.flatMap_cons, List.map_append, List.sum_append, hg, ← groupRows, ih]
      rfl

theorem groupWorkloads_nonneg : ∀ v ∈ groupWorkloads lens forceGroupSize, 0 ≤ v := by
  intro v hv
  obtain ⟨r, hr, rfl⟩ := List.mem_map.mp hv
  refine List.sum_nonneg fun w hw => ?_
  obtain ⟨j, -, rfl⟩ := List.mem_map.mp hr
  obtain ⟨n, -, rfl⟩ := List.mem_map.mp (List.mem_of_mem_drop (List.mem_of_mem_take hw))
  rw [calculateWorkload]
  positivity

/-- What `rearrange_micro_batches` returns for a number of micro-batches: they share out the
rows, hold whole groups, and differ in workload by no more than a group has. -/
structure MicroBatchSplit (lens : BatchLens) (num forceGroupSize : ℕ) (idx : List (List ℕ)) :
    Prop where
  length_eq : idx.length = num
  perm : idx.flatten.Perm (List.range lens.seqLenEffective.length)
  groups : ∀ p ∈ idx, ∃ gs : List ℕ, gs ≠ [] ∧ gs.Pairwise (· < ·) ∧ p = groupRows forceGroupSize gs
  balanced : ∀ d, (∀ v ∈ groupWorkloads lens forceGroupSize, v ≤ d) →
    ∀ p ∈ idx, ∀ q ∈ idx, rowsWorkload lens p - rowsWorkload lens q ≤ d

theorem MicroBatchSplit.of_perm {num : ℕ} {idx idx' : List (List ℕ)}
    (h : MicroBatchSplit lens num forceGroupSize idx) (hp : idx'.Perm idx) :
    MicroBatchSplit lens num forceGroupSize idx' where
  length_eq := hp.length_eq.trans h.length_eq
  perm := hp.flatten.trans h.perm
  groups p hp' := h.groups p (hp.mem_iff.mp hp')
  balanced d hd p hp' q hq' := h.balanced d hd p (hp.mem_iff.mp hp') q (hp.mem_iff.mp hq')

/-- The split of balanced groups. -/
theorem MicroBatchSplit.of_groups (hdvd : forceGroupSize ∣ lens.seqLenEffective.length) {num : ℕ}
    {groupIdx : List (List ℕ)}
    (h : getSeqlenBalancedPartitions (groupWorkloads lens forceGroupSize) num false = .ok groupIdx) :
    MicroBatchSplit lens num forceGroupSize (groupIdx.map (groupRows forceGroupSize)) := by
  have hparts := (getSeqlenBalancedPartitions_eq_ok groupWorkloads_nonneg).1 groupIdx h
  have hcount : (groupWorkloads lens forceGroupSize).length =
      lens.seqLenEffective.length / forceGroupSize := by simp [groupWorkloads]
  have hlt : ∀ p ∈ groupIdx, ∀ g ∈ p, g < lens.seqLenEffective.length / forceGroupSize := by
    intro p hp g hg
    rw [← hcount]
    exact List.mem_range.mp (hparts.perm.mem_iff.mp (List.mem_flatten_of_mem hp hg))
  refine ⟨by rw [List.length_map, hparts.length_eq], ?_, ?_, ?_⟩
  · rw [flatten_map_groupRows, ← Nat.div_mul_cancel hdvd, ← groupRows_range, ← hcount]
    exact hparts.perm.flatMap_right _
  · intro _ hq
    obtain ⟨gs, hgs, rfl⟩ := List.mem_map.mp hq
    exact ⟨gs, hparts.ne_nil gs hgs, hparts.increasing gs hgs, rfl⟩
  · intro d hd _ hp' _ hq'
    obtain ⟨p, hp, rfl⟩ := List.mem_map.mp hp'
    obtain ⟨q, hq, rfl⟩ := List.mem_map.mp hq'
    rw [rowsWorkload_groupRows hdvd (hlt p hp), rowsWorkload_groupRows hdvd (hlt q hq)]
    refine (getSeqlenBalancedPartitions_balanced groupWorkloads_nonneg h).1 d ⟨?_, fun _ => hd⟩
      p hp q hq
    intro v hv w hw
    have := hd v hv
    have := groupWorkloads_nonneg w hw
    omega

/-- The conditions under which `rearrange_micro_batches` returns. -/
structure Splittable (lens : BatchLens) (maxTokenLen num : ℕ) (numBatchesDividedBy : Option ℕ)
    (forceGroupSize : ℕ) : Prop where
  longest : ∃ longest, lens.maxSeqLen = some longest ∧ longest ≤ maxTokenLen
  maxTokenLen_pos : 0 < maxTokenLen
  forceGroupSize_pos : 0 < forceGroupSize
  dvd : forceGroupSize ∣ lens.seqLenEffective.length
  divided_pos : numBatchesDividedBy ≠ some 0
  num_pos : 1 ≤ num
  num_le : num ≤ lens.seqLenEffective.length / forceGroupSize

/-- **The split returns exactly under these conditions, and what it returns is a split.** -/
theorem rearrangeMicroBatches_eq_ok (lens : BatchLens) (maxTokenLen : ℕ) (peers : List ℕ)
    (numBatchesDividedBy minNumMicroBatch : Option ℕ) (useDynamicBszBalance : Bool)
    (forceGroupSize : ℕ) :
    let num := numMicroBatches lens maxTokenLen peers numBatchesDividedBy minNumMicroBatch
      forceGroupSize
    let result := rearrangeMicroBatches lens maxTokenLen peers numBatchesDividedBy
      minNumMicroBatch useDynamicBszBalance forceGroupSize
    (∀ idx, result = .ok idx → MicroBatchSplit lens num forceGroupSize idx) ∧
      ((∃ idx, result = .ok idx) ↔
        Splittable lens maxTokenLen num numBatchesDividedBy forceGroupSize) := by
  intro num result
  have hcount : (groupWorkloads lens forceGroupSize).length =
      lens.seqLenEffective.length / forceGroupSize := by simp [groupWorkloads]
  have hreturns : (∃ groupIdx, getSeqlenBalancedPartitions (groupWorkloads lens forceGroupSize) num
      false = .ok groupIdx) ↔ _ := (getSeqlenBalancedPartitions_eq_ok groupWorkloads_nonneg).2
  constructor
  · intro idx h
    simp only [result, rearrangeMicroBatches, do_eq_ok_iff, guard_eq_ok_iff, mapError_eq_ok_iff,
      elim_eq_ok_iff, pure, Except.pure, Except.ok.injEq] at h
    obtain ⟨_, _, _, _, hmod, _, _, _, groupIdx, hgroups, rfl⟩ := h
    have hsplit := MicroBatchSplit.of_groups
      (Nat.dvd_of_mod_eq_zero (not_not.mp hmod)) hgroups
    split_ifs
    · exact hsplit.of_perm (placeSmallAtEnds_perm _ _ _)
    · exact hsplit
  · constructor
    · rintro ⟨idx, h⟩
      simp only [result, rearrangeMicroBatches, do_eq_ok_iff, guard_eq_ok_iff, mapError_eq_ok_iff,
        elim_eq_ok_iff] at h
      obtain ⟨longest, hlongest, hle, hforce, hmod, hmax, hdivided, hnum, groupIdx, hgroups, _⟩ := h
      obtain ⟨hk, hcount', -⟩ := numbers_of_eq_ok hgroups
      rw [hcount] at hcount'
      exact ⟨⟨longest, hlongest, by omega⟩, by omega, by omega,
        Nat.dvd_of_mod_eq_zero (not_not.mp hmod), hdivided, hk, hcount'⟩
    · intro h
      obtain ⟨longest, hlongest, hle⟩ := h.longest
      obtain ⟨groupIdx, hgroups⟩ := hreturns.mpr
        ⟨h.num_pos, by rw [hcount]; exact h.num_le, fun h => absurd h Bool.false_ne_true⟩
      refine ⟨if useDynamicBszBalance then
        placeSmallAtEnds (groupWorkloads lens forceGroupSize) forceGroupSize
          (groupIdx.map (groupRows forceGroupSize))
        else groupIdx.map (groupRows forceGroupSize), ?_⟩
      simp only [result, rearrangeMicroBatches, do_eq_ok_iff, guard_eq_ok_iff, mapError_eq_ok_iff,
        elim_eq_ok_iff]
      have hforce := h.forceGroupSize_pos
      have hmax := h.maxTokenLen_pos
      exact ⟨longest, hlongest, by omega, by omega, by simpa using Nat.mod_eq_zero_of_dvd h.dvd,
        by omega, h.divided_pos, not_lt.mpr h.num_le, groupIdx, hgroups, rfl⟩

end split

/-! ### The order of the rows -/

/-- Assignments at different places: every place holds what was assigned to it. -/
theorem exists_assigned {n : ℕ} {ps : List (ℕ × ℕ)} (hnodup : (ps.map Prod.fst).Nodup)
    (hlt : ∀ p ∈ ps, p.1 < n) : ∀ rev : List ℕ, rev.length = n → ∃ rev' : List ℕ,
      ps.foldlM assignIndex rev = .ok rev' ∧ rev'.length = n ∧
      (∀ p ∈ ps, rev'[p.1]? = some p.2) ∧ ∀ j, j ∉ ps.map Prod.fst → rev'[j]? = rev[j]? := by
  induction ps with
  | nil => exact fun rev hrev => ⟨rev, rfl, hrev, by simp, fun j _ => rfl⟩
  | cons p ps ih =>
      intro rev hrev
      rw [List.map_cons, List.nodup_cons] at hnodup
      have hp := hlt p List.mem_cons_self
      obtain ⟨rev', h, hlen, hassigned, hother⟩ :=
        ih hnodup.2 (fun q hq => hlt q (List.mem_cons_of_mem _ hq)) (rev.set p.1 p.2)
          (by simpa using hrev)
      refine ⟨rev', ?_, hlen, ?_, ?_⟩
      · rw [List.foldlM_cons, assignIndex, if_pos (by omega)]
        exact h
      · intro q hq
        rcases List.mem_cons.mp hq with rfl | hq
        · rw [hother _ hnodup.1, List.getElem?_set_self (by omega)]
        · exact hassigned q hq
      · intro j hj
        rw [List.map_cons, List.mem_cons, not_or] at hj
        rw [hother j hj.2, List.getElem?_set_ne (Ne.symm hj.1)]

theorem getReverseIdx_eq_ok {idxMap : List ℕ} {n : ℕ} (hperm : idxMap.Perm (List.range n)) :
    ∃ rev, getReverseIdx idxMap = .ok rev ∧ IsInverse idxMap rev := by
  have hfst : idxMap.zipIdx.map Prod.fst = idxMap := List.zipIdx_map_fst 0 idxMap
  have hnodup : (idxMap.zipIdx.map Prod.fst).Nodup := by
    rw [hfst]
    exact hperm.nodup_iff.mpr List.nodup_range
  have hlen : idxMap.length = n := by rw [hperm.length_eq, List.length_range]
  obtain ⟨rev, h, hrev, hassigned, -⟩ := exists_assigned hnodup (n := n) (fun p hp =>
    List.mem_range.mp (hperm.mem_iff.mp (List.fst_mem_of_mem_zipIdx hp))) idxMap hlen
  refine ⟨rev, h, hrev.trans hlen.symm, fun i j hij => ?_⟩
  exact hassigned (j, i) (List.mem_zipIdx_iff_getElem?.mpr hij)

section forward
variable {ρ β : Type} {config : MicroBatchConfig} {len : ρ → ℕ} {R : ρ → β → Prop}

/-- **Rows computed in micro-batches are put back in the order of the batch.** -/
theorem restoreDynamicBatch_eq_ok {data : List ρ} {idx : List (List ℕ)}
    (hperm : idx.flatten.Perm (List.range data.length)) {microBatches : List (List ρ)}
    (hmicro : List.Forall₂ (fun p rows => gather? data p = some rows) idx microBatches)
    {outputs : List (List β)} (hout : List.Forall₂ (List.Forall₂ R) microBatches outputs) :
    ∃ restored, restoreDynamicBatch outputs.flatten idx = .ok restored ∧
      List.Forall₂ R data restored := by
  obtain ⟨rev, hrev, hinverse⟩ := getReverseIdx_eq_ok hperm
  obtain ⟨restored, hrestored, hrel⟩ := exists_gather?_restored hperm hinverse hmicro hout
  refine ⟨restored, ?_, hrel⟩
  have hlength : idx.flatten.length = outputs.flatten.length := by
    rw [(gather?_eq_some_iff.mp (gather?_flatten hmicro)).length_eq,
      (List.rel_flatten hout).length_eq]
  simp only [restoreDynamicBatch, do_eq_ok_iff, guard_eq_ok_iff, elim_eq_ok_iff]
  exact ⟨not_not.mpr hlength, rev, hrev, hrestored⟩

/-- The conditions under which the rows of a rank are split. -/
def Prepares (config : MicroBatchConfig) (len : ρ → ℕ) (peers : List ℕ) (data : List ρ) : Prop :=
  if config.useDynamicBsz then
    Splittable (.nested (data.map len)) (config.maxTokenLenPerGpu * config.spSize)
      (numMicroBatches (.nested (data.map len)) (config.maxTokenLenPerGpu * config.spSize) peers
        none none config.forceGroupSize) none config.forceGroupSize
  else 0 < data.length ∧ 0 < config.forceGroupSize * config.microBatchSizePerGpu ∧
    config.forceGroupSize * config.microBatchSizePerGpu ∣ data.length

theorem prepares_iff_splittable {peers : List ℕ} {data : List ρ}
    (hdynamic : config.useDynamicBsz = true) : Prepares config len peers data ↔
      Splittable (.nested (data.map len)) (config.maxTokenLenPerGpu * config.spSize)
        (numMicroBatches (.nested (data.map len)) (config.maxTokenLenPerGpu * config.spSize) peers
          none none config.forceGroupSize) none config.forceGroupSize := by
  rw [Prepares, if_pos hdynamic]

theorem forall₂_map_forwardStep {forwardStep : List ρ → List β} {data : List ρ}
    (hstep : ∀ rows : List ρ, (∀ r ∈ rows, r ∈ data) → List.Forall₂ R rows (forwardStep rows))
    {microBatches : List (List ρ)} (hmem : ∀ rows ∈ microBatches, ∀ r ∈ rows, r ∈ data) :
    List.Forall₂ (List.Forall₂ R) microBatches (microBatches.map forwardStep) :=
  List.forall₂_map_right_iff.mpr
    (List.forall₂_same.mpr fun rows hrows => hstep rows (hmem rows hrows))

theorem prepareMicroBatches_dynamic {peers : List ℕ} {data : List ρ}
    (hdynamic : config.useDynamicBsz = true) {prepared : List (List ρ) × Option (List (List ℕ))} :
    prepareMicroBatches config len peers data = .ok prepared ↔
      ∃ idx, rearrangeMicroBatches (.nested (data.map len))
          (config.maxTokenLenPerGpu * config.spSize) peers none none true config.forceGroupSize =
            .ok idx ∧
        ∃ microBatches, idx.mapM (fun p => (gather? data p).elim
            (Except.error MicroBatchError.indexOutOfRange) Except.ok) = .ok microBatches ∧
          prepared = (microBatches, some idx) := by
  simp only [prepareMicroBatches, hdynamic, if_true, do_eq_ok_iff, pure, Except.pure,
    Except.ok.injEq]
  constructor
  · rintro ⟨idx, hidx, microBatches, hmicro, rfl⟩
    exact ⟨idx, hidx, microBatches, hmicro, rfl⟩
  · rintro ⟨idx, hidx, microBatches, hmicro, rfl⟩
    exact ⟨idx, hidx, microBatches, hmicro, rfl⟩

theorem prepareMicroBatches_fixed {peers : List ℕ} {data : List ρ}
    (hdynamic : config.useDynamicBsz = false) {prepared : List (List ρ) × Option (List (List ℕ))} :
    prepareMicroBatches config len peers data = .ok prepared ↔
      (0 < data.length ∧ 0 < config.forceGroupSize * config.microBatchSizePerGpu ∧
        config.forceGroupSize * config.microBatchSizePerGpu ∣ data.length) ∧
      prepared = (runs (data.length / (config.forceGroupSize * config.microBatchSizePerGpu))
        (config.forceGroupSize * config.microBatchSizePerGpu) data, none) := by
  rw [prepareMicroBatches, hdynamic, if_neg Bool.false_ne_true,
    Nat.mul_comm config.microBatchSizePerGpu]
  generalize config.forceGroupSize * config.microBatchSizePerGpu = size
  simp only [guard_eq_ok_iff, do_eq_ok_iff, chunkTensordict]
  constructor
  · rintro ⟨hsize, hmod, microBatches, hchunk, hprepared⟩
    have hdvd := Nat.dvd_of_mod_eq_zero (not_not.mp hmod)
    split_ifs at hchunk with hzero
    cases hchunk
    cases hprepared
    have hpos : 0 < data.length / size := Nat.pos_of_ne_zero hzero
    have hdata : 0 < data.length := by
      by_contra hnot
      rw [Nat.eq_zero_of_not_pos hnot, Nat.zero_div] at hpos
      exact absurd hpos (lt_irrefl 0)
    refine ⟨⟨hdata, by omega, hdvd⟩, ?_⟩
    rw [Nat.div_div_self hdvd (by omega)]
  · rintro ⟨⟨hdata, hsize, hdvd⟩, rfl⟩
    have hpos : 0 < data.length / size := Nat.div_pos (Nat.le_of_dvd hdata hdvd) hsize
    refine ⟨by omega, by simpa using Nat.mod_eq_zero_of_dvd hdvd, _, ?_, rfl⟩
    rw [if_neg (by omega), if_neg (by simpa using Nat.mod_eq_zero_of_dvd (Nat.div_dvd_of_dvd hdvd)),
      Nat.div_div_self hdvd (by omega)]

/-- The micro-batches of the dynamic split, with the split and the rows it selects. -/
theorem exists_prepareMicroBatches_dynamic {peers : List ℕ} {data : List ρ}
    (hdynamic : config.useDynamicBsz = true) (h : Prepares config len peers data) :
    ∃ idx microBatches, prepareMicroBatches config len peers data = .ok (microBatches, some idx) ∧
      idx.flatten.Perm (List.range data.length) ∧
      idx.length = numMicroBatches (.nested (data.map len))
        (config.maxTokenLenPerGpu * config.spSize) peers none none config.forceGroupSize ∧
      List.Forall₂ (fun p rows => gather? data p = some rows) idx microBatches := by
  have hsplit := rearrangeMicroBatches_eq_ok (.nested (data.map len))
    (config.maxTokenLenPerGpu * config.spSize) peers none none true config.forceGroupSize
  obtain ⟨idx, hidx⟩ := hsplit.2.mpr ((prepares_iff_splittable hdynamic).mp h)
  have hperm : idx.flatten.Perm (List.range data.length) := by
    have := (hsplit.1 idx hidx).perm
    rwa [BatchLens.seqLenEffective, List.length_map] at this
  obtain ⟨microBatches, hmapM, hmicro⟩ : ∃ microBatches : List (List ρ),
      idx.mapM (fun p => (gather? data p).elim
        (Except.error MicroBatchError.indexOutOfRange) Except.ok) = .ok microBatches ∧
      List.Forall₂ (fun p rows => gather? data p = some rows) idx microBatches :=
    exists_mapM_eq_ok fun p hp => by
      obtain ⟨rows, hrows⟩ := exists_gather? fun i hi =>
        List.mem_range.mp (hperm.mem_iff.mp (List.mem_flatten_of_mem hp hi))
      exact ⟨rows, by rw [hrows]; rfl, hrows⟩
  exact ⟨idx, microBatches, (prepareMicroBatches_dynamic hdynamic).mpr
    ⟨idx, hidx, microBatches, hmapM, rfl⟩, hperm, (hsplit.1 idx hidx).length_eq, hmicro⟩

theorem exists_prepareMicroBatches {peers : List ℕ} {data : List ρ}
    (h : Prepares config len peers data) :
    ∃ prepared, prepareMicroBatches config len peers data = .ok prepared := by
  cases hdynamic : config.useDynamicBsz with
  | true =>
      obtain ⟨idx, microBatches, hprepared, -⟩ := exists_prepareMicroBatches_dynamic hdynamic h
      exact ⟨_, hprepared⟩
  | false =>
      rw [Prepares, if_neg (by simp [hdynamic])] at h
      exact ⟨_, (prepareMicroBatches_fixed hdynamic).mpr ⟨h, rfl⟩⟩

/-- The rows of a rank are split and the outputs put back in order. -/
theorem forwardBatch_of_prepares {forwardStep : List ρ → List β} {peers : List ℕ}
    {data : List ρ} (hstep : ∀ rows : List ρ, (∀ r ∈ rows, r ∈ data) →
      List.Forall₂ R rows (forwardStep rows)) (h : Prepares config len peers data) :
    ∃ outputs, forwardBatch config len forwardStep peers data = .ok outputs ∧
      List.Forall₂ R data outputs := by
  simp only [forwardBatch, do_eq_ok_iff]
  cases hdynamic : config.useDynamicBsz with
  | true =>
      obtain ⟨idx, microBatches, hprepared, hperm, -, hmicro⟩ :=
        exists_prepareMicroBatches_dynamic hdynamic h
      have hmem : ∀ rows ∈ microBatches, ∀ r ∈ rows, r ∈ data := by
        intro rows hrows r hr
        obtain ⟨p, -, hp⟩ := exists_of_forall₂ hmicro.flip hrows
        obtain ⟨i, -, hi⟩ := exists_of_forall₂ (gather?_eq_some_iff.mp hp).flip hr
        exact List.mem_of_getElem? hi
      obtain ⟨restored, hrestored, hrel⟩ := restoreDynamicBatch_eq_ok hperm hmicro
        (forall₂_map_forwardStep hstep hmem)
      exact ⟨restored, ⟨_, hprepared, hrestored⟩, hrel⟩
  | false =>
      rw [Prepares, if_neg (by simp [hdynamic])] at h
      have hflat := flatten_runs (Nat.div_mul_cancel h.2.2).symm
      have hmem : ∀ rows ∈ runs (data.length / (config.forceGroupSize * config.microBatchSizePerGpu))
          (config.forceGroupSize * config.microBatchSizePerGpu) data, ∀ r ∈ rows, r ∈ data := by
        intro rows hrows r hr
        rw [← hflat]
        exact List.mem_flatten_of_mem hrows hr
      have hrel := List.rel_flatten (forall₂_map_forwardStep hstep hmem)
      rw [hflat] at hrel
      exact ⟨_, ⟨_, (prepareMicroBatches_fixed hdynamic).mpr ⟨h, rfl⟩, rfl⟩, hrel⟩

theorem prepares_of_eq_ok {peers : List ℕ} {data : List ρ}
    {prepared : List (List ρ) × Option (List (List ℕ))}
    (h : prepareMicroBatches config len peers data = .ok prepared) :
    Prepares config len peers data := by
  cases hdynamic : config.useDynamicBsz with
  | true =>
      obtain ⟨idx, hidx, -⟩ := (prepareMicroBatches_dynamic hdynamic).mp h
      exact (prepares_iff_splittable hdynamic).mpr
        ((rearrangeMicroBatches_eq_ok _ _ _ _ _ _ _).2.mp ⟨idx, hidx⟩)
  | false =>
      rw [Prepares, if_neg (by simp [hdynamic])]
      exact ((prepareMicroBatches_fixed hdynamic).mp h).1

/-- The micro-batches share out the rows, and there are as many as the ranks agreed on. -/
theorem prepareMicroBatches_spec {peers : List ℕ} {data : List ρ}
    {prepared : List (List ρ) × Option (List (List ℕ))}
    (h : prepareMicroBatches config len peers data = .ok prepared) :
    prepared.1.flatten.Perm data ∧
      prepared.1.length = if config.useDynamicBsz then
        numMicroBatches (.nested (data.map len)) (config.maxTokenLenPerGpu * config.spSize) peers
          none none config.forceGroupSize
      else data.length / (config.forceGroupSize * config.microBatchSizePerGpu) := by
  cases hdynamic : config.useDynamicBsz with
  | true =>
      obtain ⟨idx, microBatches, hprepared, hperm, hlen, hmicro⟩ :=
        exists_prepareMicroBatches_dynamic hdynamic (prepares_of_eq_ok h)
      obtain rfl := Except.ok.inj (hprepared.symm.trans h)
      exact ⟨gather?_perm hperm (gather?_flatten hmicro), hmicro.length_eq.symm.trans hlen⟩
  | false =>
      obtain ⟨⟨-, -, hdvd⟩, rfl⟩ := (prepareMicroBatches_fixed hdynamic).mp h
      exact ⟨by rw [flatten_runs (Nat.div_mul_cancel hdvd).symm], length_runs _ _ _⟩

/-- **The pass returns exactly when the rows can be split, and then every output stands beside
its row, related to it as in a micro-batch.** -/
theorem forwardBatch_eq_ok {forwardStep : List ρ → List β} {peers : List ℕ} {data : List ρ}
    (hstep : ∀ rows : List ρ, (∀ r ∈ rows, r ∈ data) →
      List.Forall₂ R rows (forwardStep rows)) :
    (∀ outputs, forwardBatch config len forwardStep peers data = .ok outputs →
      List.Forall₂ R data outputs) ∧
    ((∃ outputs, forwardBatch config len forwardStep peers data = .ok outputs) ↔
      Prepares config len peers data) := by
  have hprepares : (∃ outputs, forwardBatch config len forwardStep peers data = .ok outputs) →
      Prepares config len peers data := by
    rintro ⟨outputs, h⟩
    simp only [forwardBatch, do_eq_ok_iff] at h
    obtain ⟨prepared, hprepare, -⟩ := h
    exact prepares_of_eq_ok hprepare
  refine ⟨fun outputs h => ?_, hprepares, fun h => ?_⟩
  · obtain ⟨outputs', h', hrel⟩ := forwardBatch_of_prepares hstep (hprepares ⟨outputs, h⟩)
    rwa [Except.ok.inj (h.symm.trans h')]
  · obtain ⟨outputs, h', -⟩ := forwardBatch_of_prepares hstep h
    exact ⟨outputs, h'⟩

theorem forwardBatch_four :
    forwardBatch ⟨true, 8, 1, 1, 1⟩ id (fun rows => rows.map (2 * ·)) [] [3, 8, 1, 5] =
        .ok [6, 16, 2, 10] ∧
      List.Forall₂ (fun r out => out = 2 * r) [3, 8, 1, 5] [6, 16, 2, 10] := by
  have h : forwardBatch ⟨true, 8, 1, 1, 1⟩ id (fun rows => rows.map (2 * ·)) [] [3, 8, 1, 5] =
      .ok [6, 16, 2, 10] := by decide +kernel
  refine ⟨h, (forwardBatch_eq_ok (R := fun r out => out = 2 * r) fun rows _ => ?_).1 _ h⟩
  exact List.forall₂_map_right_iff.mpr (List.forall₂_same.mpr fun _ _ => rfl)

end forward

end ExtpiRlsd
