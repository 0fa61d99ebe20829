import ExtpiRlsd.MicroBatches
import ExtpiRlsd.Padding

/-! # Batches on a group of workers

The dispatch and collect functions of `decorator.py` around a forward pass of the workers, and
the log-probs that `ray_trainer.py` computes with them.

The driver cuts a batch into one chunk for every data-parallel rank, sends every worker the chunk
of its rank, and puts the outputs of the collected workers behind each other.  Inside a worker the
chunk is split into micro-batches; the ranks agree on their number.

`inferBatchOnWorkers_eq_ok` describes the pass over the workers, and
`computeLogProbOnWorkers_eq_ok` says that the log-probs do not depend on the workers or on the
micro-batches. -/

namespace ExtpiRlsd

open Checked Masks Ragged Reindex Tensors

/-- What the workers answer to the queries about a mesh. -/
structure WorkerMesh where
  dpRankMapping : List ℕ
  collectMask : List Bool
  shape : collectMask.length = dpRankMapping.length

inductive WorkerGroupError where
  | emptyMesh
  | batch (e : MicroBatchError)
  | notConcatable
deriving DecidableEq

/-- The text of a failure. -/
def WorkerGroupError.message : WorkerGroupError → String
  | emptyMesh => "max() arg is an empty sequence"
  | batch e => e.message
  | notConcatable => "expecting concatable output, but got element type empty"

/-- The mesh of the engine: neighbouring workers share the rows of a rank, the first of them
returns the outputs. -/
def fsdpMesh (worldSize spSize : ℕ) : WorkerMesh where
  dpRankMapping := (List.range worldSize).map (· / spSize)
  collectMask := (List.range worldSize).map (· % spSize == 0)
  shape := by simp

namespace WorkerMesh

/-- `_get_dp_size`. -/
def dpSize (mesh : WorkerMesh) : Option ℕ := mesh.dpRankMapping.max?.map (· + 1)

/-- Every rank is collected from one worker, in the order of the ranks. -/
def CollectsOnce (mesh : WorkerMesh) (dpSize : ℕ) : Prop :=
  select mesh.collectMask mesh.dpRankMapping = List.range dpSize

end WorkerMesh

section workers
variable {ρ β : Type}

/-- `dispatch_nd_compute`: every worker gets the chunk of its rank. -/
def dispatchNdCompute (mesh : WorkerMesh) (chunks : List (List ρ)) :
    Except WorkerGroupError (List (List ρ)) :=
  (gather? chunks mesh.dpRankMapping).elim (.error (.batch .indexOutOfRange)) .ok

/-- `collect_nd_compute_dataproto`. -/
def collectNdCompute (mesh : WorkerMesh) (output : List (List β)) :
    Except WorkerGroupError (List β) :=
  let outputInDp := select mesh.collectMask output
  if outputInDp = [] then .error .notConcatable else .ok outputInDp.flatten

/-- The numbers of micro-batches of the ranks before they agree. -/
def peerCounts (config : MicroBatchConfig) (len : ρ → ℕ) (chunks : List (List ρ)) : List ℕ :=
  chunks.map fun rows => localNumMicroBatches (.nested (rows.map len))
    (config.maxTokenLenPerGpu * config.spSize) config.forceGroupSize none

/-- `infer_batch` of a worker group. -/
def inferBatchOnWorkers (mesh : WorkerMesh) (config : MicroBatchConfig) (len : ρ → ℕ)
    (forwardStep : List ρ → List β) (data : List ρ) : Except WorkerGroupError (List β) := do
  let dpSize ← mesh.dpSize.elim (.error .emptyMesh) .ok
  let chunks ← (chunkTensordict data dpSize).mapError .batch
  let args ← dispatchNdCompute mesh chunks
  let output ← args.mapM fun rows =>
    (forwardBatch config len forwardStep (peerCounts config len chunks) rows).mapError .batch
  collectNdCompute mesh output

end workers

/-! ### The mesh -/

theorem fsdpMesh_collectsOnce (dpSize spSize : ℕ) (hsp : 0 < spSize) :
    (fsdpMesh (dpSize * spSize) spSize).CollectsOnce dpSize := by
  obtain ⟨s, rfl⟩ := Nat.exists_eq_succ_of_ne_zero hsp.ne'
  rw [WorkerMesh.CollectsOnce, fsdpMesh]
  induction dpSize with
  | zero => simp
  | succ n ih =>
      -- the workers of the last rank: the first of them is collected
      have hlast : select ((List.range (s + 1)).map fun i => (n * (s + 1) + i) % (s + 1) == 0)
          ((List.range (s + 1)).map fun i => (n * (s + 1) + i) / (s + 1)) = [n] := by
        have hmask : ((List.range s).map fun i => (n * (s + 1) + (i + 1)) % (s + 1) == 0) =
            List.replicate s false := by
          refine List.eq_replicate_iff.mpr ⟨by simp, fun c hc => ?_⟩
          obtain ⟨i, hi, rfl⟩ := List.mem_map.mp hc
          have hi := List.mem_range.mp hi
          rw [Nat.mul_add_mod', Nat.mod_eq_of_lt (by omega)]
          rfl
        rw [List.range_succ_eq_map, List.map_cons, List.map_cons, List.map_map, List.map_map]
        simp only [Function.comp_def, Nat.succ_eq_add_one, hmask]
        simp
      simp only [Nat.succ_eq_add_one] at ih hlast ⊢
      rw [Nat.succ_mul, List.range_add, List.map_append, List.map_append,
        select_append (by simp), ih, List.map_map, List.map_map, List.range_succ (n := n)]
      exact congrArg _ hlast

theorem fsdpMesh_dpSize (dpSize spSize : ℕ) (hdp : 0 < dpSize) (hsp : 0 < spSize) :
    (fsdpMesh (dpSize * spSize) spSize).dpSize = some dpSize := by
  have hmax : ((List.range (dpSize * spSize)).map (· / spSize)).max? = some (dpSize - 1) := by
    refine List.max?_eq_some_iff.mpr ⟨List.mem_map.mpr ⟨(dpSize - 1) * spSize, ?_, ?_⟩, ?_⟩
    · refine List.mem_range.mpr (Nat.mul_lt_mul_of_pos_right (by omega) hsp)
    · exact Nat.mul_div_cancel _ hsp
    · intro d hd
      obtain ⟨i, hi, rfl⟩ := List.mem_map.mp hd
      have hlt := Nat.div_lt_of_lt_mul (Nat.mul_comm dpSize spSize ▸ List.mem_range.mp hi)
      omega
  rw [WorkerMesh.dpSize, fsdpMesh, hmax, Option.map_some, Nat.sub_add_cancel hdp]

/-! ### The pass over the workers -/

section pass
variable {ρ β : Type} {mesh : WorkerMesh} {dpSize : ℕ}

/-- Every worker gets a chunk, and the collected workers get the chunks in their order. -/
theorem exists_dispatchNdCompute (hsize : mesh.dpSize = some dpSize)
    (hcollects : mesh.CollectsOnce dpSize) {chunks : List (List ρ)} (hlen : chunks.length = dpSize) :
    ∃ args, dispatchNdCompute mesh chunks = .ok args ∧ (∀ rows ∈ args, rows ∈ chunks) ∧
      select mesh.collectMask args = chunks := by
  obtain ⟨top, htop, rfl⟩ := Option.map_eq_some_iff.mp hsize
  have hlt : ∀ d ∈ mesh.dpRankMapping, d < chunks.length := by
    intro d hd
    have := (List.max?_eq_some_iff.mp htop).2 d hd
    omega
  obtain ⟨args, hargs⟩ := exists_gather? hlt
  have hforall := gather?_eq_some_iff.mp hargs
  refine ⟨args, by rw [dispatchNdCompute, hargs]; rfl, ?_, ?_⟩
  · intro rows hrows
    obtain ⟨d, -, hd⟩ := exists_of_forall₂ hforall.flip hrows
    exact List.mem_of_getElem? hd
  · have hselect := gather?_eq_some_iff.mpr (forall₂_select mesh.collectMask hforall)
    rw [hcollects, ← hlen, gather?_range] at hselect
    exact (Option.some.inj hselect).symm

variable {config : MicroBatchConfig} {len : ρ → ℕ} {R : ρ → β → Prop}
  {forwardStep : List ρ → List β}

/-- The chunks of a batch. -/
theorem chunkTensordict_eq_ok {data : List ρ} {n : ℕ} {chunks : List (List ρ)} :
    chunkTensordict data n = .ok chunks ↔
      0 < n ∧ n ∣ data.length ∧ chunks = runs n (data.length / n) data := by
  rw [chunkTensordict]
  split_ifs with hzero hmod
  · simp [hzero]
  · refine ⟨fun h => (by cases h), fun h => absurd (Nat.mod_eq_zero_of_dvd h.2.1) hmod⟩
  · rw [Except.ok.injEq]
    exact ⟨fun h => ⟨Nat.pos_of_ne_zero hzero, Nat.dvd_of_mod_eq_zero (not_not.mp hmod), h.symm⟩,
      fun h => h.2.2.symm⟩

/-- The conditions under which the batch is cut and every chunk is split. -/
def Dispatches (dpSize : ℕ) (config : MicroBatchConfig) (len : ρ → ℕ) (data : List ρ) : Prop :=
  dpSize ∣ data.length ∧ ∀ rows ∈ runs dpSize (data.length / dpSize) data,
    Prepares config len (peerCounts config len (runs dpSize (data.length / dpSize) data)) rows

theorem inferBatchOnWorkers_of_dispatches (hsize : mesh.dpSize = some dpSize)
    (hcollects : mesh.CollectsOnce dpSize) {data : List ρ}
    (hstep : ∀ rows : List ρ, (∀ r ∈ rows, r ∈ data) → List.Forall₂ R rows (forwardStep rows))
    (h : Dispatches dpSize config len data) :
    ∃ outputs, inferBatchOnWorkers mesh config len forwardStep data = .ok outputs ∧
      List.Forall₂ R data outputs := by
  obtain ⟨hdvd, hprepares⟩ := h
  have hpos : 0 < dpSize := by
    obtain ⟨top, -, rfl⟩ := Option.map_eq_some_iff.mp hsize
    exact Nat.succ_pos top
  have hflat := flatten_runs_of_dvd hdvd
  generalize hchunks : runs dpSize (data.length / dpSize) data = chunks at hprepares hflat
  have hlen : chunks.length = dpSize := by rw [← hchunks, length_runs]
  obtain ⟨args, hargs, hmem, hselect⟩ := exists_dispatchNdCompute hsize hcollects hlen
  -- every worker scores the rows of its chunk
  obtain ⟨output, houtput, hrel⟩ : ∃ output : List (List β),
      (args.mapM fun rows => (forwardBatch config len forwardStep (peerCounts config len chunks)
        rows).mapError WorkerGroupError.batch) = .ok output ∧
      List.Forall₂ (List.Forall₂ R) args output :=
    exists_mapM_eq_ok fun rows hrows => by
      have hrowsdata : ∀ r ∈ rows, r ∈ data := by
        intro r hr
        rw [← hflat]
        exact List.mem_flatten_of_mem (hmem rows hrows) hr
      obtain ⟨outs, houts, hR⟩ := forwardBatch_of_prepares
        (fun rows' hrows' => hstep rows' fun r hr => hrowsdata r (hrows' r hr))
        (hprepares rows (hmem rows hrows))
      exact ⟨outs, mapError_eq_ok_iff.mpr houts, hR⟩
  have hcollected := forall₂_select mesh.collectMask hrel
  rw [hselect] at hcollected
  have hne : select mesh.collectMask output ≠ [] := by
    intro hnil
    rw [hnil, List.forall₂_nil_right_iff] at hcollected
    rw [hcollected, List.length_nil] at hlen
    omega
  refine ⟨_, ?_, hflat ▸ List.rel_flatten hcollected⟩
  simp only [inferBatchOnWorkers, do_eq_ok_iff, mapError_eq_ok_iff, elim_eq_ok_iff,
    chunkTensordict_eq_ok]
  exact ⟨dpSize, hsize, chunks, ⟨hpos, hdvd, hchunks.symm⟩, args, hargs, output, houtput,
    by rw [collectNdCompute, if_neg hne]⟩

/-! ### When the pass returns -/

theorem one_le_ceildiv_iff {a b : ℕ} (hb : 0 < b) : 1 ≤ (ceildiv a b).toNat ↔ 1 ≤ a := by
  have hquot : (0 : ℤ) ≤ (a : ℤ) / b := Int.ediv_nonneg (by omega) (by omega)
  rw [ceildiv, Int.fdiv_eq_ediv, Int.ediv_neg]
  rcases Nat.eq_zero_or_pos a with rfl | ha
  · simp
  · refine ⟨fun _ => ha, fun _ => ?_⟩
    split_ifs with h
    · have hdvd : (b : ℤ) ∣ a := by
        rcases h with h | h
        · omega
        · exact Int.neg_dvd.mp h
      have hpos : (0 : ℤ) < (a : ℤ) / b := Int.ediv_pos_of_pos_of_dvd (by omega) (by omega) hdvd
      omega
    · omega

/-- The number of micro-batches of a rank is the largest local one, the same for every rank. -/
theorem le_numMicroBatches_iff (config : MicroBatchConfig) (len : ρ → ℕ) {chunks : List (List ρ)}
    {rows : List ρ} (hrows : rows ∈ chunks) {n : ℕ} :
    n ≤ numMicroBatches (.nested (rows.map len)) (config.maxTokenLenPerGpu * config.spSize)
        (peerCounts config len chunks) none none config.forceGroupSize ↔
      ∃ rs ∈ chunks, n ≤ localNumMicroBatches (.nested (rs.map len))
        (config.maxTokenLenPerGpu * config.spSize) config.forceGroupSize none := by
  have hfold : ∀ (counts : List ℕ) (c : ℕ), n ≤ counts.foldl max c ↔
      n ≤ c ∨ ∃ p ∈ counts, n ≤ p := by
    intro counts
    induction counts with
    | nil => simp
    | cons p ps ih =>
        intro c
        rw [List.foldl_cons, ih, le_max_iff]
        simp [or_assoc]
  rw [numMicroBatches, Option.elim_none, hfold, peerCounts]
  simp only [List.mem_map, exists_exists_and_eq_and]
  exact ⟨fun h => h.elim (fun h => ⟨rows, hrows, h⟩) id, .inr⟩

theorem numMicroBatches_eq (config : MicroBatchConfig) (len : ρ → ℕ) {chunks : List (List ρ)}
    {rows rows' : List ρ} (hrows : rows ∈ chunks) (hrows' : rows' ∈ chunks) :
    numMicroBatches (.nested (rows.map len)) (config.maxTokenLenPerGpu * config.spSize)
        (peerCounts config len chunks) none none config.forceGroupSize =
      numMicroBatches (.nested (rows'.map len)) (config.maxTokenLenPerGpu * config.spSize)
        (peerCounts config len chunks) none none config.forceGroupSize :=
  eq_of_forall_le_iff fun _ =>
    (le_numMicroBatches_iff config len hrows).trans (le_numMicroBatches_iff config len hrows').symm

/-- The number of micro-batches on which ranks with chunks of one length agree. -/
theorem numMicroBatches_peerCounts (len : ρ → ℕ) {chunks : List (List ρ)} {m : ℕ}
    (hlen : ∀ rows ∈ chunks, rows.length = m) {rows : List ρ} (hrows : rows ∈ chunks)
    (hbound : 0 < config.maxTokenLenPerGpu * config.spSize) :
    let num := numMicroBatches (.nested (rows.map len))
      (config.maxTokenLenPerGpu * config.spSize) (peerCounts config len chunks) none none
      config.forceGroupSize
    num ≤ m / config.forceGroupSize ∧
      (1 ≤ num ↔ 1 ≤ m / config.forceGroupSize ∧ ∃ rs ∈ chunks, ∃ r ∈ rs, 0 < len r) := by
  have hlocal : ∀ rs ∈ chunks, localNumMicroBatches (.nested (rs.map len))
      (config.maxTokenLenPerGpu * config.spSize) config.forceGroupSize none ≤
        m / config.forceGroupSize := by
    intro rs hrs
    simp only [localNumMicroBatches, BatchLens.seqLenEffective, List.length_map, hlen rs hrs]
    exact min_le_left _ _
  have hlocal' : ∀ rs ∈ chunks, (1 ≤ localNumMicroBatches (.nested (rs.map len))
      (config.maxTokenLenPerGpu * config.spSize) config.forceGroupSize none ↔
        1 ≤ m / config.forceGroupSize ∧ ∃ r ∈ rs, 0 < len r) := by
    intro rs hrs
    simp only [localNumMicroBatches, BatchLens.seqLenEffective, List.length_map, hlen rs hrs]
    rw [le_min_iff, one_le_ceildiv_iff hbound, Nat.one_le_iff_ne_zero (n := List.sum _), Ne,
      List.sum_eq_zero_iff]
    simp [Nat.pos_iff_ne_zero]
  constructor
  · by_contra hnot
    obtain ⟨rs, hrs, hle⟩ := (le_numMicroBatches_iff config len hrows).mp (not_le.mp hnot)
    exact absurd hle (not_le.mpr (Nat.lt_succ_of_le (hlocal rs hrs)))
  · refine (le_numMicroBatches_iff config len hrows).trans ⟨?_, ?_⟩
    · rintro ⟨rs, hrs, hle⟩
      obtain ⟨hgroups, hr⟩ := (hlocal' rs hrs).mp hle
      exact ⟨hgroups, rs, hrs, hr⟩
    · rintro ⟨hgroups, rs, hrs, hr⟩
      exact ⟨rs, hrs, (hlocal' rs hrs).mpr ⟨hgroups, hr⟩⟩

/-- The conditions on the batch and the options under which the pass returns. -/
structure Dispatchable (dpSize : ℕ) (config : MicroBatchConfig) (len : ρ → ℕ) (data : List ρ) :
    Prop where
  nonempty : data ≠ []
  dynamic : config.useDynamicBsz = true → 0 < config.forceGroupSize ∧
    dpSize * config.forceGroupSize ∣ data.length ∧
    (∀ r ∈ data, len r ≤ config.maxTokenLenPerGpu * config.spSize) ∧ ∃ r ∈ data, 0 < len r
  fixed : config.useDynamicBsz = false →
    0 < config.forceGroupSize * config.microBatchSizePerGpu ∧
    dpSize * (config.forceGroupSize * config.microBatchSizePerGpu) ∣ data.length

section chunks
variable {data : List ρ}

theorem splittable_iff (hdvd : dpSize ∣ data.length) {rows : List ρ}
    (hrows : rows ∈ runs dpSize (data.length / dpSize) data) {peers : List ℕ} :
    let lens := BatchLens.nested (rows.map len)
    let bound := config.maxTokenLenPerGpu * config.spSize
    let num := numMicroBatches lens bound peers none none config.forceGroupSize
    Splittable lens bound num none config.forceGroupSize ↔
      rows ≠ [] ∧ (∀ r ∈ rows, len r ≤ bound) ∧ 0 < bound ∧ 0 < config.forceGroupSize ∧
        dpSize * config.forceGroupSize ∣ data.length ∧ 1 ≤ num ∧
        num ≤ data.length / dpSize / config.forceGroupSize := by
  intro lens bound num
  have hlen : (rows.map len).length = data.length / dpSize := by
    rw [List.length_map, length_of_mem_runs_of_dvd hdvd hrows]
  constructor
  · rintro ⟨⟨longest, hlongest, hle⟩, hbound, hgroup, hgroups, -, hpos, hnum⟩
    obtain ⟨hmem, hmax⟩ := List.max?_eq_some_iff.mp hlongest
    simp only [lens, BatchLens.seqLenEffective, hlen] at hgroups hnum
    refine ⟨?_, fun r hr => (hmax _ (List.mem_map_of_mem hr)).trans hle, hbound, hgroup,
      Nat.mul_dvd_of_dvd_div hdvd hgroups, hpos, hnum⟩
    rintro rfl
    exact absurd hmem List.not_mem_nil
  · rintro ⟨hne, hle, hbound, hgroup, hgroups, hpos, hnum⟩
    obtain ⟨longest, hlongest⟩ := Option.isSome_iff_exists.mp
      (List.isSome_max?_of_ne_nil (l := rows.map len) (by simpa using hne))
    obtain ⟨r, hr, rfl⟩ := List.mem_map.mp (List.max?_eq_some_iff.mp hlongest).1
    refine ⟨⟨len r, hlongest, hle r hr⟩, hbound, hgroup, ?_, by simp, hpos, ?_⟩
    · simp only [lens, BatchLens.seqLenEffective, hlen]
      exact (Nat.dvd_div_iff_mul_dvd hdvd).mpr hgroups
    · simp only [lens, BatchLens.seqLenEffective, hlen]
      exact hnum

theorem dispatches_iff_of_dynamic (hdp : 0 < dpSize) (hdynamic : config.useDynamicBsz = true) :
    Dispatches dpSize config len data ↔ data ≠ [] ∧ 0 < config.forceGroupSize ∧
      dpSize * config.forceGroupSize ∣ data.length ∧
      (∀ r ∈ data, len r ≤ config.maxTokenLenPerGpu * config.spSize) ∧ ∃ r ∈ data, 0 < len r := by
  constructor
  · rintro ⟨hdvd, hprepares⟩
    have hflat := flatten_runs_of_dvd hdvd
    have hlens := fun rs (hrs : rs ∈ runs dpSize (data.length / dpSize) data) =>
      length_of_mem_runs_of_dvd hdvd hrs
    have hsplit := fun rs hrs => (splittable_iff hdvd hrs).mp
      ((prepares_iff_splittable hdynamic).mp (hprepares rs hrs))
    obtain ⟨rows, hrows⟩ : ∃ rows, rows ∈ runs dpSize (data.length / dpSize) data :=
      List.exists_mem_of_ne_nil _ (List.ne_nil_of_length_pos (by rwa [length_runs]))
    obtain ⟨hne, -, hbound, hgroup, hgroups, hpos, -⟩ := hsplit rows hrows
    have hnum := (numMicroBatches_peerCounts len hlens hrows hbound).2.mp hpos
    refine ⟨?_, hgroup, hgroups, ?_, ?_⟩
    · rintro rfl
      obtain ⟨j, -, rfl⟩ := List.mem_map.mp hrows
      exact hne (by simp)
    · intro r hr
      rw [← hflat] at hr
      obtain ⟨rs, hrs, hr⟩ := List.mem_flatten.mp hr
      exact (hsplit rs hrs).2.1 r hr
    · obtain ⟨-, rs, hrs, r, hr, hlen⟩ := hnum
      exact ⟨r, hflat ▸ List.mem_flatten_of_mem hrs hr, hlen⟩
  · rintro ⟨hne, hgroup, hgroups, hle, r, hr, hlen⟩
    have hdvd := (Nat.dvd_mul_right dpSize config.forceGroupSize).trans hgroups
    have hflat := flatten_runs_of_dvd hdvd
    have hlens := fun rs (hrs : rs ∈ runs dpSize (data.length / dpSize) data) =>
      length_of_mem_runs_of_dvd hdvd hrs
    have hgroupsPos : 1 ≤ data.length / dpSize / config.forceGroupSize := by
      rw [Nat.div_div_eq_div_mul]
      exact Nat.div_pos (Nat.le_of_dvd (List.length_pos_of_ne_nil hne) hgroups)
        (Nat.mul_pos hdp hgroup)
    refine ⟨hdvd, fun rows hrows => ?_⟩
    have hbound := lt_of_lt_of_le hlen (hle r hr)
    obtain ⟨hnum, hpos⟩ := numMicroBatches_peerCounts len hlens hrows hbound
    apply (prepares_iff_splittable hdynamic).mpr
    refine (splittable_iff hdvd hrows).mpr ⟨?_, fun r hr => hle r ?_, hbound, hgroup, hgroups,
      hpos.mpr ⟨hgroupsPos, ?_⟩, hnum⟩
    · rintro rfl
      have hzero : 0 = data.length / dpSize := hlens [] hrows
      rw [← hzero, Nat.zero_div] at hgroupsPos
      omega
    · exact hflat ▸ List.mem_flatten_of_mem hrows hr
    · rw [← hflat] at hr
      obtain ⟨rs, hrs, hr⟩ := List.mem_flatten.mp hr
      exact ⟨rs, hrs, r, hr, hlen⟩

theorem dispatches_iff_of_fixed (hdp : 0 < dpSize) (hdynamic : config.useDynamicBsz = false) :
    Dispatches dpSize config len data ↔ data ≠ [] ∧
      0 < config.forceGroupSize * config.microBatchSizePerGpu ∧
      dpSize * (config.forceGroupSize * config.microBatchSizePerGpu) ∣ data.length := by
  have hcond : ¬ config.useDynamicBsz = true := by simp [hdynamic]
  constructor
  · rintro ⟨hdvd, hprepares⟩
    obtain ⟨rows, hrows⟩ : ∃ rows, rows ∈ runs dpSize (data.length / dpSize) data :=
      List.exists_mem_of_ne_nil _ (List.ne_nil_of_length_pos (by rwa [length_runs]))
    have hprepare := hprepares rows hrows
    rw [Prepares, if_neg hcond, length_of_mem_runs_of_dvd hdvd hrows] at hprepare
    refine ⟨?_, hprepare.2.1, Nat.mul_dvd_of_dvd_div hdvd hprepare.2.2⟩
    rintro rfl
    simp at hprepare
  · rintro ⟨hne, hsize, hsizes⟩
    have hdvd := (Nat.dvd_mul_right dpSize _).trans hsizes
    refine ⟨hdvd, fun rows hrows => ?_⟩
    rw [Prepares, if_neg hcond, length_of_mem_runs_of_dvd hdvd hrows]
    exact ⟨Nat.div_pos (Nat.le_of_dvd (List.length_pos_of_ne_nil hne) hdvd) hdp, hsize,
      (Nat.dvd_div_iff_mul_dvd hdvd).mpr hsizes⟩

theorem dispatches_iff (hdp : 0 < dpSize) :
    Dispatches dpSize config len data ↔ Dispatchable dpSize config len data := by
  cases hdynamic : config.useDynamicBsz with
  | true =>
      rw [dispatches_iff_of_dynamic hdp hdynamic]
      exact ⟨fun h => ⟨h.1, fun _ => h.2, fun h' => absurd (hdynamic.symm.trans h') (by simp)⟩,
        fun h => ⟨h.nonempty, h.dynamic hdynamic⟩⟩
  | false =>
      rw [dispatches_iff_of_fixed hdp hdynamic]
      exact ⟨fun h => ⟨h.1, fun h' => absurd (hdynamic.symm.trans h') (by simp), fun _ => h.2⟩,
        fun h => ⟨h.nonempty, h.fixed hdynamic⟩⟩

end chunks

/-- **A pass over the workers returns exactly on a batch that can be dispatched, and then every
output stands beside its row, related to it as in a micro-batch.** -/
theorem inferBatchOnWorkers_eq_ok (config : MicroBatchConfig) (len : ρ → ℕ)
    (hsize : mesh.dpSize = some dpSize) (hcollects : mesh.CollectsOnce dpSize) {data : List ρ}
    (hstep : ∀ rows : List ρ, (∀ r ∈ rows, r ∈ data) → List.Forall₂ R rows (forwardStep rows)) :
    (∀ outputs, inferBatchOnWorkers mesh config len forwardStep data = .ok outputs →
      List.Forall₂ R data outputs) ∧
    ((∃ outputs, inferBatchOnWorkers mesh config len forwardStep data = .ok outputs) ↔
      Dispatchable dpSize config len data) := by
  have hdp : 0 < dpSize := by
    obtain ⟨top, -, rfl⟩ := Option.map_eq_some_iff.mp hsize
    exact Nat.succ_pos top
  have hdispatches :
      (∃ outputs, inferBatchOnWorkers mesh config len forwardStep data = .ok outputs) →
        Dispatches dpSize config len data := by
    rintro ⟨outputs, h⟩
    simp only [inferBatchOnWorkers, do_eq_ok_iff, mapError_eq_ok_iff, elim_eq_ok_iff,
      chunkTensordict_eq_ok, hsize, Option.some_inj] at h
    obtain ⟨_, rfl, _, ⟨-, hdvd, rfl⟩, args, hargs, output, houtput, -⟩ := h
    refine ⟨hdvd, fun rows hrows => ?_⟩
    have hflat := flatten_runs_of_dvd hdvd
    obtain ⟨args', hargs', -, hselect⟩ := exists_dispatchNdCompute hsize hcollects
      (length_runs dpSize (data.length / dpSize) data)
    obtain rfl := Except.ok.inj (hargs.symm.trans hargs')
    have hmem : rows ∈ args := mem_of_mem_select (hselect ▸ hrows)
    obtain ⟨outs, houts⟩ := exists_ok_of_mapM houtput hmem
    exact (forwardBatch_eq_ok (fun rows' hrows' => hstep rows' fun r hr =>
      hflat ▸ List.mem_flatten_of_mem hrows (hrows' r hr))).2.mp ⟨outs, mapError_eq_ok_iff.mp houts⟩
  refine ⟨fun outputs h => ?_, fun h => (dispatches_iff hdp).mp (hdispatches h), fun h => ?_⟩
  · obtain ⟨outputs', h', hrel⟩ :=
      inferBatchOnWorkers_of_dispatches hsize hcollects hstep (hdispatches ⟨outputs, h⟩)
    rwa [Except.ok.inj (h.symm.trans h')]
  · obtain ⟨outputs, h', -⟩ :=
      inferBatchOnWorkers_of_dispatches hsize hcollects hstep ((dispatches_iff hdp).mpr h)
    exact ⟨outputs, h'⟩

theorem inferBatchOnWorkers_four :
    inferBatchOnWorkers (fsdpMesh 4 2) ⟨true, 4, 1, 2, 1⟩ id (fun rows => rows.map (2 * ·)) [3, 8, 1, 5] =
        .ok [6, 16, 2, 10] ∧
      List.Forall₂ (fun r out => out = 2 * r) [3, 8, 1, 5] [6, 16, 2, 10] := by
  have h : inferBatchOnWorkers (fsdpMesh 4 2) ⟨true, 4, 1, 2, 1⟩ id (fun rows => rows.map (2 * ·))
      [3, 8, 1, 5] = .ok [6, 16, 2, 10] := by decide +kernel
  refine ⟨h, (inferBatchOnWorkers_eq_ok (R := fun r out => out = 2 * r) _ _
    (fsdpMesh_dpSize 2 2 (by decide) (by decide)) (fsdpMesh_collectsOnce 2 2 (by decide))
      fun rows _ => ?_).1 _ h⟩
  exact List.forall₂_map_right_iff.mpr (List.forall₂_same.mpr fun _ _ => rfl)

end pass

/-! ### Log-probs on the workers -/

inductive WorkerLogProbError where
  | workers (e : WorkerGroupError)
  | padding (e : PaddingError)
deriving DecidableEq

section logProbs
variable {Tok α : Type} (logProb : List (Tok × ℕ) → Tok → α)

/-- The worker on one micro-batch of rows, each its ids and its position ids. -/
def logProbStep (rows : List (List Tok × List ℕ)) : List (List α) :=
  (packedLogProbs logProb (Nested.ofRows (rows.map Prod.fst))
    (Nested.ofRows (rows.map Prod.snd))).rows

/-- `_compute_old_log_prob` and `_compute_ref_log_prob`: the padding is dropped, the workers score
the rows, and their outputs are padded again. -/
def computeLogProbOnWorkers [Zero α] (mesh : WorkerMesh) (config : MicroBatchConfig)
    (b : PaddedBatch Tok) : Except WorkerLogProbError (Tensor α) := do
  let batchTd := leftRight2NoPadding b
  let output ← (inferBatchOnWorkers mesh config (fun r => r.1.length) (logProbStep logProb)
    (batchTd.inputIds.rows.zip batchTd.positionIds.rows)).mapError .workers
  (noPadding2Padding output.flatten b).mapError .padding

variable {logProb}

theorem logProbStep_related {rows : List (List Tok × List ℕ)}
    (hlen : ∀ r ∈ rows, r.1.length = r.2.length) (hne : ∀ r ∈ rows, r.1 ≠ []) :
    List.Forall₂ (fun r out => ScoresRow (fun ctx x => logProb ctx x.1) (r.1.zip r.2) out) rows
      (logProbStep logProb rows) := by
  have hzip : ∀ r ∈ rows.map (fun r => r.1.zip r.2), r ≠ [] := by
    intro z hz
    obtain ⟨r, hr, rfl⟩ := List.mem_map.mp hz
    refine List.ne_nil_of_length_pos ?_
    rw [List.length_zip, ← hlen r hr, Nat.min_self]
    exact List.length_pos_of_ne_nil (hne r hr)
  obtain ⟨outs, hscores, hrel⟩ :=
    exists_packedScores (fun (ctx : List (Tok × ℕ)) x => logProb ctx x.1) hzip
  -- the packed labels are the ids of the zipped rows
  have hids : (rows.map Prod.fst).flatten =
      (rows.map fun r => r.1.zip r.2).flatten.map Prod.fst := by
    rw [List.map_flatten, List.map_map]
    refine congrArg List.flatten (List.map_congr_left fun r hr => ?_)
    exact (List.map_fst_zip (Nat.le_of_eq (hlen r hr))).symm
  have hoffsets : (rows.map Prod.fst).map List.length = outs.map List.length := by
    rw [map_length_of_scoresRow hzip hrel, List.map_map, List.map_map]
    refine List.map_congr_left fun r hr => ?_
    rw [Function.comp_apply, Function.comp_apply, List.length_zip, ← hlen r hr, Nat.min_self]
  have hvalues : packedScores logProb (List.zipWith List.zip (rows.map Prod.fst)
      (rows.map Prod.snd)) ((rows.map Prod.fst).flatten.rotate 1) = outs.flatten := by
    rw [← hscores, hids, ← List.map_rotate, packedScores, packedScores, List.zipWith_map_right,
      List.zipWith_map, List.zipWith_self]
  have hstep : logProbStep logProb rows = (Nested.ofRows outs).rows := by
    rw [logProbStep, packedLogProbs, rows_ofRows, rows_ofRows]
    exact congrArg Nested.rows (congrArg₂ Nested.mk hvalues
      (congrArg (fun lens => 0 :: cumsum 0 lens) hoffsets))
  rw [hstep, rows_ofRows]
  exact List.forall₂_map_left_iff.mp hrel

/-- The rows that the workers score, each its ids and its position ids. -/
theorem zip_leftRight2NoPadding (b : PaddedBatch Tok) :
    (leftRight2NoPadding b).inputIds.rows.zip (leftRight2NoPadding b).positionIds.rows =
      List.zipWith (fun m r => (select m r.1, select m r.2)) b.attentionMask.rows
        (b.inputIds.rows.zip b.positionIds.rows) := by
  rw [leftRight2NoPadding, unpad_eq_ofRows b.forall₂_attention_ids, rows_ofRows, rows_ofRows]
  generalize b.attentionMask.rows = ms
  generalize b.inputIds.rows = xs
  generalize b.positionIds.rows = ps
  induction ms generalizing xs ps with
  | nil => rfl
  | cons m ms ih => cases xs with
    | nil => rfl
    | cons x xs => cases ps with
      | nil => rfl
      | cons p ps =>
          simp only [List.zipWith_cons_cons, List.zip_cons_cons]
          rw [ih]

theorem forall₂_attention_rows (b : PaddedBatch Tok) :
    List.Forall₂ (fun m r => m.length = r.1.length ∧ m.length = r.2.length)
      b.attentionMask.rows (b.inputIds.rows.zip b.positionIds.rows) := by
  have hids := b.forall₂_attention_ids
  have hpos := Tensor.forall₂_length (b.shape_attentionMask.trans b.shape_positionIds.symm)
  generalize b.attentionMask.rows = ms at hids hpos ⊢
  generalize b.inputIds.rows = xs at hids ⊢
  generalize b.positionIds.rows = ps at hpos ⊢
  induction hids generalizing ps with
  | nil => exact .nil
  | cons hx _ ih => cases hpos with
    | cons hp hps => exact .cons ⟨hx, hp⟩ (ih _ hps)

/-- The lengths of the scored rows are the numbers of attended positions. -/
theorem map_length_zip (b : PaddedBatch Tok) :
    ((leftRight2NoPadding b).inputIds.rows.zip (leftRight2NoPadding b).positionIds.rows).map
      (fun r => r.1.length) = b.attentionMask.rows.map (List.count true) ∧
    ∀ r ∈ (leftRight2NoPadding b).inputIds.rows.zip (leftRight2NoPadding b).positionIds.rows,
      r.1.length = r.2.length := by
  rw [zip_leftRight2NoPadding]
  have h := forall₂_attention_rows b
  generalize b.attentionMask.rows = ms at h ⊢
  generalize b.inputIds.rows.zip b.positionIds.rows = rs at h ⊢
  induction h with
  | nil => exact ⟨rfl, fun _ hr => absurd hr List.not_mem_nil⟩
  | @cons m r ms rs hm _ ih =>
      rw [List.zipWith_cons_cons, List.map_cons, List.map_cons, length_select hm.1]
      refine ⟨by rw [ih.1], fun s hs => ?_⟩
      rcases List.mem_cons.mp hs with rfl | hs
      · exact (length_select hm.1).trans (length_select hm.2).symm
      · exact ih.2 s hs

/-- Padding packed values reads their number and their windows. -/
theorem noPadding2Padding_congr [Zero α] {b : PaddedBatch Tok} {values values' : List α}
    (hlen : values.length = values'.length)
    (hwin : List.zipWith (fun n off => slice (off - n - 1) (off - 1) values)
        ((b.attentionMask.dropCols b.prompts.cols).rows.map (List.count true))
        (cumsum 0 (List.zipWith (· + ·)
          ((b.attentionMask.takeCols b.prompts.cols).rows.map (List.count true))
          ((b.attentionMask.dropCols b.prompts.cols).rows.map (List.count true)))) =
      List.zipWith (fun n off => slice (off - n - 1) (off - 1) values')
        ((b.attentionMask.dropCols b.prompts.cols).rows.map (List.count true))
        (cumsum 0 (List.zipWith (· + ·)
          ((b.attentionMask.takeCols b.prompts.cols).rows.map (List.count true))
          ((b.attentionMask.dropCols b.prompts.cols).rows.map (List.count true))))) :
    noPadding2Padding values b = noPadding2Padding values' b := by
  have hpad := congrArg (List.map (padRight b.responses.cols)) hwin
  rw [List.map_zipWith, List.map_zipWith] at hpad
  simp only [noPadding2Padding, hlen, hpad]

/-- Rows that were scored in any micro-batches are padded to the log-probs of the batch. -/
theorem noPadding2Padding_of_scoresRow [Zero α] {b : PaddedBatch Tok}
    (hprompt : ∀ p ∈ b.parts, p.1 ≠ []) {outs : List (List α)}
    (h : List.Forall₂ (fun p out => ScoresRow (fun ctx x => logProb ctx x.1) (p.1 ++ p.2) out)
      b.parts outs) :
    noPadding2Padding outs.flatten b = computeLogProb logProb b := by
  have hne : ∀ r ∈ b.parts.map fun p => p.1 ++ p.2, r ≠ [] := by
    intro r hr
    obtain ⟨p, hp, rfl⟩ := List.mem_map.mp hr
    exact List.append_ne_nil_of_left_ne_nil (hprompt p hp) _
  obtain ⟨outs', hscores, hrel⟩ :=
    exists_packedScores (fun (ctx : List (Tok × ℕ)) x => logProb ctx x.1) hne
  have hlens : List.zipWith (· + ·)
      ((b.attentionMask.takeCols b.prompts.cols).rows.map (List.count true))
      ((b.attentionMask.dropCols b.prompts.cols).rows.map (List.count true)) =
      (b.parts.map fun p => p.1 ++ p.2).map List.length := by
    rw [← b.map_length_parts_fst, ← b.map_length_parts_snd, List.zipWith_map]
    simp
  have hcounts := map_length_of_scoresRow hne (List.forall₂_map_left_iff.mpr h)
  have hcounts' := map_length_of_scoresRow hne hrel
  simp only [computeLogProb]
  rw [packedLogProbs_values, hscores]
  refine noPadding2Padding_congr ?_ ?_
  · rw [List.length_flatten, List.length_flatten, hcounts, hcounts']
  · rw [hlens, ← b.map_length_parts_snd]
    have hwin := windows_of_scoresRow hprompt h
    have hwin' := windows_of_scoresRow hprompt (List.forall₂_map_left_iff.mp hrel)
    rw [hcounts] at hwin
    rw [hcounts'] at hwin'
    rw [hwin, hwin']

/-- No row has an empty prompt when the log-probs are padded. -/
theorem noPadding2Padding_promptLen [Zero α] {b : PaddedBatch Tok} {values : List α} {T : Tensor α}
    (h : noPadding2Padding values b = .ok T) : ∀ p ∈ b.parts, p.1 ≠ [] := by
  rw [noPadding2Padding] at h
  intro p hp hnil
  have hmem : p.1.length ∈ b.parts.map fun p => p.1.length := List.mem_map_of_mem hp
  rw [b.map_length_parts_fst, hnil, List.length_nil] at hmem
  simp only [if_pos hmem] at h
  split at h
  · cases h
  · split_ifs at h

theorem dispatchable_map {ρ : Type} {dpSize : ℕ} {config : MicroBatchConfig} {len : ρ → ℕ}
    {data : List ρ} :
    Dispatchable dpSize config len data ↔ Dispatchable dpSize config id (data.map len) := by
  constructor
  · rintro ⟨hne, hdynamic, hfixed⟩
    exact ⟨by simpa using hne, fun h => by simpa using hdynamic h, fun h => by simpa using hfixed h⟩
  · rintro ⟨hne, hdynamic, hfixed⟩
    exact ⟨by simpa using hne, fun h => by simpa using hdynamic h, fun h => by simpa using hfixed h⟩

/-- **The log-probs do not depend on the workers.**  On data-parallel ranks of any number and
size, with micro-batches of either kind, the log-probs are returned exactly when the attended
lengths can be dispatched and no prompt is empty, and they are those of the whole batch. -/
theorem computeLogProbOnWorkers_eq_ok [Zero α] (logProb : List (Tok × ℕ) → Tok → α)
    (dpSize spSize : ℕ) (hdp : 0 < dpSize) (hsp : 0 < spSize) (config : MicroBatchConfig)
    (b : PaddedBatch Tok) :
    let result := computeLogProbOnWorkers logProb (fsdpMesh (dpSize * spSize) spSize) config b
    (∀ T, result = .ok T → computeLogProb logProb b = .ok T) ∧
      ((∃ T, result = .ok T) ↔
        Dispatchable dpSize config id (b.attentionMask.rows.map (List.count true)) ∧
          ∀ p ∈ b.parts, p.1 ≠ []) := by
  intro result
  obtain ⟨hcounts, hlen⟩ := map_length_zip b
  have hrows : (((leftRight2NoPadding b).inputIds.rows.zip
      (leftRight2NoPadding b).positionIds.rows).map fun r => r.1.zip r.2) =
      b.parts.map fun p => p.1 ++ p.2 := by
    rw [← leftRight2NoPadding_rows, List.map_zip_eq_zipWith]
    rfl
  generalize hdata : (leftRight2NoPadding b).inputIds.rows.zip
    (leftRight2NoPadding b).positionIds.rows = data at hcounts hlen hrows
  -- the scores of any rows of the batch, once no prompt is empty
  have hstep : (∀ p ∈ b.parts, p.1 ≠ []) → ∀ rows : List (List Tok × List ℕ),
      (∀ r ∈ rows, r ∈ data) → List.Forall₂ (fun r out =>
        ScoresRow (fun ctx x => logProb ctx x.1) (r.1.zip r.2) out) rows
          (logProbStep logProb rows) := by
    intro hprompt rows hmem
    refine logProbStep_related (fun r hr => hlen r (hmem r hr)) fun r hr hnil => ?_
    have hzip : r.1.zip r.2 ∈ b.parts.map fun p => p.1 ++ p.2 :=
      hrows ▸ List.mem_map_of_mem (hmem r hr)
    obtain ⟨p, hp, heq⟩ := List.mem_map.mp hzip
    rw [hnil, List.zip_nil_left] at heq
    exact hprompt p hp (List.append_eq_nil_iff.mp heq).1
  have hinfer := fun hprompt => inferBatchOnWorkers_eq_ok config (fun r => r.1.length)
    (fsdpMesh_dpSize dpSize spSize hdp hsp) (fsdpMesh_collectsOnce dpSize spSize hsp)
    (hstep hprompt)
  rw [dispatchable_map, hcounts] at hinfer
  have hok : ∀ T, result = .ok T ↔
      ∃ output, inferBatchOnWorkers (fsdpMesh (dpSize * spSize) spSize) config
        (fun r => r.1.length) (logProbStep logProb) data = .ok output ∧
          noPadding2Padding output.flatten b = .ok T := by
    intro T
    simp only [result, computeLogProbOnWorkers, do_eq_ok_iff, mapError_eq_ok_iff, hdata]
  have hpadded : (∀ p ∈ b.parts, p.1 ≠ []) → ∀ output, inferBatchOnWorkers
      (fsdpMesh (dpSize * spSize) spSize) config (fun r => r.1.length) (logProbStep logProb) data =
        .ok output → noPadding2Padding output.flatten b = computeLogProb logProb b := by
    intro hprompt output houtput
    refine noPadding2Padding_of_scoresRow hprompt ?_
    rw [← List.forall₂_map_left_iff, ← hrows, List.forall₂_map_left_iff]
    exact (hinfer hprompt).1 output houtput
  refine ⟨fun T hT => ?_, ?_, ?_⟩
  · obtain ⟨output, houtput, hT⟩ := (hok T).mp hT
    rw [← hpadded (noPadding2Padding_promptLen hT) output houtput, hT]
  · rintro ⟨T, hT⟩
    obtain ⟨output, houtput, hT⟩ := (hok T).mp hT
    have hprompt := noPadding2Padding_promptLen hT
    exact ⟨(hinfer hprompt).2.mp ⟨output, houtput⟩, hprompt⟩
  · rintro ⟨hdispatch, hprompt⟩
    obtain ⟨output, houtput⟩ := (hinfer hprompt).2.mpr hdispatch
    have hne : b.responses.rows ≠ [] := by
      intro hnil
      have hlen : b.attentionMask.rows.length = b.responses.rows.length :=
        congrArg Prod.fst (b.shape_attentionMask.trans b.shape_inputIds)
      rw [hnil, List.length_nil, List.length_eq_zero_iff] at hlen
      exact hdispatch.nonempty (by rw [hlen]; rfl)
    obtain ⟨T, hT, -⟩ := computeLogProb_eq_ok logProb b hne hprompt
    exact ⟨T, (hok T).mpr ⟨output, houtput, (hpadded hprompt output houtput).trans hT⟩⟩

/-- A batch of two rows, the first with one position of padding on either side. -/
def twoRows : PaddedBatch ℕ where
  prompts := ⟨2, [[0, 5], [4, 6]], by decide⟩
  responses := ⟨2, [[7, 0], [8, 9]], by decide⟩
  inputIds := ⟨4, [[0, 5, 7, 0], [4, 6, 8, 9]], by decide⟩
  attentionMask := ⟨4, [[false, true, true, false], [true, true, true, true]], by decide⟩
  positionIds := ⟨4, [[0, 0, 1, 1], [0, 1, 2, 3]], by decide⟩
  responseMask := ⟨2, [[true, false], [true, true]], by decide⟩
  shape_prompts := rfl
  shape_responseMask := rfl
  shape_inputIds := rfl
  shape_attentionMask := rfl
  shape_positionIds := rfl

theorem computeLogProbOnWorkers_twoRows :
    (∃ T, computeLogProbOnWorkers (fun ctx x => ctx.length + x) (fsdpMesh 4 2) ⟨true, 2, 1, 2, 1⟩
      twoRows = .ok T) ∧
    (computeLogProbOnWorkers (fun ctx x => ctx.length + x) (fsdpMesh 4 2) ⟨true, 2, 1, 2, 1⟩
      twoRows).toOption.map Tensor.rows = some [[8, 0], [10, 12]] := by
  have hdispatchable := (computeLogProbOnWorkers_eq_ok (fun ctx x => ctx.length + x) 2 2
    (by decide) (by decide) ⟨true, 2, 1, 2, 1⟩ twoRows).2
  refine ⟨hdispatchable.mpr ⟨⟨by decide, by decide, by decide⟩, by decide⟩, ?_⟩
  decide +kernel

end logProbs

end ExtpiRlsd
