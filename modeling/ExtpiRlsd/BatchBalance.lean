import ExtpiRlsd.GrpoAdvantages
import ExtpiRlsd.WorkerGroup

/-! # Balanced ranks

`_balance_batch` of `ray_trainer.py` reorders a batch before its log-probs and advantages are
computed.  The rows are shared out among the data-parallel ranks in equal numbers and by their
workloads, and the small rows of a rank go to both ends; the dispatch to the workers then cuts the
batch into one chunk for every rank.

`balanceBatch_eq_ok` says when the batch is reordered, and that the chunks are balanced.  The
advantages do not see the new order (`balanceBatch_advantages`). -/

namespace ExtpiRlsd

open Checked PyText Reindex

section definitions
variable {ρ : Type}

def rowWorkload (seqlen : ρ → ℕ) (r : ρ) : ℤ := calculateWorkload (seqlen r)

/-- A partition in the order of the workloads, every second row behind the others and reversed. -/
def smallAtEnds (workloads : List ℤ) (partition : List ℕ) : List ℕ :=
  let sorted := partition.insertionSort fun i j =>
    toLex (workloads.getD i 0, i) ≤ toLex (workloads.getD j 0, j)
  everySecond sorted ++ (everySecond sorted.tail).reverse

/-- `_balance_batch`, without the prefix grouper. -/
def balanceBatch (dpSize : ℕ) (seqlen : ρ → ℕ) (rows : List ρ) : Except BalanceError (List ρ) := do
  let workloads := rows.map (rowWorkload seqlen)
  let partitions ← getSeqlenBalancedPartitions workloads dpSize true
  let globalIdx := (partitions.map (smallAtEnds workloads)).flatten
  (gather? rows globalIdx).elim (.error .indexOutOfRange) .ok

end definitions

/-! ### The chunks of the ranks -/

section chunks
variable {ρ : Type} {dpSize : ℕ} {seqlen : ρ → ℕ} {rows rows' : List ρ}

theorem smallAtEnds_perm (workloads : List ℤ) (partition : List ℕ) :
    (smallAtEnds workloads partition).Perm partition :=
  ((List.reverse_perm _).append_left _).trans
    ((everySecond_perm _).trans (List.perm_insertionSort _ partition))

def chunkWorkload (seqlen : ρ → ℕ) (chunk : List ρ) : ℤ := (chunk.map (rowWorkload seqlen)).sum

/-- One chunk for every rank: equally many rows, and workloads that differ by no more than those of
single rows and are within a factor of any other distribution. -/
structure BalancedChunks (dpSize : ℕ) (seqlen : ρ → ℕ) (rows : List ρ) (chunks : List (List ρ)) :
    Prop where
  length_eq : chunks.length = dpSize
  perm : chunks.flatten.Perm rows
  size : ∀ c ∈ chunks, c.length * dpSize = rows.length
  within : ∀ d, (∀ r ∈ rows, ∀ q ∈ rows, rowWorkload seqlen r - rowWorkload seqlen q ≤ d) →
    ∀ c ∈ chunks, ∀ c' ∈ chunks, chunkWorkload seqlen c - chunkWorkload seqlen c' ≤ d
  nearLeast : ∀ other : List (List ρ), other.length = dpSize → other.flatten.Perm rows →
    ∀ c ∈ chunks, ∃ q ∈ other,
      dpSize * chunkWorkload seqlen c ≤ (2 * dpSize - 1) * chunkWorkload seqlen q

theorem rowWorkload_nonneg (seqlen : ρ → ℕ) (rows : List ρ) :
    ∀ v ∈ rows.map (rowWorkload seqlen), 0 ≤ v := by
  refine List.forall_mem_map.mpr fun r _ => ?_
  rw [rowWorkload, calculateWorkload]
  positivity

/-- The load of a partition is the workload of its rows. -/
theorem load_eq_chunkWorkload {p : List ℕ} {c : List ρ} (h : gather? rows p = some c) :
    load (rows.map (rowWorkload seqlen)) p = chunkWorkload seqlen c := by
  have hall := gather?_eq_some_iff.mp h
  clear h
  unfold load chunkWorkload
  induction hall with
  | nil => rfl
  | cons hi _ ih =>
      rw [List.map_cons, List.sum_cons, ih, List.map_cons, List.sum_cons,
        List.getD_eq_getElem?_getD, List.getElem?_map, hi]
      rfl

/-- The partitions of the rows, and the chunks in their order. -/
theorem exists_chunks {partitions : List (List ℕ)}
    (h : partitions.flatten.Perm (List.range rows.length)) (workloads : List ℤ) :
    ∃ chunks, List.Forall₂ (fun p c => gather? rows (smallAtEnds workloads p) = some c)
        partitions chunks ∧
      gather? rows (partitions.map (smallAtEnds workloads)).flatten = some chunks.flatten := by
  have hinside : ∀ p ∈ partitions, ∃ c, gather? rows (smallAtEnds workloads p) = some c := by
    intro p hp
    refine exists_gather? fun i hi => List.mem_range.mp (h.mem_iff.mp ?_)
    exact List.mem_flatten_of_mem hp ((smallAtEnds_perm workloads p).mem_iff.mp hi)
  obtain ⟨chunks, hchunks⟩ := Checked.exists_forall₂
    (R := fun c p => gather? rows (smallAtEnds workloads p) = some c) hinside
  exact ⟨chunks, hchunks.flip, gather?_flatten (List.forall₂_map_left_iff.mpr hchunks.flip)⟩

/-- The chunks of balanced partitions are balanced. -/
theorem balancedChunks_of_partitions {partitions : List (List ℕ)} {chunks : List (List ρ)}
    (h : getSeqlenBalancedPartitions (rows.map (rowWorkload seqlen)) dpSize true = .ok partitions)
    (hchunks : List.Forall₂
      (fun p c => gather? rows (smallAtEnds (rows.map (rowWorkload seqlen)) p) = some c)
        partitions chunks) : BalancedChunks dpSize seqlen rows chunks := by
  have hnonneg := rowWorkload_nonneg seqlen rows
  have hparts := (getSeqlenBalancedPartitions_eq_ok hnonneg).1 _ h
  obtain ⟨hwithin, hleast⟩ := getSeqlenBalancedPartitions_balanced hnonneg h
  have hperm := hparts.perm
  have hsize := hparts.equal_size rfl
  rw [List.length_map] at hperm hsize hleast
  have hgather := gather?_flatten (List.forall₂_map_left_iff.mpr hchunks)
  have hflat : (partitions.map (smallAtEnds (rows.map (rowWorkload seqlen)))).flatten.Perm
      partitions.flatten :=
    List.Perm.flatten_congr (List.forall₂_map_left_iff.mpr
      (List.forall₂_same.mpr fun p _ => smallAtEnds_perm _ p))
  -- every chunk holds the rows of a partition
  have hrows : ∀ c ∈ chunks, ∃ p ∈ partitions, c.length = p.length ∧
      load (rows.map (rowWorkload seqlen)) p = chunkWorkload seqlen c := by
    intro c hc
    obtain ⟨p, hp, hpc⟩ := Checked.exists_of_forall₂ hchunks.flip hc
    refine ⟨p, hp, ?_, ?_⟩
    · rw [← (gather?_eq_some_iff.mp hpc).length_eq, (smallAtEnds_perm _ p).length_eq]
    · rw [← load_perm (smallAtEnds_perm _ p), load_eq_chunkWorkload hpc]
  refine ⟨hchunks.length_eq.symm.trans hparts.length_eq, gather?_perm (hflat.trans hperm) hgather,
    ?_, ?_, ?_⟩
  · intro c hc
    obtain ⟨p, hp, hlen, -⟩ := hrows c hc
    rw [hlen]
    exact hsize p hp
  · intro d hd c hc c' hc'
    obtain ⟨p, hp, -, hload⟩ := hrows c hc
    obtain ⟨p', hp', -, hload'⟩ := hrows c' hc'
    rw [← hload, ← hload']
    exact hwithin d ⟨List.forall_mem_map.mpr fun r hr => List.forall_mem_map.mpr (hd r hr), nofun⟩
      p hp p' hp'
  · intro other hlen hother c hc
    obtain ⟨idxs, hidxs, hgather'⟩ := exists_gather?_of_perm hother
    obtain ⟨parts, rfl, hall⟩ := exists_gather?_parts hgather'
    obtain ⟨p, hp, -, hload⟩ := hrows c hc
    obtain ⟨q, hq, hle⟩ := hleast parts (hall.length_eq.trans hlen) hidxs p hp
    obtain ⟨y, hy, hqy⟩ := Checked.exists_of_forall₂ hall hq
    rw [hload, load_eq_chunkWorkload hqy] at hle
    exact ⟨y, hy, hle⟩

/-- **The ranks are balanced.**  A batch is reordered exactly when its rows fall to the ranks in
equal numbers, at least one each, and then the dispatch cuts it into balanced chunks. -/
theorem balanceBatch_eq_ok (dpSize : ℕ) (seqlen : ρ → ℕ) (rows : List ρ) :
    (∀ rows', balanceBatch dpSize seqlen rows = .ok rows' → ∃ chunks,
      chunkTensordict rows' dpSize = .ok chunks ∧ chunks.flatten = rows' ∧
        BalancedChunks dpSize seqlen rows chunks) ∧
    ((∃ rows', balanceBatch dpSize seqlen rows = .ok rows') ↔
      1 ≤ dpSize ∧ dpSize ≤ rows.length ∧ dpSize ∣ rows.length) := by
  have hnonneg := rowWorkload_nonneg seqlen rows
  have hspec : ∀ partitions,
      getSeqlenBalancedPartitions (rows.map (rowWorkload seqlen)) dpSize true = .ok partitions →
        BalancedPartitions (rows.map (rowWorkload seqlen)) dpSize true partitions :=
    (getSeqlenBalancedPartitions_eq_ok hnonneg).1
  have hok : (∃ partitions, getSeqlenBalancedPartitions (rows.map (rowWorkload seqlen)) dpSize
      true = .ok partitions) ↔
        1 ≤ dpSize ∧ dpSize ≤ (rows.map (rowWorkload seqlen)).length ∧
          (true = true → dpSize ∣ (rows.map (rowWorkload seqlen)).length) :=
    (getSeqlenBalancedPartitions_eq_ok hnonneg).2
  rw [List.length_map] at hok
  constructor
  · intro rows' h
    obtain ⟨partitions, hpartitions, h⟩ := do_eq_ok_iff.mp h
    have hperm := (hspec partitions hpartitions).perm
    rw [List.length_map] at hperm
    obtain ⟨hpos, hle, hdvd⟩ := hok.mp ⟨partitions, hpartitions⟩
    obtain ⟨chunks, hchunks, hgather⟩ := exists_chunks hperm (rows.map (rowWorkload seqlen))
    rw [elim_eq_ok_iff, hgather, Option.some_inj] at h
    subst h
    have hbalanced := balancedChunks_of_partitions hpartitions hchunks
    refine ⟨chunks, chunkTensordict_eq_ok.mpr ⟨hpos, ?_, ?_⟩, rfl, hbalanced⟩
    · rw [hbalanced.perm.length_eq]
      exact hdvd rfl
    · rw [hbalanced.perm.length_eq]
      have hlen : ∀ c ∈ chunks, c.length = rows.length / dpSize := fun c hc =>
        (Nat.div_eq_of_eq_mul_left hpos (hbalanced.size c hc).symm).symm
      have hruns := runs_flatten hlen
      rw [hbalanced.length_eq] at hruns
      exact hruns.symm
  · constructor
    · rintro ⟨rows', h⟩
      obtain ⟨partitions, hpartitions, -⟩ := do_eq_ok_iff.mp h
      obtain ⟨hpos, hle, hdvd⟩ := hok.mp ⟨partitions, hpartitions⟩
      exact ⟨hpos, hle, hdvd rfl⟩
    · rintro ⟨hpos, hle, hdvd⟩
      obtain ⟨partitions, hpartitions⟩ := hok.mpr ⟨hpos, hle, fun _ => hdvd⟩
      have hperm := (hspec partitions hpartitions).perm
      rw [List.length_map] at hperm
      obtain ⟨chunks, -, hgather⟩ := exists_chunks hperm (rows.map (rowWorkload seqlen))
      exact ⟨chunks.flatten,
        do_eq_ok_iff.mpr ⟨partitions, hpartitions, elim_eq_ok_iff.mpr hgather⟩⟩

/-- Six rows on two ranks. -/
theorem balancedChunks_six : ∃ chunks,
    chunkTensordict [1, 8, 2, 2, 5, 3] 2 = .ok chunks ∧ chunks.flatten = [1, 8, 2, 2, 5, 3] ∧
      BalancedChunks 2 id [3, 1, 2, 2, 8, 5] chunks :=
  (balanceBatch_eq_ok 2 id [3, 1, 2, 2, 8, 5]).1 _ (by decide +kernel)

end chunks

/-! ### Behind the reordering -/

/-- **The advantages do not see the new order**, as the note in `fit` says. -/
theorem balanceBatch_advantages {ρ : Type} {dpSize : ℕ} {seqlen : ρ → ℕ} {rows rows' : List ρ}
    {sample : ρ → PyStr × List ℝ × List Bool} {b b' : OutcomeBatch ℝ}
    (h : balanceBatch dpSize seqlen rows = .ok rows') (hb : b.samples = rows.map sample)
    (hb' : b'.samples = rows'.map sample) (norm : Bool) :
    (rows.zip (computeAdvantage norm b).1.rows).Perm
      (rows'.zip (computeAdvantage norm b').1.rows) := by
  obtain ⟨chunks, -, rfl, hbalanced⟩ := (balanceBatch_eq_ok dpSize seqlen rows).1 rows' h
  exact computeAdvantage_perm hbalanced.perm.symm hb hb' norm

end ExtpiRlsd
