import ExtpiRlsd.Lib.Checked
import ExtpiRlsd.Lib.Differencing
import ExtpiRlsd.Lib.Reindex

/-! # Partitions of balanced workload

`seqlen_balancing.py`: the partitions of `karmarkar_karp` behind the checks of
`get_seqlen_balanced_partitions`, and those of `greedy_partition`.  Values are integers, the
indices of a partition are positions of the list of values.

`getSeqlenBalancedPartitions_eq_ok` says that for workloads that are not negative no assertion
fails, and `getSeqlenBalancedPartitions_balanced` how far the loads of two partitions are
apart. -/

namespace ExtpiRlsd

open Differencing Checked Reindex

/-- The failed assertions of the module, and the exceptions of Python in between. -/
inductive BalanceError where
  | tooFewItems (items kPartitions : ℕ)
  | notDivisible (items kPartitions : ℕ)
  | stateItems (items k : ℕ)
  | partitionSize (size kPartitions items : ℕ)
  | partitionCount (partitions kPartitions : ℕ)
  | emptyPartition (i : ℕ)
  | seenIndices
  | zeroDivision
  | indexOutOfRange
deriving DecidableEq, Repr

/-- The text of a failure; the assertion on the indices that were seen has none. -/
def BalanceError.message : BalanceError → String
  | tooFewItems items k =>
      "number of items:[" ++ toString items ++ "] < k_partitions:[" ++ toString k ++ "]"
  | notDivisible items k => toString items ++ " % " ++ toString k ++ " != 0"
  | stateItems items k => toString items ++ " not in [1, " ++ toString k ++ "]"
  | partitionSize size k items =>
      toString size ++ " * " ++ toString k ++ " != " ++ toString items
  | partitionCount partitions k => toString partitions ++ " != " ++ toString k
  | emptyPartition i => "the " ++ toString i ++ "-th partition is empty"
  | seenIndices => ""
  | zeroDivision => "integer modulo by zero"
  | indexOutOfRange => "list index out of range"

/-! ### Karmarkar-Karp -/

/-- `Set`: a running sum and the items, each an index with its value. -/
structure ItemSet where
  sum : ℤ
  items : List (ℕ × ℤ)
deriving DecidableEq

namespace ItemSet

def empty : ItemSet := ⟨0, []⟩

def add (s : ItemSet) (idx : ℕ) (val : ℤ) : ItemSet := ⟨s.sum + val, s.items ++ [(idx, val)]⟩

def merge (s other : ItemSet) : ItemSet :=
  other.items.foldl (fun s item => s.add item.1 item.2) s

/-- `__lt__`: by sum, then by the number of items, then by the items. -/
def lt (s other : ItemSet) : Bool :=
  if s.sum ≠ other.sum then decide (s.sum < other.sum)
  else if s.items.length ≠ other.items.length then
    decide (s.items.length < other.items.length)
  else decide (s.items.map toLex < other.items.map toLex)

end ItemSet

/-- `sorted(sets, reverse=True)`; sets that compare equal keep their order. -/
def sortSets (sets : List ItemSet) : List ItemSet := sets.insertionSort fun s t => s.lt t = false

/-- `State`: the sets in decreasing order. -/
structure KarmarkarState where
  k : ℕ
  sets : List ItemSet

namespace KarmarkarState

/-- The constructor: item `i` goes to set `i`. -/
def new (items : List (ℕ × ℤ)) (k : ℕ) : Except BalanceError KarmarkarState :=
  if items.length ≠ 1 ∧ items.length ≠ k then .error (.stateItems items.length k)
  else if k < items.length then .error .indexOutOfRange
  else .ok ⟨k, sortSets (items.map (fun item => ItemSet.empty.add item.1 item.2) ++
    List.replicate (k - items.length) ItemSet.empty)⟩

def getPartitions (s : KarmarkarState) : List (List ℕ) := s.sets.map fun t => t.items.map Prod.fst

/-- Set `i` takes the items of set `k - 1 - i` of the other state. -/
def merge (s other : KarmarkarState) : KarmarkarState :=
  { s with sets := sortSets (List.zipWith ItemSet.merge s.sets other.sets.reverse) }

def spread (s : KarmarkarState) : ℤ :=
  (s.sets.head?.getD .empty).sum - (s.sets.getLast?.getD .empty).sum

/-- `__lt__`: the larger spread comes first, then the larger first set. -/
def lt (s other : KarmarkarState) : Bool :=
  if s.spread ≠ other.spread then decide (other.spread < s.spread)
  else (other.sets.head?.getD .empty).lt (s.sets.head?.getD .empty)

end KarmarkarState

/-- The values with their indices in increasing order. -/
def sortedSeqlenList (seqlenList : List ℤ) : List (ℤ × ℕ) :=
  seqlenList.zipIdx.insertionSort fun p q => toLex p ≤ toLex q

/-- The first states: a run of `k` neighbours each for equal sizes, one value each otherwise. -/
def initialStates (seqlenList : List ℤ) (kPartitions : ℕ) (equalSize : Bool) :
    Except BalanceError (List KarmarkarState) :=
  let items := (sortedSeqlenList seqlenList).map Prod.swap
  if equalSize then
    if kPartitions = 0 then .error .zeroDivision
    else if seqlenList.length % kPartitions ≠ 0 then
      .error (.notDivisible seqlenList.length kPartitions)
    else (runs (seqlenList.length / kPartitions) kPartitions items).mapM (KarmarkarState.new · kPartitions)
  else items.mapM fun item => KarmarkarState.new [item] kPartitions

/-- `karmarkar_karp`: the queue of states is merged down to one. -/
def karmarkarKarp (seqlenList : List ℤ) (kPartitions : ℕ) (equalSize : Bool) :
    Except BalanceError (List (List ℕ)) := do
  let statesPq ← initialStates seqlenList kPartitions equalSize
  match mergeAll KarmarkarState.lt KarmarkarState.merge statesPq.length statesPq with
  | [] => throw .indexOutOfRange
  | finalState :: _ =>
      let partitions := finalState.getPartitions
      if equalSize then
        match partitions.find? fun p => decide (p.length * kPartitions ≠ seqlenList.length) with
        | some p => throw (.partitionSize p.length kPartitions seqlenList.length)
        | none => return partitions
      else return partitions

/-- `_check_and_sort_partitions`. -/
def checkAndSortPartitions (n kPartitions : ℕ) (partitions : List (List ℕ)) :
    Except BalanceError (List (List ℕ)) := do
  if partitions.length ≠ kPartitions then throw (.partitionCount partitions.length kPartitions)
  let sortedPartitions ← partitions.zipIdx.mapM fun p =>
    if p.1 = [] then throw (.emptyPartition p.2) else return p.1.insertionSort (· ≤ ·)
  if partitions.flatten.toFinset ≠ Finset.range n then throw .seenIndices
  return sortedPartitions

/-- `get_seqlen_balanced_partitions`. -/
def getSeqlenBalancedPartitions (seqlenList : List ℤ) (kPartitions : ℕ) (equalSize : Bool) :
    Except BalanceError (List (List ℕ)) := do
  if seqlenList.length < kPartitions then throw (.tooFewItems seqlenList.length kPartitions)
  let partitions ← karmarkarKarp seqlenList kPartitions equalSize
  checkAndSortPartitions seqlenList.length kPartitions partitions

/-! ### Sets and states -/

namespace ItemSet

theorem merge_eq (s other : ItemSet) :
    s.merge other = ⟨s.sum + (other.items.map Prod.snd).sum, s.items ++ other.items⟩ := by
  rw [merge]
  induction other.items generalizing s with
  | nil => simp
  | cons item items ih =>
      rw [List.foldl_cons, ih, add]
      simp [add_assoc]

/-- What sets are compared by. -/
def key (s : ItemSet) : ℤ ×ₗ ℕ ×ₗ List (ℕ ×ₗ ℤ) :=
  toLex (s.sum, toLex (s.items.length, s.items.map toLex))

theorem lt_iff (s t : ItemSet) : s.lt t = true ↔ s.key < t.key := by
  rw [lt, key, key, Prod.Lex.toLex_lt_toLex, Prod.Lex.toLex_lt_toLex]
  split_ifs with hsum hlen
  · simp [hsum]
  · rw [not_not.mp hsum]
    simp [hlen]
  · rw [not_not.mp hsum, not_not.mp hlen]
    simp

theorem lt_eq_false_iff (s t : ItemSet) : s.lt t = false ↔ t.key ≤ s.key := by
  rw [← Bool.not_eq_true, lt_iff, not_lt]

instance : Std.Total fun s t : ItemSet => s.lt t = false :=
  ⟨fun s t => by simpa only [lt_eq_false_iff] using le_total t.key s.key⟩

instance : IsTrans ItemSet fun s t => s.lt t = false :=
  ⟨fun s t u => by simpa only [lt_eq_false_iff] using fun h h' => le_trans h' h⟩

/-- The sum is the sum of the values, and no value is negative. -/
structure WellFormed (s : ItemSet) : Prop where
  sum_eq : s.sum = (s.items.map Prod.snd).sum
  nonneg : ∀ item ∈ s.items, 0 ≤ item.2

theorem WellFormed.merge {s t : ItemSet} (hs : s.WellFormed) (ht : t.WellFormed) :
    (s.merge t).WellFormed where
  sum_eq := by simp [merge_eq, hs.sum_eq]
  nonneg item hitem := by
    rw [merge_eq] at hitem
    exact (List.mem_append.mp hitem).elim (hs.nonneg item) (ht.nonneg item)

theorem sum_le_of_key_le {s t : ItemSet} (h : t.key ≤ s.key) : t.sum ≤ s.sum := by
  rw [key, key, Prod.Lex.toLex_le_toLex] at h
  rcases h with h | h
  · exact h.le
  · exact h.1.le

theorem WellFormed.sum_merge {s t : ItemSet} (ht : t.WellFormed) :
    (s.merge t).sum = s.sum + t.sum := by
  rw [merge_eq, ht.sum_eq]

/-- No empty set stands before one that holds something. -/
theorem items_ne_nil_of_key_le {s t : ItemSet} (h : t.key ≤ s.key) (hs : s.WellFormed)
    (ht : t.WellFormed) (hne : t.items ≠ []) : s.items ≠ [] := by
  intro hnil
  have hsum : s.sum = 0 := by simp [hs.sum_eq, hnil]
  have htsum : 0 ≤ t.sum := by
    rw [ht.sum_eq]
    exact List.sum_nonneg (by simpa using fun v i hi => ht.nonneg (i, v) hi)
  rw [key, key, Prod.Lex.toLex_le_toLex, Prod.Lex.toLex_le_toLex, hnil] at h
  rcases h with h | ⟨-, h | ⟨h, -⟩⟩
  · have h : t.sum < s.sum := h
    omega
  · exact absurd h (Nat.not_lt_zero _)
  · exact hne (List.length_eq_zero_iff.mp h)

end ItemSet

theorem sortSets_perm (sets : List ItemSet) : (sortSets sets).Perm sets :=
  List.perm_insertionSort _ sets

theorem sortSets_descending (sets : List ItemSet) :
    (sortSets sets).Pairwise fun s t => t.key ≤ s.key :=
  (List.pairwise_insertionSort _ sets).imp fun h => (ItemSet.lt_eq_false_iff _ _).mp h

/-- Zipped bins hold what the two lists of bins hold. -/
theorem flatten_zipWith_append {α : Type*} {as bs : List (List α)} (h : as.length = bs.length) :
    (List.zipWith (· ++ ·) as bs).flatten.Perm (as.flatten ++ bs.flatten) := by
  induction as generalizing bs with
  | nil =>
      rw [List.length_eq_zero_iff.mp h.symm]
      exact List.Perm.refl _
  | cons a as ih => cases bs with
    | nil => cases h
    | cons b bs =>
        have ih : (List.zipWith (· ++ ·) as bs).flatten.Perm (as.flatten ++ bs.flatten) :=
          ih (by simpa using h)
        simp only [List.zipWith_cons_cons, List.flatten_cons, List.append_assoc]
        refine List.Perm.append_left a ?_
        exact (ih.append_left b).trans (by
          rw [← List.append_assoc, ← List.append_assoc]
          exact List.perm_append_comm.append_right _)

/-- A state of `k` sets that hold the items together; `d` bounds the differences of the sums. -/
structure HoldsItems (k : ℕ) (d : ℤ) (equalSize : Bool) (items : Multiset (ℕ × ℤ))
    (s : KarmarkarState) : Prop where
  k_eq : s.k = k
  length_sets : s.sets.length = k
  wellFormed : ∀ t ∈ s.sets, t.WellFormed
  descending : s.sets.Pairwise fun t u => u.key ≤ t.key
  within : Within d (s.sets.map ItemSet.sum)
  filled : Filled (s.sets.map ItemSet.items)
  items_eq : ((s.sets.map ItemSet.items).flatten : Multiset (ℕ × ℤ)) = items
  equal_size : equalSize = true → ∀ t ∈ s.sets, t.items.length * k = items.card

section holds
variable {k : ℕ} {d : ℤ} {equalSize : Bool} {m n : Multiset (ℕ × ℤ)} {s s' : KarmarkarState}

theorem HoldsItems.sums_descending (h : HoldsItems k d equalSize m s) :
    (s.sets.map ItemSet.sum).Pairwise fun a b => b ≤ a :=
  List.pairwise_map.mpr (h.descending.imp ItemSet.sum_le_of_key_le)

theorem HoldsItems.filled_first (h : HoldsItems k d equalSize m s) :
    (s.sets.map ItemSet.items).Pairwise fun a b => b ≠ [] → a ≠ [] := by
  refine List.pairwise_map.mpr (h.descending.imp_of_mem fun ht hu hle => ?_)
  exact ItemSet.items_ne_nil_of_key_le hle (h.wellFormed _ ht) (h.wellFormed _ hu)

/-- The merge of two states: largest sets on smallest sets. -/
theorem HoldsItems.merge (h : HoldsItems k d equalSize m s) (h' : HoldsItems k d equalSize n s') :
    HoldsItems k d equalSize (m + n) (s.merge s') := by
  have hperm : (s.merge s').sets.Perm (List.zipWith ItemSet.merge s.sets s'.sets.reverse) :=
    sortSets_perm _
  have hparts : ∀ t ∈ (s.merge s').sets, ∃ a ∈ s.sets, ∃ b ∈ s'.sets, t = a.merge b := by
    intro t ht
    obtain ⟨i, hi, rfl⟩ := List.mem_iff_getElem.mp (hperm.mem_iff.mp ht)
    rw [List.length_zipWith, lt_min_iff] at hi
    exact ⟨_, List.getElem_mem hi.1, _, List.mem_reverse.mp (List.getElem_mem hi.2),
      List.getElem_zipWith⟩
  have hsums : (List.zipWith ItemSet.merge s.sets s'.sets.reverse).map ItemSet.sum =
      List.zipWith (· + ·) (s.sets.map ItemSet.sum) (s'.sets.map ItemSet.sum).reverse := by
    rw [List.map_zipWith, ← List.map_reverse, List.zipWith_map]
    refine List.ext_getElem (by simp) fun i hi _ => ?_
    rw [List.length_zipWith, lt_min_iff] at hi
    rw [List.getElem_zipWith, List.getElem_zipWith]
    exact (h'.wellFormed _ (List.mem_reverse.mp (List.getElem_mem hi.2))).sum_merge
  have hitems : (List.zipWith ItemSet.merge s.sets s'.sets.reverse).map ItemSet.items =
      List.zipWith (· ++ ·) (s.sets.map ItemSet.items) (s'.sets.map ItemSet.items).reverse := by
    rw [List.map_zipWith, ← List.map_reverse, List.zipWith_map]
    simp only [ItemSet.merge_eq]
  refine ⟨h.k_eq, ?_, ?_, sortSets_descending _, ?_, ?_, ?_, ?_⟩
  · rw [hperm.length_eq, List.length_zipWith, List.length_reverse, h.length_sets,
      h'.length_sets, min_self]
  · intro t ht
    obtain ⟨a, ha, b, hb, rfl⟩ := hparts t ht
    exact (h.wellFormed a ha).merge (h'.wellFormed b hb)
  · refine Within.perm ?_ (hperm.map _)
    rw [hsums]
    exact h.within.zipWith_reverse h.sums_descending h'.sums_descending h'.within
  · refine Filled.perm ?_ (hperm.map _)
    rw [hitems]
    exact h.filled.zipWith_reverse h.filled_first h'.filled_first h'.filled
  · have hflat := (hperm.map ItemSet.items).flatten
    rw [hitems] at hflat
    have hrev : (s'.sets.map ItemSet.items).reverse.flatten.Perm (s'.sets.map ItemSet.items).flatten :=
      (List.reverse_perm _).flatten
    have hlen : (s.sets.map ItemSet.items).length = (s'.sets.map ItemSet.items).reverse.length := by
      simp [h.length_sets, h'.length_sets]
    have hzip := flatten_zipWith_append hlen
    rw [Multiset.coe_eq_coe.mpr (hflat.trans (hzip.trans (hrev.append_left _))),
      ← Multiset.coe_add, h.items_eq, h'.items_eq]
  · intro heq t ht
    obtain ⟨a, ha, b, hb, rfl⟩ := hparts t ht
    rw [ItemSet.merge_eq, List.length_append, Nat.add_mul, h.equal_size heq a ha,
      h'.equal_size heq b hb, Multiset.card_add]

/-- A state with one item in each of the first sets. -/
theorem HoldsItems.new {items : List (ℕ × ℤ)} (hnonneg : ∀ item ∈ items, 0 ≤ item.2)
    (hlen : items.length = 1 ∨ items.length = k) (hk : 1 ≤ k)
    (hd : Within d (items.map Prod.snd ++ List.replicate (k - items.length) 0))
    (hequal : equalSize = true → items.length = k) :
    ∃ s, KarmarkarState.new items k = .ok s ∧ HoldsItems k d equalSize items s := by
  have hle : items.length ≤ k := by omega
  rw [KarmarkarState.new, if_neg (by omega), if_neg (by omega)]
  set sets := items.map (fun item => ItemSet.empty.add item.1 item.2) ++
    List.replicate (k - items.length) ItemSet.empty with hsets
  have hperm := sortSets_perm sets
  have hmem : ∀ t ∈ sortSets sets, (∃ item ∈ items, t = ⟨item.2, [item]⟩) ∨
      t = ItemSet.empty ∧ items.length ≠ k := by
    intro t ht
    rcases List.mem_append.mp (hperm.mem_iff.mp ht) with ht | ht
    · obtain ⟨item, hitem, rfl⟩ := List.mem_map.mp ht
      exact .inl ⟨item, hitem, by simp [ItemSet.add, ItemSet.empty]⟩
    · obtain ⟨hne, rfl⟩ := List.mem_replicate.mp ht
      exact .inr ⟨rfl, by omega⟩
  refine ⟨_, rfl, rfl, ?_, ?_, sortSets_descending _, ?_, ?_, ?_, ?_⟩
  · rw [hperm.length_eq, hsets, List.length_append, List.length_map, List.length_replicate]
    omega
  · intro t ht
    rcases hmem t ht with ⟨item, hitem, rfl⟩ | ⟨rfl, -⟩
    · exact ⟨by simp, by simpa using hnonneg item hitem⟩
    · exact ⟨rfl, by simp [ItemSet.empty]⟩
  · refine hd.perm ((hperm.map ItemSet.sum).trans ?_)
    simp [hsets, Function.comp_def, ItemSet.add, ItemSet.empty]
  · refine .inr fun b hb => ?_
    obtain ⟨t, ht, rfl⟩ := List.mem_map.mp hb
    rcases hmem t ht with ⟨item, -, rfl⟩ | ⟨rfl, -⟩
    · simp
    · simp [ItemSet.empty]
  · refine Multiset.coe_eq_coe.mpr ((hperm.map ItemSet.items).flatten.trans ?_)
    have hsingle : (items.map fun item => [item]).flatten = items := by
      rw [← List.flatMap_def, List.flatMap_singleton']
    simp [hsets, Function.comp_def, ItemSet.add, ItemSet.empty, hsingle]
  · intro heq t ht
    rcases hmem t ht with ⟨item, -, rfl⟩ | ⟨-, hne⟩
    · simp [hequal heq]
    · exact absurd (hequal heq) hne

end holds

/-! ### The queue of states -/

/-- The values with their indices, in the order of the list. -/
def indexed (seqlenList : List ℤ) : List (ℕ × ℤ) := seqlenList.zipIdx.map Prod.swap

section states
variable {seqlenList : List ℤ} {k : ℕ} {d : ℤ} {equalSize : Bool}

theorem sortedSeqlenList_perm (seqlenList : List ℤ) :
    ((sortedSeqlenList seqlenList).map Prod.swap).Perm (indexed seqlenList) :=
  (List.perm_insertionSort _ _).map _

theorem mem_indexed {i : ℕ} {v : ℤ} : (i, v) ∈ indexed seqlenList ↔ seqlenList[i]? = some v := by
  simp [indexed, List.mem_zipIdx_iff_getElem?]

/-- The bound on the differences that the first states satisfy. -/
def Bounds (seqlenList : List ℤ) (equalSize : Bool) (d : ℤ) : Prop :=
  (∀ v ∈ seqlenList, ∀ w ∈ seqlenList, v - w ≤ d) ∧ (equalSize = false → ∀ v ∈ seqlenList, v ≤ d)

theorem sum_map_coe {α : Type*} (ls : List (List α)) :
    (ls.map Multiset.ofList).sum = ls.flatten := by
  induction ls with
  | nil => rfl
  | cons l ls ih => rw [List.map_cons, List.sum_cons, ih, Multiset.coe_add, List.flatten_cons]

/-- The states of groups of items. -/
theorem newStates_eq_ok (equalSize : Bool) (groups : List (List (ℕ × ℤ)))
    (hnonneg : ∀ item ∈ groups.flatten, 0 ≤ item.2) (hk : 1 ≤ k)
    (hlen : ∀ g ∈ groups, g.length = 1 ∨ g.length = k)
    (hequal : equalSize = true → ∀ g ∈ groups, g.length = k)
    (hd : ∀ g ∈ groups, Within d (g.map Prod.snd ++ List.replicate (k - g.length) 0)) :
    ∃ states ms, groups.mapM (KarmarkarState.new · k) = .ok states ∧
      List.Forall₂ (HoldsItems k d equalSize) ms states ∧ ms.sum = ↑groups.flatten := by
  obtain ⟨states, hstates, hholds⟩ := exists_mapM_eq_ok (f := (KarmarkarState.new · k))
    (R := fun g s => HoldsItems k d equalSize (Multiset.ofList g) s) fun g hg =>
      HoldsItems.new (fun item hitem => hnonneg item (List.mem_flatten_of_mem hg hitem)) (hlen g hg) hk
        (hd g hg) fun heq => hequal heq g hg
  exact ⟨states, groups.map Multiset.ofList, hstates,
    List.forall₂_map_left_iff.mpr hholds, sum_map_coe groups⟩

/-- The first states hold all items together. -/
theorem initialStates_eq_ok (hnonneg : ∀ v ∈ seqlenList, 0 ≤ v) (hk : 1 ≤ k)
    (hdvd : equalSize = true → k ∣ seqlenList.length) (hd : Bounds seqlenList equalSize d) :
    ∃ states ms, initialStates seqlenList k equalSize = .ok states ∧
      List.Forall₂ (HoldsItems k d equalSize) ms states ∧ ms.sum = ↑(indexed seqlenList) := by
  have hperm := sortedSeqlenList_perm seqlenList
  have hvalue : ∀ item ∈ (sortedSeqlenList seqlenList).map Prod.swap, item.2 ∈ seqlenList := by
    rintro ⟨i, v⟩ hitem
    exact List.mem_of_getElem? (mem_indexed.mp (hperm.mem_iff.mp hitem))
  have hlength : ((sortedSeqlenList seqlenList).map Prod.swap).length = seqlenList.length := by
    simp [hperm.length_eq, indexed]
  rw [initialStates]
  generalize (sortedSeqlenList seqlenList).map Prod.swap = items at hperm hvalue hlength ⊢
  cases equalSize with
  | true =>
      have hmul : items.length = seqlenList.length / k * k := by
        rw [hlength, Nat.div_mul_cancel (hdvd rfl)]
      have hflat := flatten_runs hmul
      have hmem : ∀ g ∈ runs (seqlenList.length / k) k items, ∀ item ∈ g, item.2 ∈ seqlenList :=
        fun g hg item hitem => hvalue item (by
          rw [← hflat]
          exact List.mem_flatten_of_mem hg hitem)
      rw [if_pos rfl, if_neg (by omega), if_neg (by simpa using Nat.mod_eq_zero_of_dvd (hdvd rfl))]
      obtain ⟨states, ms, hstates, hholds, hsum⟩ := newStates_eq_ok (d := d) true
        (runs (seqlenList.length / k) k items)
        (fun item hitem => hnonneg _ (hvalue item (by rwa [hflat] at hitem))) hk
        (fun g hg => .inr (length_of_mem_runs hmul hg)) (fun _ g hg => length_of_mem_runs hmul hg)
        (fun g hg => by
          rw [length_of_mem_runs hmul hg, Nat.sub_self, List.replicate_zero, List.append_nil]
          intro v hv w hw
          obtain ⟨item, hitem, rfl⟩ := List.mem_map.mp hv
          obtain ⟨item', hitem', rfl⟩ := List.mem_map.mp hw
          exact hd.1 _ (hmem g hg item hitem) _ (hmem g hg item' hitem'))
      refine ⟨states, ms, hstates, hholds, ?_⟩
      rw [hsum, hflat]
      exact Multiset.coe_eq_coe.mpr hperm
  | false =>
      have hflat : (items.map fun item => [item]).flatten = items := by
        rw [← List.flatMap_def, List.flatMap_singleton']
      obtain ⟨states, ms, hstates, hholds, hsum⟩ := newStates_eq_ok (k := k) (d := d) false
        (items.map fun item => [item])
        (fun item hitem => hnonneg _ (hvalue item (by rwa [hflat] at hitem))) hk
        (fun g hg => by
          obtain ⟨item, -, rfl⟩ := List.mem_map.mp hg
          exact .inl rfl)
        (fun h => absurd h Bool.false_ne_true)
        (fun g hg => by
          obtain ⟨item, hitem, rfl⟩ := List.mem_map.mp hg
          have hv := hvalue item hitem
          have h0 := hnonneg _ hv
          have hle := hd.2 rfl _ hv
          intro v hv' w hw'
          simp only [List.map_cons, List.map_nil, List.cons_append, List.nil_append,
            List.mem_cons, List.mem_replicate] at hv' hw'
          omega)
      rw [List.mapM_map] at hstates
      refine ⟨states, ms, hstates, hholds, ?_⟩
      rw [hsum, hflat]
      exact Multiset.coe_eq_coe.mpr hperm

end states

/-! ### The partitions -/

/-- The total value of the indices of a partition. -/
def load (seqlenList : List ℤ) (partition : List ℕ) : ℤ :=
  (partition.map fun i => seqlenList.getD i 0).sum

/-- Nonempty increasing partitions that share out the indices. -/
structure BalancedPartitions (seqlenList : List ℤ) (k : ℕ) (equalSize : Bool)
    (partitions : List (List ℕ)) : Prop where
  length_eq : partitions.length = k
  perm : partitions.flatten.Perm (List.range seqlenList.length)
  ne_nil : ∀ p ∈ partitions, p ≠ []
  increasing : ∀ p ∈ partitions, p.Pairwise (· < ·)
  equal_size : equalSize = true → ∀ p ∈ partitions, p.length * k = seqlenList.length

section partitions
variable {seqlenList : List ℤ} {k : ℕ} {d : ℤ} {equalSize : Bool}

theorem indexed_fst (seqlenList : List ℤ) :
    (indexed seqlenList).map Prod.fst = List.range seqlenList.length := by
  rw [indexed, List.map_map, List.range_eq_range']
  exact List.zipIdx_map_snd 0 seqlenList

theorem load_perm {p q : List ℕ} (h : p.Perm q) : load seqlenList p = load seqlenList q :=
  (h.map _).sum_eq

theorem load_flatten (partitions : List (List ℕ)) :
    load seqlenList partitions.flatten = (partitions.map (load seqlenList)).sum := by
  induction partitions with
  | nil => rfl
  | cons p ps ih =>
      rw [List.flatten_cons, List.map_cons, List.sum_cons, ← ih, load, List.map_append,
        List.sum_append]
      rfl

theorem load_range : load seqlenList (List.range seqlenList.length) = seqlenList.sum := by
  rw [load]
  congr 1
  refine List.ext_getElem (by simp) fun i _ hi => ?_
  rw [List.getElem_map, List.getElem_range, List.getD_eq_getElem _ _ hi]

/-- The last state of the queue. -/
theorem karmarkarKarp_eq_ok (hnonneg : ∀ v ∈ seqlenList, 0 ≤ v) (hk : 1 ≤ k)
    (hle : k ≤ seqlenList.length) (hdvd : equalSize = true → k ∣ seqlenList.length)
    (hd : Bounds seqlenList equalSize d) :
    ∃ s, karmarkarKarp seqlenList k equalSize = .ok s.getPartitions ∧
      HoldsItems k d equalSize (indexed seqlenList) s := by
  obtain ⟨states, ms, hstates, hholds, hsum⟩ := initialStates_eq_ok hnonneg hk hdvd hd
  have hne : states ≠ [] := by
    rintro rfl
    rw [List.forall₂_nil_right_iff.mp hholds, List.sum_nil] at hsum
    have hlength := congrArg Multiset.card hsum
    simp [indexed] at hlength
    omega
  obtain ⟨s, hs, hlast⟩ := mergeAll_related KarmarkarState.lt KarmarkarState.merge HoldsItems.merge
    states.length hholds hne (Nat.le_succ _)
  rw [hsum] at hlast
  refine ⟨s, ?_, hlast⟩
  rw [karmarkarKarp, hstates]
  simp only [bind, Except.bind, hs, pure, Except.pure]
  cases equalSize with
  | false => rfl
  | true =>
      have hnone : (s.getPartitions.find? fun p => decide (p.length * k ≠ seqlenList.length)) =
          none := by
        refine List.find?_eq_none.mpr fun p hp => ?_
        obtain ⟨t, ht, rfl⟩ := List.mem_map.mp hp
        have hsize := hlast.equal_size rfl t ht
        simpa [indexed] using hsize
      rw [if_pos rfl, hnone]

theorem checkAndSortPartitions_eq_ok {n : ℕ} {partitions : List (List ℕ)}
    (hlen : partitions.length = k) (hne : ∀ p ∈ partitions, p ≠ [])
    (hperm : partitions.flatten.Perm (List.range n)) :
    checkAndSortPartitions n k partitions =
      .ok (partitions.map fun p => p.insertionSort (· ≤ ·)) := by
  have hmap : (partitions.zipIdx.mapM fun p : List ℕ × ℕ =>
      if p.1 = [] then (throw (.emptyPartition p.2) : Except BalanceError (List ℕ))
      else return p.1.insertionSort (· ≤ ·)) =
      .ok (partitions.map fun p => p.insertionSort (· ≤ ·)) := by
    have hstep : ∀ p ∈ partitions.zipIdx,
        (if p.1 = [] then (throw (.emptyPartition p.2) : Except BalanceError (List ℕ))
          else return p.1.insertionSort (· ≤ ·)) = pure (p.1.insertionSort (· ≤ ·)) :=
      fun p hp => if_neg (hne p.1 (List.fst_mem_of_mem_zipIdx hp))
    rw [mapM_congr hstep, List.mapM_pure]
    have hfst := congrArg (List.map fun p : List ℕ => p.insertionSort (· ≤ ·))
      (List.zipIdx_map_fst 0 partitions)
    rw [List.map_map] at hfst
    exact congrArg Except.ok hfst
  have hrange : partitions.flatten.toFinset = Finset.range n := by
    rw [List.toFinset_eq_of_perm _ _ hperm, List.toFinset_range]
  rw [checkAndSortPartitions]
  simp only [hlen, ne_eq, not_true, if_false, hrange]
  rw [hmap]
  rfl

/-- What `get_seqlen_balanced_partitions` returns, by the last state of the queue. -/
theorem getSeqlenBalancedPartitions_of_state (hnonneg : ∀ v ∈ seqlenList, 0 ≤ v) (hk : 1 ≤ k)
    (hle : k ≤ seqlenList.length) (hdvd : equalSize = true → k ∣ seqlenList.length)
    (hd : Bounds seqlenList equalSize d) :
    ∃ s, HoldsItems k d equalSize (indexed seqlenList) s ∧
      (s.getPartitions.flatten.Perm (List.range seqlenList.length)) ∧
      (∀ p ∈ s.getPartitions, p ≠ []) ∧
      getSeqlenBalancedPartitions seqlenList k equalSize =
        .ok (s.getPartitions.map fun p => p.insertionSort (· ≤ ·)) := by
  obtain ⟨s, hs, hholds⟩ := karmarkarKarp_eq_ok hnonneg hk hle hdvd hd
  have hflat : s.getPartitions.flatten = (s.sets.map ItemSet.items).flatten.map Prod.fst := by
    rw [List.map_flatten, List.map_map]
    rfl
  have hitems := Multiset.coe_eq_coe.mp hholds.items_eq
  have hperm : s.getPartitions.flatten.Perm (List.range seqlenList.length) := by
    rw [hflat, ← indexed_fst]
    exact hitems.map _
  have hne : ∀ p ∈ s.getPartitions, p ≠ [] := by
    intro p hp hnil
    obtain ⟨t, ht, rfl⟩ := List.mem_map.mp hp
    refine hholds.filled.ne_nil ?_ _ (List.mem_map_of_mem ht) (List.map_eq_nil_iff.mp hnil)
    rw [hitems.length_eq, List.length_map, hholds.length_sets, indexed, List.length_map,
      List.length_zipIdx]
    exact hle
  refine ⟨s, hholds, hperm, hne, ?_⟩
  have hlen : s.getPartitions.length = k := by
    rw [KarmarkarState.getPartitions, List.length_map, hholds.length_sets]
  rw [getSeqlenBalancedPartitions, if_neg (by omega), hs]
  exact checkAndSortPartitions_eq_ok hlen hne hperm

theorem bounds_sum (hnonneg : ∀ v ∈ seqlenList, 0 ≤ v) :
    Bounds seqlenList equalSize seqlenList.sum := by
  have hle : ∀ v ∈ seqlenList, v ≤ seqlenList.sum := fun v hv =>
    List.single_le_sum hnonneg v hv
  refine ⟨fun v hv w hw => ?_, fun _ v hv => hle v hv⟩
  have := hle v hv
  have := hnonneg w hw
  omega

/-- A call that returns passed the checks on the two numbers. -/
theorem numbers_of_eq_ok {partitions : List (List ℕ)}
    (h : getSeqlenBalancedPartitions seqlenList k equalSize = .ok partitions) :
    1 ≤ k ∧ k ≤ seqlenList.length ∧ (equalSize = true → k ∣ seqlenList.length) := by
  rw [getSeqlenBalancedPartitions, guard_eq_ok_iff] at h
  obtain ⟨hle, h⟩ := h
  obtain ⟨parts, hparts, -⟩ := bind_eq_ok_iff.mp h
  obtain ⟨states, hstates, hqueue⟩ := bind_eq_ok_iff.mp hparts
  rw [initialStates] at hstates
  cases equalSize with
  | true =>
      rw [if_pos rfl] at hstates
      split_ifs at hstates with hzero hmod
      exact ⟨by omega, by omega, fun _ => Nat.dvd_of_mod_eq_zero (not_not.mp hmod)⟩
  | false =>
      refine ⟨Nat.one_le_iff_ne_zero.mpr ?_, by omega, fun h => absurd h Bool.false_ne_true⟩
      rintro rfl
      rw [if_neg Bool.false_ne_true] at hstates
      cases hitems : (sortedSeqlenList seqlenList).map Prod.swap with
      | nil =>
          simp only [hitems, List.mapM_nil] at hstates
          cases hstates
          cases hqueue
      | cons item items =>
          simp only [hitems] at hstates
          obtain ⟨s, hs⟩ := exists_ok_of_mapM hstates List.mem_cons_self
          simp [KarmarkarState.new] at hs

/-- **For workloads that are not negative the call fails only on the two numbers, and otherwise
its partitions share out the indices.** -/
theorem getSeqlenBalancedPartitions_eq_ok (hnonneg : ∀ v ∈ seqlenList, 0 ≤ v) :
    (∀ partitions, getSeqlenBalancedPartitions seqlenList k equalSize = .ok partitions →
      BalancedPartitions seqlenList k equalSize partitions) ∧
    ((∃ partitions, getSeqlenBalancedPartitions seqlenList k equalSize = .ok partitions) ↔
      1 ≤ k ∧ k ≤ seqlenList.length ∧ (equalSize = true → k ∣ seqlenList.length)) := by
  constructor
  · intro partitions h
    obtain ⟨hk, hle, hdvd⟩ := numbers_of_eq_ok h
    obtain ⟨s, hholds, hperm, hne, hs⟩ :=
      getSeqlenBalancedPartitions_of_state hnonneg hk hle hdvd (bounds_sum hnonneg)
    obtain rfl := Except.ok.inj (hs.symm.trans h)
    have hsorted : ∀ p ∈ s.getPartitions, (p.insertionSort (· ≤ ·)).Pairwise (· < ·) := by
      intro p hp
      have hnodup : p.Nodup :=
        (List.nodup_flatten.mp (hperm.nodup_iff.mpr List.nodup_range)).1 p hp
      exact ((List.pairwise_insertionSort (· ≤ ·) p).and
        ((List.perm_insertionSort (· ≤ ·) p).nodup_iff.mpr hnodup)).imp fun h => by omega
    refine ⟨?_, ?_, ?_, ?_, ?_⟩
    · rw [List.length_map, KarmarkarState.getPartitions, List.length_map, hholds.length_sets]
    · refine List.Perm.trans ?_ hperm
      exact List.Perm.flatten_congr (List.forall₂_map_left_iff.mpr
        (List.forall₂_same.mpr fun p _ => List.perm_insertionSort (· ≤ ·) p))
    · intro _ hq hnil
      obtain ⟨p, hp, rfl⟩ := List.mem_map.mp hq
      have hp' := List.perm_insertionSort (· ≤ ·) p
      rw [hnil] at hp'
      exact hne p hp hp'.nil_eq.symm
    · intro _ hq
      obtain ⟨p, hp, rfl⟩ := List.mem_map.mp hq
      exact hsorted p hp
    · intro heq _ hq
      obtain ⟨p, hp, rfl⟩ := List.mem_map.mp hq
      obtain ⟨t, ht, rfl⟩ := List.mem_map.mp hp
      have hsize := hholds.equal_size heq t ht
      rw [(List.perm_insertionSort _ _).length_eq, List.length_map, hsize]
      simp [indexed]
  · refine ⟨fun ⟨_, h⟩ => numbers_of_eq_ok h, fun ⟨hk, hle, hdvd⟩ => ?_⟩
    obtain ⟨s, -, -, -, hs⟩ :=
      getSeqlenBalancedPartitions_of_state hnonneg hk hle hdvd (bounds_sum hnonneg)
    exact ⟨_, hs⟩

theorem balancedPartitions_five : BalancedPartitions [4, 5, 6, 7, 8] 2 false [[0, 1, 3], [2, 4]] :=
  (getSeqlenBalancedPartitions_eq_ok (by decide)).1 _ (by decide +kernel)

/-- A value is part of the load of every partition with its index. -/
theorem le_load (hnonneg : ∀ v ∈ seqlenList, 0 ≤ v) {i : ℕ} (hi : i < seqlenList.length)
    {p : List ℕ} (hp : i ∈ p) : seqlenList[i] ≤ load seqlenList p := by
  have hmem : seqlenList[i] ∈ p.map fun i => seqlenList.getD i 0 :=
    List.mem_map.mpr ⟨i, hp, List.getD_eq_getElem _ _ hi⟩
  refine List.single_le_sum ?_ _ hmem
  intro v hv
  obtain ⟨j, -, rfl⟩ := List.mem_map.mp hv
  rw [List.getD_eq_getElem?_getD]
  cases hj : seqlenList[j]? with
  | none => exact le_rfl
  | some v => exact hnonneg v (List.mem_of_getElem? hj)

theorem exists_index_max (h : 1 ≤ seqlenList.length) :
    ∃ i, ∃ hi : i < seqlenList.length, ∀ v ∈ seqlenList, v ≤ seqlenList[i] := by
  obtain ⟨m, hm⟩ := Option.isSome_iff_exists.mp
    (List.isSome_max?_of_mem (List.getElem_mem (by omega : 0 < seqlenList.length)))
  obtain ⟨i, hi, rfl⟩ := List.mem_iff_getElem.mp (List.max?_mem hm)
  exact ⟨i, hi, fun v hv => (List.max?_le_iff hm).mp le_rfl v hv⟩

/-- The sum of a set is the load of its partition. -/
theorem HoldsItems.load_eq {s : KarmarkarState} (h : HoldsItems k d equalSize (indexed seqlenList) s)
    {t : ItemSet} (ht : t ∈ s.sets) : load seqlenList (t.items.map Prod.fst) = t.sum := by
  rw [(h.wellFormed t ht).sum_eq, load, List.map_map]
  congr 1
  refine List.map_congr_left fun item hitem => ?_
  have hmem : item ∈ indexed seqlenList := by
    refine (Multiset.coe_eq_coe.mp h.items_eq).mem_iff.mp ?_
    exact List.mem_flatten_of_mem (List.mem_map_of_mem ht) hitem
  rw [Function.comp_apply, List.getD_eq_getElem?_getD, mem_indexed.mp hmem, Option.getD_some]

/-- **The loads of two partitions differ by no more than single values do, and no load exceeds
the largest one of any other distribution by more than the factor `2 - 1 / k`.** -/
theorem getSeqlenBalancedPartitions_balanced (hnonneg : ∀ v ∈ seqlenList, 0 ≤ v)
    {partitions : List (List ℕ)}
    (h : getSeqlenBalancedPartitions seqlenList k equalSize = .ok partitions) :
    (∀ d, Bounds seqlenList equalSize d → ∀ p ∈ partitions, ∀ q ∈ partitions,
      load seqlenList p - load seqlenList q ≤ d) ∧
    ∀ other : List (List ℕ), other.length = k →
      other.flatten.Perm (List.range seqlenList.length) → ∀ p ∈ partitions, ∃ q ∈ other,
        k * load seqlenList p ≤ (2 * k - 1) * load seqlenList q := by
  obtain ⟨hk, hle, hdvd⟩ := numbers_of_eq_ok h
  have hwithin : ∀ d, Bounds seqlenList equalSize d →
      Within d (partitions.map (load seqlenList)) := by
    intro d hd
    obtain ⟨s, hholds, -, -, hs⟩ := getSeqlenBalancedPartitions_of_state hnonneg hk hle hdvd hd
    obtain rfl := Except.ok.inj (hs.symm.trans h)
    have hloads : (s.getPartitions.map fun p => p.insertionSort (· ≤ ·)).map (load seqlenList) =
        s.sets.map ItemSet.sum := by
      rw [KarmarkarState.getPartitions, List.map_map, List.map_map]
      refine List.map_congr_left fun t ht => ?_
      rw [← hholds.load_eq ht]
      exact load_perm (List.perm_insertionSort _ _)
    rw [hloads]
    exact hholds.within
  refine ⟨fun d hd p hp q hq => hwithin d hd _ (List.mem_map_of_mem hp) _
    (List.mem_map_of_mem hq), ?_⟩
  intro other hlen hother p hp
  have hparts := (getSeqlenBalancedPartitions_eq_ok hnonneg).1 partitions h
  obtain ⟨i, hi, hmax⟩ := exists_index_max (by omega : 1 ≤ seqlenList.length)
  have hbounds : Bounds seqlenList equalSize seqlenList[i] := by
    refine ⟨fun v hv w hw => ?_, fun _ => hmax⟩
    have := hmax v hv
    have := hnonneg w hw
    omega
  -- the largest value is in some partition of the other distribution
  have hbig : ∃ y ∈ other.map (load seqlenList), seqlenList[i] ≤ y := by
    obtain ⟨q, hq, hiq⟩ := List.mem_flatten.mp (hother.mem_iff.mpr (List.mem_range.mpr hi))
    exact ⟨_, List.mem_map_of_mem hq, le_load hnonneg hi hiq⟩
  have hsum : (other.map (load seqlenList)).sum = (partitions.map (load seqlenList)).sum := by
    rw [← load_flatten, ← load_flatten]
    exact load_perm (hother.trans hparts.perm.symm)
  obtain ⟨y, hy, hxy⟩ := (hwithin _ hbounds).mul_le_mul (List.mem_map_of_mem hp)
    (by simp [hlen, hparts.length_eq]) hsum hbig
  obtain ⟨q, hq, rfl⟩ := List.mem_map.mp hy
  rw [List.length_map, hparts.length_eq] at hxy
  exact ⟨q, hq, hxy⟩

theorem balanced_five : load [4, 5, 6, 7, 8] [0, 1, 3] - load [4, 5, 6, 7, 8] [2, 4] ≤ 8 ∧
    ∃ q ∈ [[4, 3], [0, 1, 2]], 2 * load [4, 5, 6, 7, 8] [0, 1, 3] ≤ 3 * load [4, 5, 6, 7, 8] q := by
  have h : getSeqlenBalancedPartitions [4, 5, 6, 7, 8] 2 false = .ok [[0, 1, 3], [2, 4]] := by
    decide +kernel
  have hbalanced := getSeqlenBalancedPartitions_balanced (by decide) h
  exact ⟨hbalanced.1 8 ⟨by decide, by decide⟩ _ (by simp) _ (by simp),
    hbalanced.2 [[4, 3], [0, 1, 2]] rfl (by decide) _ (by simp)⟩

end partitions

end ExtpiRlsd
