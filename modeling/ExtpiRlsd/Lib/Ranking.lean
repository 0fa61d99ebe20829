import Mathlib

/-! # The best entries of a stable sort

A stable sort by a preorder puts every entry at its rank: the number of entries that precede it,
those that are strictly before it in the order, and the equivalent ones that came earlier.
`mem_take_stableSort` reads the first `k` entries of the sorted list off the ranks, without
sorting. -/

namespace Ranking

variable {α : Type*}

/-! ### Ordered lists -/

section ordered
variable {r : α → α → Bool} {l : List α}

/-- In a list ordered by an asymmetric relation the entries among the first `k` are those with
fewer than `k` entries before them. -/
theorem mem_take_iff_countP_lt (hpair : l.Pairwise fun a b => r a b = true)
    (hasymm : ∀ a b, r a b = true → r b a = false) {k : ℕ} {x : α} (hx : x ∈ l) :
    x ∈ l.take k ↔ l.countP (fun y => r y x) < k := by
  induction l generalizing k with
  | nil => cases hx
  | cons a l ih =>
      obtain ⟨hfirst, hrest⟩ := List.pairwise_cons.mp hpair
      cases k with
      | zero =>
          constructor
          · intro h
            cases h
          · intro h
            exact absurd h (Nat.not_lt_zero _)
      | succ k =>
          rw [List.take_succ_cons, List.mem_cons, List.countP_cons]
          rcases List.mem_cons.mp hx with rfl | hx
          · -- the head has nobody before it
            have hself : r x x = false := by
              by_contra h
              rw [Bool.not_eq_false] at h
              exact Bool.false_ne_true ((hasymm x x h).symm.trans h)
            have hnone : l.countP (fun y => r y x) = 0 := by
              rw [List.countP_eq_zero]
              intro y hy hyx
              rw [hasymm x y (hfirst y hy)] at hyx
              exact Bool.false_ne_true hyx
            rw [hnone, hself]
            simp
          · have hax := hfirst x hx
            have hne : x ≠ a := by
              rintro rfl
              exact Bool.false_ne_true ((hasymm x x hax).symm.trans hax)
            rw [or_iff_right hne, ih hrest hx, hax, if_pos rfl]
            omega

end ordered

/-! ### Stable sorts -/

variable (le : α → α → Bool)

/-- Entry `a` with its position stands before entry `b` with its position. -/
def precedes (a b : α × ℕ) : Bool := le a.1 b.1 && (!le b.1 a.1 || decide (a.2 < b.2))

/-- The number of entries that precede an entry of the list. -/
def rank (l : List α) (x : α × ℕ) : ℕ := l.zipIdx.countP fun y => precedes le y x

variable {le}

theorem precedes_asymm (a b : α × ℕ) (h : precedes le a b = true) : precedes le b a = false := by
  simp only [precedes, Bool.and_eq_true, Bool.or_eq_true, Bool.not_eq_true', decide_eq_true_eq] at h
  obtain ⟨hab, hba | hlt⟩ := h
  · simp [precedes, hba]
  · have hnot : ¬ b.2 < a.2 := by omega
    simp [precedes, hab, hnot]

theorem precedes_of_zipIdxLE {a b : α × ℕ} (h : List.zipIdxLE le a b = true) (hne : a.2 ≠ b.2) :
    precedes le a b = true := by
  rw [List.zipIdxLE] at h
  by_cases hab : le a.1 b.1 = true
  · rw [if_pos hab] at h
    by_cases hba : le b.1 a.1 = true
    · rw [if_pos hba, decide_eq_true_iff] at h
      have hlt : a.2 < b.2 := by omega
      simp [precedes, hab, hlt]
    · simp [precedes, hab, hba]
  · rw [if_neg hab] at h
    cases h

/-- The list sorted together with the positions. -/
def sortedIdx (le : α → α → Bool) (l : List α) : List (α × ℕ) :=
  l.zipIdx.mergeSort (List.zipIdxLE le)

theorem map_fst_sortedIdx (l : List α) : (sortedIdx le l).map Prod.fst = l.mergeSort le :=
  List.mergeSort_zipIdx

theorem sortedIdx_perm (l : List α) : (sortedIdx le l).Perm l.zipIdx := List.mergeSort_perm _ _

theorem nodup_zipIdx_snd (l : List α) : (l.zipIdx.map Prod.snd).Nodup := by
  rw [List.zipIdx_map_snd]
  exact List.nodup_range'

/-- The sorted entries stand in the order of their precedence. -/
theorem pairwise_sortedIdx (htrans : ∀ a b c, le a b = true → le b c = true → le a c = true)
    (htotal : ∀ a b, (le a b || le b a) = true) (l : List α) :
    (sortedIdx le l).Pairwise fun a b => precedes le a b = true := by
  have hsorted : (sortedIdx le l).Pairwise fun a b => List.zipIdxLE le a b = true :=
    List.pairwise_mergeSort (List.zipIdxLE_trans htrans) (List.zipIdxLE_total htotal) _
  have hnodup : ((sortedIdx le l).map Prod.snd).Nodup :=
    ((sortedIdx_perm l).map Prod.snd).nodup_iff.mpr (nodup_zipIdx_snd l)
  rw [List.Nodup, List.pairwise_map] at hnodup
  exact (hsorted.and hnodup).imp fun h => precedes_of_zipIdxLE h.1 h.2

/-- **The first `k` entries of a stable sort** are those of a rank below `k`. -/
theorem mem_take_sortedIdx (htrans : ∀ a b c, le a b = true → le b c = true → le a c = true)
    (htotal : ∀ a b, (le a b || le b a) = true) (l : List α) {k : ℕ} {x : α × ℕ} :
    x ∈ (sortedIdx le l).take k ↔ x ∈ l.zipIdx ∧ rank le l x < k := by
  have hpair := pairwise_sortedIdx htrans htotal l
  constructor
  · intro h
    have hmem := List.mem_of_mem_take h
    rw [mem_take_iff_countP_lt hpair precedes_asymm hmem, (sortedIdx_perm l).countP_eq] at h
    exact ⟨(sortedIdx_perm l).mem_iff.mp hmem, h⟩
  · rintro ⟨hmem, hrank⟩
    rw [mem_take_iff_countP_lt hpair precedes_asymm ((sortedIdx_perm l).mem_iff.mpr hmem),
      (sortedIdx_perm l).countP_eq]
    exact hrank

/-- **Different groups at the top.**  The first `k` entries of a stable sort have different
images exactly when no two entries with one image have ranks below `k`. -/
theorem nodup_map_take_mergeSort {β : Type*} (f : α → β)
    (htrans : ∀ a b c, le a b = true → le b c = true → le a c = true)
    (htotal : ∀ a b, (le a b || le b a) = true) (l : List α) (k : ℕ) :
    (((l.mergeSort le).take k).map f).Nodup ↔
      ∀ a ∈ l.zipIdx, ∀ b ∈ l.zipIdx, a.2 ≠ b.2 → rank le l a < k → rank le l b < k →
        f a.1 ≠ f b.1 := by
  have hnodup : (((sortedIdx le l).take k).map Prod.snd).Nodup := by
    rw [List.map_take]
    apply List.Nodup.sublist (List.take_sublist _ _)
    exact ((sortedIdx_perm l).map Prod.snd).nodup_iff.mpr (nodup_zipIdx_snd l)
  have htake : ((l.mergeSort le).take k).map f =
      ((sortedIdx le l).take k).map fun a => f a.1 := by
    rw [← map_fst_sortedIdx, ← List.map_take, List.map_map]
    rfl
  rw [htake]
  constructor
  · intro h a ha b hb hne hrankA hrankB heq
    apply hne
    have hA := (mem_take_sortedIdx htrans htotal l).mpr ⟨ha, hrankA⟩
    have hB := (mem_take_sortedIdx htrans htotal l).mpr ⟨hb, hrankB⟩
    rw [List.inj_on_of_nodup_map h hA hB heq]
  · intro h
    apply List.Nodup.map_on _ (List.Nodup.of_map _ hnodup)
    intro a ha b hb heq
    obtain ⟨hmemA, hrankA⟩ := (mem_take_sortedIdx htrans htotal l).mp ha
    obtain ⟨hmemB, hrankB⟩ := (mem_take_sortedIdx htrans htotal l).mp hb
    by_contra hne
    apply h a hmemA b hmemB _ hrankA hrankB heq
    intro hidx
    exact hne (List.inj_on_of_nodup_map hnodup ha hb hidx)

/-- What a stable sort leaves out is not strictly before what it keeps. -/
theorem le_of_not_mem_take_mergeSort
    (htrans : ∀ a b c, le a b = true → le b c = true → le a c = true)
    (htotal : ∀ a b, (le a b || le b a) = true) {l : List α} {k : ℕ} {x y : α}
    (hx : x ∈ (l.mergeSort le).take k) (hy : y ∈ l) (hnot : y ∉ (l.mergeSort le).take k) :
    le x y = true := by
  have hsorted := List.pairwise_mergeSort htrans htotal l
  rw [← List.take_append_drop k (l.mergeSort le), List.pairwise_append] at hsorted
  apply hsorted.2.2 x hx y
  have hmem : y ∈ l.mergeSort le := List.mem_mergeSort.mpr hy
  rw [← List.take_append_drop k (l.mergeSort le), List.mem_append] at hmem
  exact hmem.resolve_left hnot

end Ranking
