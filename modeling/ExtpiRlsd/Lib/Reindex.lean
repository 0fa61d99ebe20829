import Mathlib

/-! # Rows selected by index

A list of rows is cut into runs of one length (`runs`), or its rows are selected by a list of
indices (`gather?`).  Rows that were selected by a permutation of the indices are put back by its
inverse (`gather?_inverse`), and so are rows that were computed from them
(`exists_gather?_restored`). -/

namespace Reindex

variable {α β : Type*}

/-! ### Runs of one length -/

/-- The runs of `k` entries that start at the first `n` multiples of `k`. -/
def runs (n k : ℕ) (xs : List α) : List (List α) :=
  (List.range n).map fun j => (xs.drop (j * k)).take k

section runs
variable {n k : ℕ} {xs : List α}

@[simp] theorem length_runs (n k : ℕ) (xs : List α) : (runs n k xs).length = n := by simp [runs]

theorem length_of_mem_runs (hlen : xs.length = n * k) {r : List α} (hr : r ∈ runs n k xs) :
    r.length = k := by
  obtain ⟨j, hj, rfl⟩ := List.mem_map.mp hr
  have hle : (j + 1) * k ≤ n * k := Nat.mul_le_mul_right k (List.mem_range.mp hj)
  rw [Nat.succ_mul] at hle
  rw [List.length_take, List.length_drop]
  omega

theorem runs_succ (n k : ℕ) (xs : List α) :
    runs (n + 1) k xs = xs.take k :: runs n k (xs.drop k) := by
  rw [runs, List.range_succ_eq_map, List.map_cons, List.map_map]
  congr 1
  · simp
  · refine List.map_congr_left fun j _ => ?_
    simp only [Function.comp_apply, List.drop_drop]
    congr 2
    rw [Nat.succ_mul, Nat.add_comm]

theorem flatten_runs : ∀ {n : ℕ} {xs : List α}, xs.length = n * k → (runs n k xs).flatten = xs
  | 0, xs, hlen => by
      rw [Nat.zero_mul] at hlen
      rw [List.length_eq_zero_iff.mp hlen]
      rfl
  | n + 1, xs, hlen => by
      rw [Nat.succ_mul] at hlen
      rw [runs_succ, List.flatten_cons, flatten_runs (by rw [List.length_drop]; omega),
        List.take_append_drop]

theorem flatten_runs_of_dvd (h : n ∣ xs.length) : (runs n (xs.length / n) xs).flatten = xs :=
  flatten_runs (Nat.mul_div_cancel' h).symm

theorem length_of_mem_runs_of_dvd (h : n ∣ xs.length) {r : List α}
    (hr : r ∈ runs n (xs.length / n) xs) : r.length = xs.length / n :=
  length_of_mem_runs (Nat.mul_div_cancel' h).symm hr

/-- A list put together from runs of one length is cut into them again. -/
theorem runs_flatten {rs : List (List α)} (h : ∀ r ∈ rs, r.length = k) :
    runs rs.length k rs.flatten = rs := by
  induction rs with
  | nil => rfl
  | cons r rs ih =>
      have hr := h r List.mem_cons_self
      rw [List.length_cons, runs_succ, List.flatten_cons, List.take_left' hr,
        List.drop_left' hr, ih fun s hs => h s (List.mem_cons_of_mem _ hs)]

end runs

/-! ### Selected rows -/

/-- The entries at the indices, in their order; `none` when an index is outside the list. -/
def gather? (xs : List α) (idxs : List ℕ) : Option (List α) := idxs.mapM fun i => xs[i]?

section gather
variable {xs ys : List α} {idxs rev : List ℕ}

theorem gather?_eq_some_iff :
    gather? xs idxs = some ys ↔ List.Forall₂ (fun i y => xs[i]? = some y) idxs ys := by
  rw [gather?]
  induction idxs generalizing ys with
  | nil =>
      rw [List.mapM_nil, List.forall₂_nil_left_iff]
      exact ⟨fun h => (Option.some.inj h).symm, fun h => h ▸ rfl⟩
  | cons i idxs ih =>
      rw [List.mapM_cons, List.forall₂_cons_left_iff]
      constructor
      · intro h
        obtain ⟨y, hy, h⟩ := Option.bind_eq_some_iff.mp h
        obtain ⟨zs, hzs, h⟩ := Option.bind_eq_some_iff.mp h
        obtain rfl := Option.some.inj h
        exact ⟨y, zs, hy, ih.mp hzs, rfl⟩
      · rintro ⟨y, zs, hy, hzs, rfl⟩
        rw [hy, ih.mpr hzs]
        rfl

theorem exists_gather? (h : ∀ i ∈ idxs, i < xs.length) : ∃ ys, gather? xs idxs = some ys := by
  induction idxs with
  | nil => exact ⟨[], rfl⟩
  | cons i idxs ih =>
      obtain ⟨ys, hys⟩ := ih fun j hj => h j (List.mem_cons_of_mem _ hj)
      have hi := List.getElem?_eq_getElem (h i List.mem_cons_self)
      exact ⟨_, gather?_eq_some_iff.mpr (.cons hi (gather?_eq_some_iff.mp hys))⟩

theorem getElem?_gather? (h : gather? xs idxs = some ys) (i : ℕ) :
    ys[i]? = idxs[i]?.bind fun j => xs[j]? := by
  rw [gather?_eq_some_iff] at h
  induction h generalizing i with
  | nil => rfl
  | cons hx _ ih => cases i with
    | zero => exact hx.symm
    | succ i => exact ih i

/-- All indices in their order select the whole list. -/
theorem gather?_range (xs : List α) : gather? xs (List.range xs.length) = some xs :=
  gather?_eq_some_iff.mpr (List.forall₂_iff_get.mpr ⟨List.length_range, fun i hi hi' => by simp⟩)

/-- Rows selected by a permutation of the indices are the rows in another order. -/
theorem gather?_perm (hperm : idxs.Perm (List.range xs.length)) (h : gather? xs idxs = some ys) :
    ys.Perm xs := by
  have hmap : ∀ {idxs ys : List _}, gather? xs idxs = some ys →
      idxs.map (fun i => xs[i]?) = ys.map some := by
    intro idxs ys h
    induction gather?_eq_some_iff.mp h with
    | nil => rfl
    | cons hi hrest ih => rw [List.map_cons, List.map_cons, hi, ih (gather?_eq_some_iff.mpr hrest)]
  refine (List.map_perm_map_iff (Option.some_injective α)).mp ?_
  rw [← hmap h, ← hmap (gather?_range xs)]
  exact hperm.map _

/-- Rows in another order are selected by a permutation of the indices. -/
theorem exists_gather?_of_perm (h : ys.Perm xs) :
    ∃ idxs, idxs.Perm (List.range xs.length) ∧ gather? xs idxs = some ys := by
  have hcomp : Relation.Comp (List.Forall₂ fun i y => xs[i]? = some y) List.Perm
      (List.range xs.length) ys := ⟨xs, gather?_eq_some_iff.mp (gather?_range xs), h.symm⟩
  rw [List.forall₂_comp_perm_eq_perm_comp_forall₂] at hcomp
  obtain ⟨idxs, hperm, hidxs⟩ := hcomp
  exact ⟨idxs, hperm.symm, gather?_eq_some_iff.mpr hidxs⟩

/-- Rows that lie in several lists are selected list by list. -/
theorem exists_gather?_parts {yss : List (List α)} (h : gather? xs idxs = some yss.flatten) :
    ∃ parts, parts.flatten = idxs ∧
      List.Forall₂ (fun p ys => gather? xs p = some ys) parts yss := by
  rw [gather?_eq_some_iff] at h
  induction yss generalizing idxs with
  | nil => exact ⟨[], (List.forall₂_nil_right_iff.mp h).symm, .nil⟩
  | cons ys yss ih =>
      rw [List.flatten_cons] at h
      have hfirst := List.forall₂_take_append idxs ys yss.flatten h
      obtain ⟨parts, hparts, hall⟩ := ih (List.forall₂_drop_append idxs ys yss.flatten h)
      refine ⟨idxs.take ys.length :: parts, ?_, .cons (gather?_eq_some_iff.mpr hfirst) hall⟩
      rw [List.flatten_cons, hparts, List.take_append_drop]

/-- Selected rows in several lists, put behind each other. -/
theorem gather?_flatten {parts : List (List ℕ)} {yss : List (List α)}
    (h : List.Forall₂ (fun p ys => gather? xs p = some ys) parts yss) :
    gather? xs parts.flatten = some yss.flatten := by
  induction h with
  | nil => rfl
  | cons hp _ ih =>
      rw [gather?_eq_some_iff] at hp ih ⊢
      exact List.rel_append hp ih

/-- Entries related to the rows are related to the selected rows when they are selected alike. -/
theorem exists_gather?_related {R : α → β → Prop} {zs : List β} (hrel : List.Forall₂ R xs zs)
    (h : gather? xs idxs = some ys) :
    ∃ zs', gather? zs idxs = some zs' ∧ List.Forall₂ R ys zs' := by
  rw [gather?_eq_some_iff] at h
  induction h with
  | nil => exact ⟨[], rfl, .nil⟩
  | @cons i y idxs ys hi _ ih =>
      obtain ⟨zs', hzs', hR⟩ := ih
      obtain ⟨hlt, rfl⟩ := List.getElem?_eq_some_iff.mp hi
      have hlt' : i < zs.length := hrel.length_eq ▸ hlt
      exact ⟨zs[i] :: zs', gather?_eq_some_iff.mpr
        (.cons (List.getElem?_eq_getElem hlt') (gather?_eq_some_iff.mp hzs')),
        .cons (List.forall₂_iff_get.mp hrel |>.2 i hlt hlt') hR⟩

/-- `rev` holds at every index the place at which `idxs` holds it. -/
def IsInverse (idxs rev : List ℕ) : Prop :=
  rev.length = idxs.length ∧ ∀ i j : ℕ, idxs[i]? = some j → rev[j]? = some i

/-- **The inverse of the indices puts the selected rows back.** -/
theorem gather?_inverse (hperm : idxs.Perm (List.range xs.length)) (hrev : IsInverse idxs rev)
    (h : gather? xs idxs = some ys) : gather? ys rev = some xs := by
  have hlen : rev.length = xs.length := by
    rw [hrev.1, hperm.length_eq, List.length_range]
  refine gather?_eq_some_iff.mpr (List.forall₂_iff_get.mpr ⟨hlen, fun j hj hj' => ?_⟩)
  obtain ⟨i, hi, hij⟩ := List.mem_iff_getElem.mp (hperm.mem_iff.mpr (List.mem_range.mpr hj'))
  have hidx : idxs[i]? = some j := List.getElem?_eq_some_iff.mpr ⟨hi, hij⟩
  have hval := hrev.2 i j hidx
  rw [List.getElem?_eq_getElem hj, Option.some_inj] at hval
  rw [List.get_eq_getElem, hval, getElem?_gather? h, hidx]
  exact List.getElem?_eq_getElem hj'

/-- **Rows computed from rows selected in several lists are put back beside the rows they were
computed from.** -/
theorem exists_gather?_restored {R : α → β → Prop} {parts : List (List ℕ)}
    (hperm : parts.flatten.Perm (List.range xs.length)) (hrev : IsInverse parts.flatten rev)
    {xss : List (List α)} (hxss : List.Forall₂ (fun p ys => gather? xs p = some ys) parts xss)
    {zss : List (List β)} (hzss : List.Forall₂ (List.Forall₂ R) xss zss) :
    ∃ zs, gather? zss.flatten rev = some zs ∧ List.Forall₂ R xs zs :=
  exists_gather?_related (List.rel_flatten hzss)
    (gather?_inverse hperm hrev (gather?_flatten hxss))

end gather

end Reindex
