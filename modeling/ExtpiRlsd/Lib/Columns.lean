import ExtpiRlsd.Lib.Checked
import ExtpiRlsd.Lib.Reindex

/-! # Columns of a table, and passes over a list

Parties that hold rows of one length and move in step take the columns of the table of their rows
(`columns`); the columns hold what the rows hold (`columns_perm`).

When every party visits its share of a list in parts of one size, what the parties visit at one
time is a part of the whole list, and the parts of a pass hold the list (`Passes.of_columns`). -/

namespace Columns

open Checked Reindex

variable {α : Type*} {rows : List (List α)} {k : ℕ}

/-- The columns of a table of rows, as many as the first row has entries. -/
def columns (rows : List (List α)) : List (List α) :=
  (List.range (rows.headD []).length).map fun j => rows.filterMap (·[j]?)

theorem length_headD (hrect : ∀ r ∈ rows, r.length = k) (hne : rows ≠ []) :
    (rows.headD []).length = k := by
  cases rows with
  | nil => exact absurd rfl hne
  | cons r rows => exact hrect r List.mem_cons_self

theorem length_columns (hrect : ∀ r ∈ rows, r.length = k) (hne : rows ≠ []) :
    (columns rows).length = k := by
  rw [columns, List.length_map, List.length_range, length_headD hrect hne]

/-- A column has one entry of every row. -/
theorem forall₂_of_mem_columns (hrect : ∀ r ∈ rows, r.length = k) (hne : rows ≠ []) {c : List α}
    (hc : c ∈ columns rows) : List.Forall₂ (fun r x => x ∈ r) rows c := by
  obtain ⟨j, hj, rfl⟩ := List.mem_map.mp hc
  rw [List.mem_range, length_headD hrect hne] at hj
  clear hne hc
  induction rows with
  | nil => exact .nil
  | cons r rows ih =>
      have hlt : j < r.length := by rwa [hrect r List.mem_cons_self]
      rw [List.filterMap_cons, List.getElem?_eq_getElem hlt]
      exact .cons (List.getElem_mem hlt) (ih fun s hs => hrect s (List.mem_cons_of_mem _ hs))

theorem flatMap_range_getElem? (r : List α) :
    ((List.range r.length).flatMap fun j => r[j]?.toList) = r := by
  induction r with
  | nil => rfl
  | cons x r ih =>
      rw [List.length_cons, List.range_succ_eq_map, List.flatMap_cons, List.flatMap_map]
      exact congrArg (x :: ·) ih

/-- **The columns hold what the rows hold.** -/
theorem columns_perm (hrect : ∀ r ∈ rows, r.length = k) (hne : rows ≠ []) :
    (columns rows).flatten.Perm rows.flatten := by
  have hcolumns : (columns rows).flatten =
      (List.range k).flatMap fun j => rows.flatMap fun r => r[j]?.toList := by
    rw [columns, length_headD hrect hne, ← List.flatMap_def]
    refine congrArg (fun f => List.flatMap f (List.range k)) (funext fun j => ?_)
    exact List.filterMap_eq_flatMap_toList _ _
  have hrows : rows.flatten = rows.flatMap fun r => (List.range k).flatMap fun j => r[j]?.toList := by
    rw [List.flatMap_def]
    refine congrArg List.flatten ?_
    conv_lhs => rw [← List.map_id rows]
    refine List.map_congr_left fun r hr => ?_
    rw [← hrect r hr, flatMap_range_getElem?, id]
  rw [hcolumns, hrows]
  exact flatMap_comm_perm _ _ _

/-! ### Passes over a list -/

/-- Parts of one size that visit every entry of a list once a pass. -/
structure Passes (xs : List α) (size passes : ℕ) (parts : List (List α)) : Prop where
  size_eq : ∀ part ∈ parts, part.length = size
  exists_passes : ∃ ps : List (List (List α)), ps.length = passes ∧ ps.flatten = parts ∧
    ∀ p ∈ ps, p.flatten.Perm xs

theorem Passes.mem {xs : List α} {size passes : ℕ} {parts : List (List α)}
    (h : Passes xs size passes parts) {part : List α} (hpart : part ∈ parts) {x : α}
    (hx : x ∈ part) : x ∈ xs := by
  obtain ⟨ps, -, rfl, hperm⟩ := h.exists_passes
  obtain ⟨p, hp, hpart⟩ := List.mem_flatten.mp hpart
  exact (hperm p hp).mem_iff.mp (List.mem_flatten_of_mem hpart hx)

/-- Parts of shares hold what the shares hold. -/
theorem flatten_perm {shares : List (List α)} {split : List (List (List α))}
    (h : List.Forall₂ (fun share parts => parts.flatten.Perm share) shares split) :
    split.flatten.flatten.Perm shares.flatten := by
  induction h with
  | nil => exact List.Perm.refl _
  | cons h _ ih =>
      rw [List.flatten_cons, List.flatten_append, List.flatten_cons]
      exact h.append ih

/-- One pass of the parties: what they visit at one time, put together. -/
theorem columns_pass {shares : List (List α)} {visits : List (List (List α))}
    (hvisits : List.Forall₂ (fun share parts => parts.length = k ∧ parts.flatten.Perm share)
      shares visits) (hne : visits ≠ []) :
    ((columns visits).map List.flatten).flatten.Perm shares.flatten := by
  have hrect : ∀ v ∈ visits, v.length = k := by
    intro v hv
    obtain ⟨_, -, h⟩ := exists_of_forall₂ hvisits.flip hv
    exact h.1
  rw [← List.flatten_flatten]
  exact (columns_perm hrect hne).flatten.trans (flatten_perm (hvisits.imp fun _ _ h => h.2))

section parties
variable {shares : List (List α)} {visits : List (List (List (List α)))} {size passes : ℕ}

/-- Parties that visit their shares in parts of one size, `k` parts a pass. -/
def Visits (shares : List (List α)) (k size passes : ℕ) (visits : List (List (List (List α)))) :
    Prop :=
  List.Forall₂ (fun share party => party.length = passes ∧ ∀ pass ∈ party,
    pass.length = k ∧ pass.flatten.Perm share ∧ ∀ part ∈ pass, part.length = size) shares visits

theorem Visits.length_eq (h : Visits shares k size passes visits) :
    ∀ v ∈ visits, v.length = passes := by
  intro v hv
  obtain ⟨_, -, hparty⟩ := exists_of_forall₂ h.flip hv
  exact hparty.1

/-- What the parties do in one pass. -/
theorem Visits.pass (h : Visits shares k size passes visits) (hne : visits ≠ [])
    {c : List (List (List α))} (hc : c ∈ columns visits) : c ≠ [] ∧ List.Forall₂ (fun share pass =>
      pass.length = k ∧ pass.flatten.Perm share ∧ ∀ part ∈ pass, part.length = size) shares c := by
  have hmem := forall₂_of_mem_columns h.length_eq hne hc
  refine ⟨?_, ?_⟩
  · rintro rfl
    exact hne (List.forall₂_nil_right_iff.mp hmem)
  · clear hc hne
    induction h generalizing c with
    | nil =>
        cases hmem
        exact .nil
    | cons hparty _ ih =>
        cases hmem with
        | cons hx hrest => exact .cons (hparty.2 _ hx) (ih hrest)

/-- What the parties visit at one time: a part of every share. -/
theorem Visits.step (h : Visits shares k size passes visits) (hne : visits ≠ [])
    {parts : List (List α)} (hparts : parts ∈ (columns visits).flatMap columns) :
    parts.length = shares.length ∧ ∀ part ∈ parts, part.length = size := by
  obtain ⟨c, hc, hparts⟩ := List.mem_flatMap.mp hparts
  obtain ⟨hcne, hpass⟩ := h.pass hne hc
  have hrect : ∀ pass ∈ c, pass.length = k := by
    intro pass hp
    obtain ⟨_, -, hp⟩ := exists_of_forall₂ hpass.flip hp
    exact hp.1
  have hmem := forall₂_of_mem_columns hrect hcne hparts
  refine ⟨hmem.length_eq.symm.trans hpass.length_eq.symm, fun part hpart => ?_⟩
  obtain ⟨pass, hp, hpart⟩ := exists_of_forall₂ hmem.flip hpart
  obtain ⟨_, -, hp⟩ := exists_of_forall₂ hpass.flip hp
  exact hp.2.2 part hpart

/-- **Parties that visit their shares in parts of one size visit the whole list together.** -/
theorem Passes.of_columns (h : Visits shares k size passes visits) (hne : visits ≠ []) :
    Passes shares.flatten (shares.length * size) passes
      (((columns visits).flatMap columns).map List.flatten) := by
  refine ⟨fun part hpart => ?_, (columns visits).map fun c => (columns c).map List.flatten, ?_, ?_, ?_⟩
  · obtain ⟨parts, hparts, rfl⟩ := List.mem_map.mp hpart
    obtain ⟨hlen, hsize⟩ := h.step hne hparts
    rw [List.length_flatten, List.map_congr_left hsize, List.map_const', List.sum_replicate, hlen,
      smul_eq_mul]
  · rw [List.length_map, length_columns h.length_eq hne]
  · rw [List.flatMap_def, List.map_flatten, List.map_map]
    rfl
  · intro p hp
    obtain ⟨c, hc, rfl⟩ := List.mem_map.mp hp
    obtain ⟨hcne, hpass⟩ := h.pass hne hc
    exact columns_pass (hpass.imp fun _ _ hp => ⟨hp.1, hp.2.1⟩) hcne

end parties

end Columns
