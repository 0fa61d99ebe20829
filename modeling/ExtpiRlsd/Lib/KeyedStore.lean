import Mathlib

/-! # A list as a keyed store

`upsert` puts a row at the end of a list and removes the rows with its key.  After a sequence of
upserts the rows with a key are the last row that was put with it (`filter_foldl_upsert`), and one
upsert changes no row with another key (`filter_upsert_of_ne`). -/

namespace KeyedStore

variable {ρ κ : Type*} [DecidableEq κ] (key : ρ → κ)

/-- Put a row in place of the rows with its key. -/
def upsert (rows : List ρ) (row : ρ) : List ρ :=
  rows.filter (fun old => decide (key old ≠ key row)) ++ [row]

/-- The rows with a key. -/
def rowsWith (k : κ) (rows : List ρ) : List ρ := rows.filter fun row => decide (key row = k)

/-- The last row with a key. -/
def lastWith (k : κ) (rows : List ρ) : Option ρ := (rowsWith key k rows).getLast?

variable {key}

theorem rowsWith_append_of_ne {k : κ} {row : ρ} (h : k ≠ key row) (rows : List ρ) :
    rowsWith key k (rows ++ [row]) = rowsWith key k rows := by
  have hrow : rowsWith key k [row] = [] := by
    apply List.filter_eq_nil_iff.mpr
    intro r hr
    rw [List.mem_singleton.mp hr, decide_eq_true_iff]
    exact fun heq => h heq.symm
  unfold rowsWith at hrow ⊢
  rw [List.filter_append, hrow, List.append_nil]

/-- The row is the only one with its key. -/
theorem filter_upsert_self (rows : List ρ) (row : ρ) :
    rowsWith key (key row) (upsert key rows row) = [row] := by
  have hold : (rows.filter fun old => decide (key old ≠ key row)).filter
      (fun old => decide (key old = key row)) = [] := by
    apply List.filter_eq_nil_iff.mpr
    intro old hold
    have hne := (List.mem_filter.mp hold).2
    rw [decide_eq_true_iff] at hne ⊢
    exact hne
  rw [rowsWith, upsert, List.filter_append, hold]
  simp

/-- The frame rule: rows with other keys stay, in their order. -/
theorem filter_upsert_of_ne {k : κ} {row : ρ} (h : k ≠ key row) (rows : List ρ) :
    rowsWith key k (upsert key rows row) = rowsWith key k rows := by
  rw [upsert, rowsWith_append_of_ne h, rowsWith, List.filter_filter, rowsWith]
  apply List.filter_congr
  intro old _
  by_cases hold : key old = k
  · have hne : key old ≠ key row := hold ▸ h
    rw [decide_eq_true hold, decide_eq_true hne, Bool.and_self]
  · rw [decide_eq_false hold, Bool.false_and]

/-- What a store holds after some upserts: for every key the last row put with it. -/
theorem filter_foldl_upsert (k : κ) (rows : List ρ) :
    rowsWith key k (rows.foldl (upsert key) []) = (lastWith key k rows).toList := by
  induction rows using List.reverseRecOn with
  | nil => rfl
  | append_singleton rows row ih =>
      rw [List.foldl_append, List.foldl_cons, List.foldl_nil]
      unfold lastWith at ih ⊢
      by_cases h : k = key row
      · subst h
        rw [filter_upsert_self, rowsWith, List.filter_append]
        simp
      · rw [filter_upsert_of_ne h, ih, rowsWith_append_of_ne h]

/-- A store holds only rows that were put into it. -/
theorem mem_of_mem_foldl_upsert {rows : List ρ} {row : ρ}
    (h : row ∈ rows.foldl (upsert key) []) : row ∈ rows := by
  induction rows using List.reverseRecOn with
  | nil => exact h
  | append_singleton rows last ih =>
      rw [List.foldl_append, List.foldl_cons, List.foldl_nil, upsert, List.mem_append] at h
      rcases h with h | h
      · exact List.mem_append_left _ (ih (List.mem_filter.mp h).1)
      · exact List.mem_append_right _ h

end KeyedStore
