import Mathlib

/-! # Runs of consecutive entries

`HasWindow n P l`: some `n` consecutive entries of `l` have the property `P`.  A window survives
in every longer list (`HasWindow.mono`), a scan over the start positions finds it
(`any_range_iff`), and the windows of a filtered list are the filtered runs of the whole list
(`infix_filterMap_iff`).

An entry outside a pattern cuts every occurrence of the pattern (`infix_append_cons`). -/

namespace Windows

variable {α β : Type*}

/-- Some `n` consecutive entries have the property. -/
def HasWindow (n : ℕ) (P : List α → Prop) (l : List α) : Prop :=
  ∃ w, w <:+: l ∧ w.length = n ∧ P w

section windows
variable {n : ℕ} {P Q : List α → Prop} {l l' : List α}

/-- A window of a part is a window of the whole. -/
theorem HasWindow.mono (h : HasWindow n P l) (hl : l <:+: l') : HasWindow n P l' := by
  obtain ⟨w, hw, hlength, hP⟩ := h
  exact ⟨w, hw.trans hl, hlength, hP⟩

/-- A window either has a further property or lacks it. -/
theorem hasWindow_split (R : List α → Prop) : HasWindow n P l ↔
    HasWindow n (fun w => R w ∧ P w) l ∨ HasWindow n (fun w => ¬ R w ∧ P w) l := by
  constructor
  · rintro ⟨w, hw, hlength, hP⟩
    by_cases hR : R w
    · exact .inl ⟨w, hw, hlength, hR, hP⟩
    · exact .inr ⟨w, hw, hlength, hR, hP⟩
  · rintro (⟨w, hw, hlength, -, hP⟩ | ⟨w, hw, hlength, -, hP⟩)
    · exact ⟨w, hw, hlength, hP⟩
    · exact ⟨w, hw, hlength, hP⟩

theorem hasWindow_map (f : α → β) {P : List β → Prop} :
    HasWindow n P (l.map f) ↔ HasWindow n (fun w => P (w.map f)) l := by
  constructor
  · rintro ⟨w, ⟨pre, post, h⟩, hlength, hP⟩
    obtain ⟨front, back, rfl, hfront, rfl⟩ := List.map_eq_append_iff.mp h.symm
    obtain ⟨pre', w', rfl, rfl, rfl⟩ := List.map_eq_append_iff.mp hfront
    exact ⟨w', ⟨pre', back, rfl⟩, by simpa using hlength, hP⟩
  · rintro ⟨w, hw, hlength, hP⟩
    exact ⟨w.map f, hw.map f, by simpa using hlength, hP⟩

/-- A run of consecutive entries is cut out by its start and its length. -/
theorem infix_iff_exists_take_drop {w : List α} :
    w <:+: l ↔ ∃ i, i + w.length ≤ l.length ∧ (l.drop i).take w.length = w := by
  constructor
  · rintro ⟨pre, post, rfl⟩
    refine ⟨pre.length, ?_, ?_⟩
    · simp only [List.length_append]
      omega
    · rw [List.append_assoc, List.drop_left, List.take_left]
  · rintro ⟨i, -, h⟩
    rw [← h]
    exact (List.take_prefix _ _).isInfix.trans (List.drop_suffix _ _).isInfix

/-- The scan over all start positions of a long enough list. -/
theorem any_range_iff {p : List α → Bool} (hn : n ≤ l.length) :
    (List.range (l.length - n + 1)).any (fun i => p ((l.drop i).take n)) = true ↔
      HasWindow n (fun w => p w = true) l := by
  rw [List.any_eq_true]
  constructor
  · rintro ⟨i, hi, hp⟩
    rw [List.mem_range] at hi
    have hlength : ((l.drop i).take n).length = n := by
      rw [List.length_take, List.length_drop]
      omega
    refine ⟨(l.drop i).take n, ?_, hlength, hp⟩
    exact (List.take_prefix _ _).isInfix.trans (List.drop_suffix _ _).isInfix
  · rintro ⟨w, hw, rfl, hp⟩
    obtain ⟨i, hi, hcut⟩ := infix_iff_exists_take_drop.mp hw
    refine ⟨i, List.mem_range.mpr (by omega), ?_⟩
    rw [hcut]
    exact hp

theorem not_hasWindow_of_length_lt (h : l.length < n) : ¬ HasWindow n P l := by
  rintro ⟨w, hw, hlength, -⟩
  have := hw.length_le
  omega

end windows

/-! ### Filtered lists -/

/-- The runs of a filtered list are the filtered runs of the list. -/
theorem infix_filterMap_iff {f : α → Option β} {w : List β} {l : List α} :
    w <:+: l.filterMap f ↔ ∃ u, u <:+: l ∧ u.filterMap f = w := by
  constructor
  · rintro ⟨pre, post, h⟩
    obtain ⟨front, back, rfl, hfront, -⟩ := List.filterMap_eq_append_iff.mp h.symm
    obtain ⟨pre', u, rfl, -, hu⟩ := List.filterMap_eq_append_iff.mp hfront
    exact ⟨u, ⟨pre', back, rfl⟩, hu⟩
  · rintro ⟨u, ⟨pre, post, rfl⟩, rfl⟩
    exact ⟨pre.filterMap f, post.filterMap f, by simp [List.filterMap_append]⟩

theorem infix_filter_iff {p : α → Bool} {w l : List α} :
    w <:+: l.filter p ↔ ∃ u, u <:+: l ∧ u.filter p = w := by
  rw [← List.filterMap_eq_filter, infix_filterMap_iff]

/-! ### Occurrences beside a cut -/

/-- An entry outside the pattern cuts every occurrence of the pattern. -/
theorem infix_append_cons {p x y : List α} {a : α} (ha : a ∉ p) (h : p <:+: x ++ a :: y) :
    p <:+: x ∨ p <:+: y := by
  induction x with
  | nil =>
      rcases List.infix_cons_iff.mp h with h | h
      · cases p with
        | nil => exact .inl List.infix_rfl
        | cons b p =>
            obtain ⟨rfl, -⟩ := List.cons_prefix_cons.mp h
            exact absurd List.mem_cons_self ha
      · exact .inr h
  | cons b x ih =>
      rcases List.infix_cons_iff.mp h with h | h
      · rcases List.prefix_or_prefix_of_prefix h (List.prefix_append (b :: x) (a :: y)) with h' | h'
        · exact .inl h'.isInfix
        · obtain ⟨q, rfl⟩ := h'
          have hq : q <+: a :: y := (List.prefix_append_right_inj _).mp h
          cases q with
          | nil => exact .inl (by rw [List.append_nil])
          | cons d q =>
              obtain ⟨rfl, -⟩ := List.cons_prefix_cons.mp hq
              exact absurd (List.mem_append_right _ List.mem_cons_self) ha
      · rcases ih h with h | h
        · exact .inl (List.infix_cons h)
        · exact .inr h

/-- A run of one entry through a cut by another entry lies before or behind the cut. -/
theorem hasWindow_replicate_append_cons {n s : ℕ} {z a : α} {l : List α} (hs : s < n)
    (ha : a ≠ z) : HasWindow n (fun w => ∀ x ∈ w, x = z) (List.replicate s z ++ a :: l) ↔
      HasWindow n (fun w => ∀ x ∈ w, x = z) l := by
  constructor
  · rintro ⟨w, hw, hlength, hz⟩
    have hnot : a ∉ w := fun hmem => ha (hz a hmem)
    rcases infix_append_cons hnot hw with hw | hw
    · have := hw.length_le
      rw [List.length_replicate] at this
      omega
    · exact ⟨w, hw, hlength, hz⟩
  · intro h
    exact h.mono ((List.suffix_cons a l).isInfix.trans (List.suffix_append _ _).isInfix)

end Windows
