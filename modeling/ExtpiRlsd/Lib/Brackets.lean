import Mathlib

/-! # Brackets in a list

A list in which one entry opens and another closes a bracket.  `Balanced` lists never close more
brackets than they opened and close them all; `depthFrom` is the counter a scanner keeps, and
`depthFrom_zero_iff` relates the two. -/

namespace Brackets

variable {α : Type*} [DecidableEq α]

/-- No prefix closes more brackets than it opens, and the whole list closes all of them. -/
structure Balanced (o c : α) (s : List α) : Prop where
  nested : ∀ p, p <+: s → p.count c ≤ p.count o
  closed : s.count c = s.count o

/-- The number of open brackets behind the list, unless a bracket is closed that is not open. -/
def depthFrom (o c : α) (depth : ℕ) : List α → Option ℕ
  | [] => some depth
  | x :: s =>
      if x = o then depthFrom o c (depth + 1) s
      else if x = c then
        if depth = 0 then none else depthFrom o c (depth - 1) s
      else depthFrom o c depth s

section depth
variable {o c : α}

omit [DecidableEq α] in
/-- The prefixes of a list with a head are the empty one and those with that head. -/
theorem forall_prefix_cons {P : List α → Prop} {x : α} {s : List α} :
    (∀ p, p <+: x :: s → P p) ↔ P [] ∧ ∀ p, p <+: s → P (x :: p) := by
  constructor
  · intro h
    refine ⟨h [] List.nil_prefix, ?_⟩
    intro p hp
    exact h (x :: p) (List.cons_prefix_cons.mpr ⟨rfl, hp⟩)
  · rintro ⟨hnil, hcons⟩ p hp
    cases p with
    | nil => exact hnil
    | cons y p =>
        obtain ⟨rfl, hp'⟩ := List.cons_prefix_cons.mp hp
        exact hcons p hp'

/-- The counter is the number of opened brackets less the closed ones, as long as no prefix
closes too many. -/
theorem depthFrom_eq_some_iff (hoc : o ≠ c) {depth k : ℕ} {s : List α} :
    depthFrom o c depth s = some k ↔
      (∀ p, p <+: s → p.count c ≤ depth + p.count o) ∧ depth + s.count o = k + s.count c := by
  induction s generalizing depth with
  | nil => simp [depthFrom]
  | cons x s ih =>
      have hnil : ([] : List α).count c ≤ depth + ([] : List α).count o := Nat.zero_le _
      rw [forall_prefix_cons, and_iff_right hnil]
      by_cases ho : x = o
      · subst ho
        rw [depthFrom, if_pos rfl, ih]
        simp only [List.count_cons_self, List.count_cons_of_ne hoc]
        exact and_congr (forall₂_congr fun p _ => by omega) (by omega)
      · by_cases hc : x = c
        · subst hc
          rw [depthFrom, if_neg ho, if_pos rfl]
          simp only [List.count_cons_self, List.count_cons_of_ne ho]
          by_cases hd : depth = 0
          · -- the empty rest of the list already closes one bracket too many
            rw [if_pos hd]
            constructor
            · intro h
              cases h
            · rintro ⟨h, -⟩
              have := h [] List.nil_prefix
              simp [hd] at this
          · rw [if_neg hd, ih]
            exact and_congr (forall₂_congr fun p _ => by omega) (by omega)
        · rw [depthFrom, if_neg ho, if_neg hc, ih]
          simp only [List.count_cons_of_ne ho, List.count_cons_of_ne hc]

/-- A scanner that starts and ends with no open bracket has read a balanced list. -/
theorem depthFrom_zero_iff (hoc : o ≠ c) {s : List α} :
    depthFrom o c 0 s = some 0 ↔ Balanced o c s := by
  rw [depthFrom_eq_some_iff hoc]
  simp only [Nat.zero_add]
  constructor
  · rintro ⟨hnested, hclosed⟩
    exact ⟨hnested, hclosed.symm⟩
  · rintro ⟨hnested, hclosed⟩
    exact ⟨hnested, hclosed.symm⟩

end depth

end Brackets
