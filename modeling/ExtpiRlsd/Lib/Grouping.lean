import Mathlib

/-! # Grouping by key

A dictionary of lists that is filled from a sequence of pairs: `collect` appends the value of
every pair to the list of its key, and the keys keep the order in which they were first seen.

`snd_of_mem_collect` says what is collected: under every key that occurs the values with that
key, in order.  So a statistic of the groups that ignores their order does not depend on the
order of the pairs (`map_collect_perm`), and pairs that come group by group are collected group by
group (`collect_flatMap`).

A counter is such a dictionary with the lengths of its lists; its most common entry is found
without counting up (`mostCommon_eq`). -/

namespace Grouping

variable {κ α β : Type*} [DecidableEq κ]

/-- The value goes to the end of the list of its key. -/
def push (k : κ) (v : α) : List (κ × List α) → List (κ × List α)
  | [] => [(k, [v])]
  | (k', vs) :: groups => if k' = k then (k', vs ++ [v]) :: groups else (k', vs) :: push k v groups

/-- All pairs, pushed one by one. -/
def collect (pairs : List (κ × α)) : List (κ × List α) :=
  pairs.foldl (fun groups p => push p.1 p.2 groups) []

/-- The values of a key, in order. -/
def valuesAt (k : κ) (pairs : List (κ × α)) : List α :=
  (pairs.filter fun p => decide (p.1 = k)).map Prod.snd

theorem collect_append_singleton (pairs : List (κ × α)) (p : κ × α) :
    collect (pairs ++ [p]) = push p.1 p.2 (collect pairs) := by
  rw [collect, List.foldl_append]
  rfl

/-! ### What is collected -/

theorem push_of_not_mem {k : κ} {v : α} {groups : List (κ × List α)}
    (h : k ∉ groups.map Prod.fst) : push k v groups = groups ++ [(k, [v])] := by
  induction groups with
  | nil => rfl
  | cons g groups ih =>
      obtain ⟨k', vs⟩ := g
      rw [List.map_cons, List.mem_cons, not_or] at h
      rw [push, if_neg (Ne.symm h.1), ih h.2]
      rfl

theorem push_append_singleton {k : κ} {v : α} {vs : List α} {groups : List (κ × List α)}
    (h : k ∉ groups.map Prod.fst) :
    push k v (groups ++ [(k, vs)]) = groups ++ [(k, vs ++ [v])] := by
  induction groups with
  | nil => simp [push]
  | cons g groups ih =>
      obtain ⟨k', ws⟩ := g
      rw [List.map_cons, List.mem_cons, not_or] at h
      rw [List.cons_append, push, if_neg (Ne.symm h.1), ih h.2]
      rfl

/-- One push changes the entry of its key, or adds one. -/
theorem map_fst_push (k : κ) (v : α) (groups : List (κ × List α)) :
    (push k v groups).map Prod.fst =
      if k ∈ groups.map Prod.fst then groups.map Prod.fst else groups.map Prod.fst ++ [k] := by
  induction groups with
  | nil => rfl
  | cons g groups ih =>
      obtain ⟨k', vs⟩ := g
      rw [push]
      by_cases h : k' = k
      · rw [if_pos h, if_pos]
        · rfl
        · rw [h]
          exact List.mem_cons_self
      · rw [if_neg h, List.map_cons, ih]
        simp only [List.map_cons, List.mem_cons, Ne.symm h, false_or]
        split <;> rfl

theorem nodup_fst_collect (pairs : List (κ × α)) : ((collect pairs).map Prod.fst).Nodup := by
  induction pairs using List.reverseRecOn with
  | nil => exact List.nodup_nil
  | append_singleton pairs p ih =>
      rw [collect_append_singleton, map_fst_push]
      split
      · exact ih
      · next h =>
          refine List.nodup_append.mpr ⟨ih, List.nodup_singleton _, ?_⟩
          intro a ha b hb heq
          rw [List.mem_singleton] at hb
          apply h
          rw [← hb, ← heq]
          exact ha

theorem mem_fst_collect {k : κ} {pairs : List (κ × α)} :
    k ∈ (collect pairs).map Prod.fst ↔ k ∈ pairs.map Prod.fst := by
  induction pairs using List.reverseRecOn with
  | nil => rfl
  | append_singleton pairs p ih =>
      rw [collect_append_singleton, map_fst_push, List.map_append, List.mem_append, ← ih]
      split
      · next h =>
          rw [List.map_singleton, List.mem_singleton]
          constructor
          · exact .inl
          · rintro (hk | rfl)
            · exact hk
            · exact h
      · rw [List.mem_append, List.map_singleton]

/-- An entry behind a push is an old one, or that of the key with the value at its end. -/
theorem mem_push {k : κ} {v : α} {groups : List (κ × List α)} {g : κ × List α}
    (hnodup : (groups.map Prod.fst).Nodup) (h : g ∈ push k v groups) :
    (g.1 ≠ k ∧ g ∈ groups) ∨ ∃ vs, g = (k, vs ++ [v]) ∧
      ((k, vs) ∈ groups ∨ (vs = [] ∧ k ∉ groups.map Prod.fst)) := by
  induction groups with
  | nil => exact .inr ⟨[], List.mem_singleton.mp h, .inr ⟨rfl, List.not_mem_nil⟩⟩
  | cons first groups ih =>
      obtain ⟨k', ws⟩ := first
      obtain ⟨hnot, hnodup⟩ := List.nodup_cons.mp hnodup
      rw [push] at h
      by_cases hk : k' = k
      · rw [if_pos hk] at h
        rcases List.mem_cons.mp h with rfl | h
        · exact .inr ⟨ws, by rw [hk], .inl (hk ▸ List.mem_cons_self)⟩
        · refine .inl ⟨?_, List.mem_cons_of_mem _ h⟩
          intro hg
          have hkey := List.mem_map_of_mem (f := Prod.fst) h
          rw [hg, ← hk] at hkey
          exact hnot hkey
      · rw [if_neg hk] at h
        rcases List.mem_cons.mp h with rfl | h
        · exact .inl ⟨hk, List.mem_cons_self⟩
        · rcases ih hnodup h with ⟨hne, hmem⟩ | ⟨vs, hg, hmem | ⟨hvs, hmem⟩⟩
          · exact .inl ⟨hne, List.mem_cons_of_mem _ hmem⟩
          · exact .inr ⟨vs, hg, .inl (List.mem_cons_of_mem _ hmem)⟩
          · refine .inr ⟨vs, hg, .inr ⟨hvs, ?_⟩⟩
            rw [List.map_cons, List.mem_cons, not_or]
            exact ⟨fun heq => hk heq.symm, hmem⟩

theorem valuesAt_append_singleton (k : κ) (pairs : List (κ × α)) (p : κ × α) :
    valuesAt k (pairs ++ [p]) = if p.1 = k then valuesAt k pairs ++ [p.2] else valuesAt k pairs := by
  rw [valuesAt, List.filter_append, List.map_append, List.filter_singleton]
  by_cases h : p.1 = k
  · simp [h, valuesAt]
  · simp [h, valuesAt]

theorem valuesAt_of_not_mem {k : κ} {pairs : List (κ × α)} (h : k ∉ pairs.map Prod.fst) :
    valuesAt k pairs = [] := by
  rw [valuesAt, List.filter_eq_nil_iff.mpr, List.map_nil]
  intro p hp
  rw [decide_eq_true_iff]
  rintro rfl
  exact h (List.mem_map_of_mem hp)

/-- Under a key the values with that key are collected. -/
theorem snd_of_mem_collect {pairs : List (κ × α)} {g : κ × List α} (h : g ∈ collect pairs) :
    g.2 = valuesAt g.1 pairs := by
  induction pairs using List.reverseRecOn generalizing g with
  | nil => cases h
  | append_singleton pairs p ih =>
      rw [collect_append_singleton] at h
      rw [valuesAt_append_singleton]
      rcases mem_push (nodup_fst_collect pairs) h with ⟨hne, hmem⟩ | ⟨vs, rfl, hmem⟩
      · rw [if_neg (Ne.symm hne)]
        exact ih hmem
      · rw [if_pos rfl]
        rcases hmem with hmem | ⟨rfl, hnot⟩
        · rw [← ih hmem]
        · rw [mem_fst_collect] at hnot
          rw [valuesAt_of_not_mem hnot]

/-! ### Other orders -/

/-- A statistic of every group, read off the values of its key. -/
theorem map_collect (f : List α → β) (pairs : List (κ × α)) :
    ((collect pairs).map fun g => f g.2) =
      ((collect pairs).map Prod.fst).map fun k => f (valuesAt k pairs) := by
  rw [List.map_map]
  apply List.map_congr_left
  intro g hg
  rw [snd_of_mem_collect hg]
  rfl

/-- A statistic of the groups that ignores the order inside a group does not depend on the order
of the pairs, up to the order of the groups. -/
theorem map_collect_perm {f : List α → β} (hf : ∀ {vs ws : List α}, vs.Perm ws → f vs = f ws)
    {pairs pairs' : List (κ × α)} (h : pairs.Perm pairs') :
    ((collect pairs).map fun g => f g.2).Perm ((collect pairs').map fun g => f g.2) := by
  have hkeys : ((collect pairs).map Prod.fst).Perm ((collect pairs').map Prod.fst) := by
    rw [List.perm_ext_iff_of_nodup (nodup_fst_collect _) (nodup_fst_collect _)]
    intro k
    rw [mem_fst_collect, mem_fst_collect]
    exact (h.map Prod.fst).mem_iff
  rw [map_collect, map_collect]
  have hvalues : (fun k => f (valuesAt k pairs)) = fun k => f (valuesAt k pairs') := by
    funext k
    exact hf ((h.filter _).map _)
  rw [hvalues]
  exact hkeys.map _

/-- The same for the groups that pass a test. -/
theorem map_filter_collect_perm {p : List α → Bool} {f : List α → β}
    (hp : ∀ {vs ws : List α}, vs.Perm ws → p vs = p ws)
    (hf : ∀ {vs ws : List α}, vs.Perm ws → f vs = f ws)
    {pairs pairs' : List (κ × α)} (h : pairs.Perm pairs') :
    ((((collect pairs).map Prod.snd).filter p).map f).Perm
      ((((collect pairs').map Prod.snd).filter p).map f) := by
  have hsplit : ∀ groups : List (κ × List α), ((groups.map Prod.snd).filter p).map f =
      (groups.map fun g => if p g.2 then some (f g.2) else none).filterMap id := by
    intro groups
    induction groups with
    | nil => rfl
    | cons g groups ih =>
        rw [List.map_cons, List.map_cons, List.filter_cons, List.filterMap_cons]
        by_cases hg : p g.2 = true
        · rw [if_pos hg, if_pos hg, List.map_cons, ih]
          rfl
        · rw [if_neg hg, if_neg hg, ih]
          rfl
  rw [hsplit, hsplit]
  apply List.Perm.filterMap
  apply map_collect_perm (f := fun vs => if p vs then some (f vs) else none) _ h
  intro vs ws hperm
  rw [hp hperm, hf hperm]

/-! ### Pairs in groups -/

/-- Pushing several values of one new key makes one group of them. -/
theorem foldl_push_new {k : κ} {groups : List (κ × List α)} (h : k ∉ groups.map Prod.fst)
    {vs : List α} (hne : vs ≠ []) :
    (vs.map fun v => (k, v)).foldl (fun groups p => push p.1 p.2 groups) groups =
      groups ++ [(k, vs)] := by
  induction vs using List.reverseRecOn with
  | nil => exact absurd rfl hne
  | append_singleton vs v ih =>
      rw [List.map_append, List.foldl_append]
      by_cases hvs : vs = []
      · subst hvs
        exact push_of_not_mem h
      · rw [ih hvs]
        exact push_append_singleton h

/-- **Pairs that come group by group** are collected group by group. -/
theorem collect_flatMap {groups : List (κ × List α)} (hnodup : (groups.map Prod.fst).Nodup)
    (hne : ∀ g ∈ groups, g.2 ≠ []) :
    collect (groups.flatMap fun g => g.2.map fun v => (g.1, v)) = groups := by
  induction groups using List.reverseRecOn with
  | nil => rfl
  | append_singleton groups g ih =>
      rw [List.map_append, List.nodup_append] at hnodup
      have hgroups := ih hnodup.1 fun g hg => hne g (List.mem_append_left _ hg)
      have hnew : g.1 ∉ groups.map Prod.fst := by
        intro hmem
        exact hnodup.2.2 g.1 hmem g.1 List.mem_cons_self rfl
      have hlast : g.2 ≠ [] := hne g (List.mem_append_right _ List.mem_cons_self)
      rw [collect] at hgroups ⊢
      rw [List.flatMap_append, List.foldl_append, hgroups, List.flatMap_singleton]
      exact foldl_push_new hnew hlast

/-! ### The most common entry -/

/-- The first key that passes a test is the key of the first pair that does. -/
theorem find?_map_fst_collect (p : κ → Bool) (pairs : List (κ × α)) :
    ((collect pairs).map Prod.fst).find? p = (pairs.map Prod.fst).find? p := by
  induction pairs using List.reverseRecOn with
  | nil => rfl
  | append_singleton pairs q ih =>
      rw [collect_append_singleton, map_fst_push, List.map_append, List.find?_append, ← ih]
      split
      · next h =>
          -- a key that was seen passes the test only if an earlier one did
          cases hfind : ((collect pairs).map Prod.fst).find? p with
          | some k => rfl
          | none =>
              have hq := List.find?_eq_none.mp hfind q.1 h
              simp [hq]
      · rw [List.find?_append]
        rfl

/-- `Counter(xs)`: every entry with its count, in the order of their first occurrences. -/
def counter (xs : List κ) : List (κ × ℕ) :=
  (collect (xs.map fun x => (x, ()))).map fun g => (g.1, g.2.length)

/-- `Counter(xs).most_common(1)`: among equally common entries the first one seen. -/
def mostCommon (xs : List κ) : Option κ :=
  ((counter xs).find? fun e => (counter xs).all fun e' => decide (e'.2 ≤ e.2)).map Prod.fst

/-- The entry is as common in the list as any other. -/
def isMostCommon (xs : List κ) (x : κ) : Bool :=
  xs.all fun y => decide (xs.count y ≤ xs.count x)

theorem counter_eq (xs : List κ) :
    counter xs = ((collect (xs.map fun x => (x, ()))).map Prod.fst).map fun k =>
      (k, xs.count k) := by
  rw [counter, List.map_map]
  apply List.map_congr_left
  intro g hg
  have hcount : g.2.length = xs.count g.1 := by
    rw [snd_of_mem_collect hg, valuesAt, List.length_map, List.filter_map, List.length_map,
      List.count_eq_countP, List.countP_eq_length_filter]
    rfl
  rw [hcount]
  rfl

/-- **The most common entry** is the first one in the list that is as common as any other. -/
theorem mostCommon_eq (xs : List κ) : mostCommon xs = xs.find? (isMostCommon xs) := by
  have hall : ∀ k, ((counter xs).all fun e' => decide (e'.2 ≤ xs.count k)) = isMostCommon xs k := by
    intro k
    rw [Bool.eq_iff_iff, counter_eq, isMostCommon, List.all_eq_true, List.all_eq_true,
      List.forall_mem_map]
    constructor
    · intro h y hy
      apply h
      rw [mem_fst_collect, List.map_map]
      exact List.mem_map_of_mem hy
    · intro h y hy
      rw [mem_fst_collect, List.map_map] at hy
      obtain ⟨x, hx, rfl⟩ := List.mem_map.mp hy
      exact h x hx
  have hkeys : (xs.map fun x => (x, ())).map Prod.fst = xs := by
    rw [List.map_map]
    exact List.map_id xs
  have hsearch : ∀ p : κ × ℕ → Bool, ((counter xs).find? p).map Prod.fst =
      xs.find? fun k => p (k, xs.count k) := by
    intro p
    rw [counter_eq, List.find?_map, Option.map_map, find?_map_fst_collect, hkeys]
    exact Option.map_id'
  rw [mostCommon, hsearch]
  congr 1
  funext k
  exact hall k

end Grouping
