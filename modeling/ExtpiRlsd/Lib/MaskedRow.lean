import Mathlib

/-! # Rows under a mask

A mask is a list of booleans beside a row of the same length.  `select` keeps the entries
at true positions, `fill` overwrites the others, and `ranks` is the running count of true
positions less one: at a true position, the number of true positions before it.

Two shapes of mask matter: `LeftPadded`, a run of false entries followed by at least one
true one, and `RightPadded`, a run of true entries followed by false ones.  A mask is right
padded exactly when every true position has as many true positions before it as positions
(`rightPadded_iff_count`): compaction moves no entry. -/

namespace Masks

variable {α β : Type*}

/-- The entries of the row at the true positions of the mask. -/
def select : List Bool → List α → List α
  | true :: m, x :: xs => x :: select m xs
  | false :: m, _ :: xs => select m xs
  | _, _ => []

/-- The row with `v` written over every entry at a false position. -/
def fill (v : α) (m : List Bool) (xs : List α) : List α :=
  List.zipWith (fun b x => if b then x else v) m xs

/-- Running sums, starting from `k`. -/
def cumsum (k : ℕ) : List ℕ → List ℕ
  | [] => []
  | x :: xs => (k + x) :: cumsum (k + x) xs

/-- Running count of true positions less one, never below zero; `k` counts those already
passed. -/
def ranks (k : ℕ) (m : List Bool) : List ℕ := (cumsum k (m.map Bool.toNat)).map (· - 1)

/-- False entries, then at least one true entry. -/
def LeftPadded (m : List Bool) : Prop :=
  ∃ a b, 0 < b ∧ m = List.replicate a false ++ List.replicate b true

/-- True entries, then false entries. -/
def RightPadded (m : List Bool) : Prop :=
  ∃ n k, m = List.replicate n true ++ List.replicate k false

/-! ### Selection -/

@[simp] theorem select_nil_left (xs : List α) : select [] xs = [] := by cases xs <;> rfl

@[simp] theorem select_nil_right (m : List Bool) : select m ([] : List α) = [] := by
  rcases m with _ | ⟨_ | _, m⟩ <;> rfl

@[simp] theorem select_true_cons (m : List Bool) (x : α) (xs : List α) :
    select (true :: m) (x :: xs) = x :: select m xs := rfl

@[simp] theorem select_false_cons (m : List Bool) (x : α) (xs : List α) :
    select (false :: m) (x :: xs) = select m xs := rfl

theorem select_append {m₁ m₂ : List Bool} {xs ys : List α} (h : m₁.length = xs.length) :
    select (m₁ ++ m₂) (xs ++ ys) = select m₁ xs ++ select m₂ ys := by
  induction m₁ generalizing xs with
  | nil => cases xs with
    | nil => rfl
    | cons x xs => cases h
  | cons b m₁ ih => cases xs with
    | nil => cases h
    | cons x xs =>
        have ih := ih (Nat.succ.inj h)
        cases b <;> simp [ih]

theorem length_select {m : List Bool} {xs : List α} (h : m.length = xs.length) :
    (select m xs).length = m.count true := by
  induction m generalizing xs with
  | nil => simp
  | cons b m ih => cases xs with
    | nil => cases h
    | cons x xs =>
        have ih := ih (Nat.succ.inj h)
        cases b <;> simp [ih]

theorem mem_of_mem_select {m : List Bool} {xs : List α} {x : α} (h : x ∈ select m xs) : x ∈ xs := by
  induction m generalizing xs with
  | nil => exact absurd (select_nil_left xs ▸ h) List.not_mem_nil
  | cons b m ih => cases xs with
    | nil => exact absurd (select_nil_right (b :: m) ▸ h) List.not_mem_nil
    | cons y ys => cases b with
      | true =>
          rcases List.mem_cons.mp h with rfl | h
          · exact List.mem_cons_self
          · exact List.mem_cons_of_mem y (ih h)
      | false => exact List.mem_cons_of_mem y (ih h)

theorem forall₂_select {R : α → β → Prop} (m : List Bool) {xs : List α} {ys : List β}
    (h : List.Forall₂ R xs ys) : List.Forall₂ R (select m xs) (select m ys) := by
  induction h generalizing m with
  | nil => rw [select_nil_right, select_nil_right]; exact .nil
  | @cons x y _ _ hxy _ ih => cases m with
    | nil => exact .nil
    | cons b m => cases b with
      | true => exact .cons hxy (ih m)
      | false => exact ih m

theorem select_map (f : α → β) (m : List Bool) (xs : List α) :
    select m (xs.map f) = (select m xs).map f := by
  induction m generalizing xs with
  | nil => simp
  | cons b m ih => cases xs with
    | nil => simp
    | cons x xs => cases b <;> simp [ih]

theorem select_zip (m : List Bool) (xs : List α) (ys : List β) :
    select m (xs.zip ys) = (select m xs).zip (select m ys) := by
  induction m generalizing xs ys with
  | nil => simp
  | cons b m ih => cases xs with
    | nil => simp
    | cons x xs => cases ys with
      | nil => simp
      | cons y ys => cases b <;> simp [ih]

@[simp] theorem select_replicate_true (n : ℕ) (xs : List α) :
    select (List.replicate n true) xs = xs.take n := by
  induction n generalizing xs with
  | zero => simp
  | succ n ih => cases xs <;> simp [List.replicate_succ, ih]

@[simp] theorem select_replicate_false (n : ℕ) (xs : List α) :
    select (List.replicate n false) xs = [] := by
  induction n generalizing xs with
  | zero => simp
  | succ n ih => cases xs <;> simp [List.replicate_succ, ih]

/-- Overwriting the entries at false positions is invisible to the selection. -/
theorem select_fill (v : α) (m : List Bool) (xs : List α) :
    select m (fill v m xs) = select m xs := by
  induction m generalizing xs with
  | nil => simp
  | cons b m ih => cases xs with
    | nil => simp [fill]
    | cons x xs =>
        have ih : select m (List.zipWith (fun b x => if b = true then x else v) m xs) =
            select m xs := ih xs
        cases b <;> simp [fill, ih]

theorem length_fill (v : α) {m : List Bool} {xs : List α} (h : m.length = xs.length) :
    (fill v m xs).length = xs.length := by simp [fill, h]

/-- The entry at a true position is left alone. -/
theorem getElem?_fill (v : α) {m : List Bool} (xs : List α) {t : ℕ} (h : m[t]? = some true) :
    (fill v m xs)[t]? = xs[t]? := by
  rw [fill, List.getElem?_zipWith, h]
  cases xs[t]? <;> rfl

theorem fill_take (v : α) (m : List Bool) (xs : List α) (t : ℕ) :
    (fill v m xs).take t = fill v (m.take t) (xs.take t) := List.take_zipWith

/-- The selection from a prefix is a prefix of the selection. -/
theorem select_take (m : List Bool) (xs : List α) (t : ℕ) :
    select (m.take t) (xs.take t) = (select m xs).take ((m.take t).count true) := by
  induction m generalizing xs t with
  | nil => simp
  | cons b m ih => cases xs with
    | nil => simp
    | cons x xs => cases t with
      | zero => simp
      | succ t => cases b <;> simp [ih]

/-- A selection in two parts, cut at one column. -/
theorem select_take_append_drop (k : ℕ) (m : List Bool) (xs : List α) :
    select (m.take k) (xs.take k) ++ select (m.drop k) (xs.drop k) = select m xs := by
  induction m generalizing xs k with
  | nil => simp
  | cons b m ih => cases xs with
    | nil => simp
    | cons x xs => cases k with
      | zero => simp
      | succ k => cases b <;> simp [ih]

/-- The entry at a true position is found in the selection at that position's rank. -/
theorem getElem?_select {m : List Bool} (xs : List α) {t : ℕ} (h : m[t]? = some true) :
    (select m xs)[(m.take t).count true]? = xs[t]? := by
  induction m generalizing xs t with
  | nil => simp at h
  | cons b m ih => cases xs with
    | nil => simp
    | cons x xs => cases t with
      | zero =>
          obtain rfl : b = true := by simpa using h
          simp
      | succ t =>
          have ih := ih xs (t := t) (by simpa using h)
          cases b <;> simp [ih]

/-! ### Ranks -/

theorem length_cumsum (k : ℕ) (xs : List ℕ) : (cumsum k xs).length = xs.length := by
  induction xs generalizing k with
  | nil => rfl
  | cons x xs ih => simp [cumsum, ih]

theorem getLast?_cumsum (k : ℕ) {xs : List ℕ} (h : xs ≠ []) :
    (cumsum k xs).getLast? = some (k + xs.sum) := by
  induction xs generalizing k with
  | nil => exact absurd rfl h
  | cons x xs ih => cases xs with
    | nil => simp [cumsum]
    | cons y ys =>
        have ih := ih (k + x) (List.cons_ne_nil y ys)
        rw [cumsum, List.getLast?_cons, ih, Option.getD_some, List.sum_cons (l := y :: ys),
          Nat.add_assoc]

theorem length_ranks (k : ℕ) (m : List Bool) : (ranks k m).length = m.length := by
  simp [ranks, length_cumsum]

theorem length_positions (m : List Bool) : (ranks 0 m).length = m.length := length_ranks 0 m

@[simp] theorem ranks_nil (k : ℕ) : ranks k [] = [] := rfl

theorem ranks_cons (k : ℕ) (b : Bool) (m : List Bool) :
    ranks k (b :: m) = (k + b.toNat - 1) :: ranks (k + b.toNat) m := rfl

/-- The selected ranks are consecutive. -/
theorem select_ranks (k : ℕ) (m : List Bool) :
    select m (ranks k m) = List.range' k (m.count true) := by
  induction m generalizing k with
  | nil => simp
  | cons b m ih => cases b <;> simp [ranks_cons, ih, List.range'_succ]

theorem ranks_append (k : ℕ) (m₁ m₂ : List Bool) :
    ranks k (m₁ ++ m₂) = ranks k m₁ ++ ranks (k + m₁.count true) m₂ := by
  induction m₁ generalizing k with
  | nil => simp
  | cons b m₁ ih => cases b <;> simp [ranks_cons, ih, Nat.add_comm, Nat.add_left_comm]

theorem ranks_take (k : ℕ) (m : List Bool) (t : ℕ) : (ranks k m).take t = ranks k (m.take t) := by
  induction m generalizing k t with
  | nil => simp
  | cons b m ih => cases t with
    | zero => rfl
    | succ t => simp [ranks_cons, ih]

/-- Selected entries beside their ranks are the selected entries, numbered. -/
theorem select_zip_ranks (k : ℕ) {m : List Bool} {xs : List α} (h : m.length = xs.length) :
    select m (xs.zip (ranks k m)) = (select m xs).zipIdx k := by
  rw [select_zip, select_ranks, List.zipIdx_eq_zip_range', length_select h]

/-- The running count of true positions. -/
theorem getElem?_cumsum_toNat (k : ℕ) {m : List Bool} {t : ℕ} (h : t < m.length) :
    (cumsum k (m.map Bool.toNat))[t]? = some (k + (m.take (t + 1)).count true) := by
  induction m generalizing k t with
  | nil => exact absurd h (Nat.not_lt_zero t)
  | cons b m ih => cases t with
    | zero => cases b <;> simp [cumsum]
    | succ t =>
        have ih := ih (k + b.toNat) (Nat.lt_of_succ_lt_succ h)
        rw [List.map_cons, cumsum, List.getElem?_cons_succ, ih, List.take_succ_cons,
          Option.some.injEq]
        cases b with
        | false => rw [List.count_cons_of_ne Bool.false_ne_true]; rfl
        | true =>
            rw [List.count_cons_self, Bool.toNat_true]
            omega

theorem getElem?_ranks (k : ℕ) {m : List Bool} {t : ℕ} (h : t < m.length) :
    (ranks k m)[t]? = some (k + (m.take (t + 1)).count true - 1) := by
  rw [ranks, List.getElem?_map, getElem?_cumsum_toNat k h, Option.map_some]

/-- Selecting true positions by their running count selects as many as counts pass. -/
theorem count_zipWith_cumsum (p : ℕ → Bool) (k : ℕ) (m : List Bool) :
    (List.zipWith (fun b idx => b && p idx) m (cumsum k (m.map Bool.toNat))).count true =
      (List.range' (k + 1) (m.count true)).countP p := by
  induction m generalizing k with
  | nil => rfl
  | cons b m ih =>
      rw [List.map_cons, cumsum, List.zipWith_cons_cons]
      cases b with
      | false =>
          rw [Bool.false_and, List.count_cons_of_ne Bool.false_ne_true,
            List.count_cons_of_ne Bool.false_ne_true]
          exact ih k
      | true =>
          rw [Bool.true_and, List.count_cons, ih, List.count_cons_self, List.range'_succ,
            List.countP_cons, Bool.toNat_true]
          cases p (k + 1) <;> rfl

/-! ### Shapes -/

theorem LeftPadded.count_pos {m : List Bool} (h : LeftPadded m) : 0 < m.count true := by
  obtain ⟨a, b, hb, rfl⟩ := h
  simpa [List.count_replicate] using hb

theorem LeftPadded.getLast? {m : List Bool} (h : LeftPadded m) : m.getLast? = some true := by
  obtain ⟨a, b, hb, rfl⟩ := h
  obtain ⟨b, rfl⟩ : ∃ c, b = c + 1 := ⟨b - 1, by omega⟩
  simp [List.getLast?_append, List.getLast?_replicate]

/-- The last entry of a row is the last one selected by a left-padded mask. -/
theorem LeftPadded.getLast?_select {m : List Bool} (h : LeftPadded m) {xs : List α}
    (hlen : m.length = xs.length) : (select m xs).getLast? = xs.getLast? := by
  obtain ⟨a, b, hb, rfl⟩ := h
  have hxs : a + b = xs.length := by simpa using hlen
  have hselect : select (List.replicate a false ++ List.replicate b true) xs = xs.drop a := by
    have htake : (List.replicate a false).length = (xs.take a).length := by simp; omega
    have hdrop : (xs.drop a).length ≤ b := by rw [List.length_drop]; omega
    conv_lhs => rw [← List.take_append_drop a xs]
    rw [select_append htake, select_replicate_false, select_replicate_true, List.nil_append,
      List.take_of_length_le hdrop]
  rw [hselect, List.getLast?_drop, if_neg (by omega)]

theorem count_take_le (m : List Bool) (t : ℕ) : (m.take t).count true ≤ t :=
  Nat.le_trans List.count_le_length (List.length_take_le t m)

/-- The true positions of a right-padded mask are those before the padding. -/
theorem lt_of_getElem?_padded {n k t : ℕ}
    (ht : (List.replicate n true ++ List.replicate k false)[t]? = some true) : t < n := by
  by_contra hge
  rw [List.getElem?_append_right (by simpa using hge)] at ht
  have hfalse := List.eq_of_mem_replicate (List.mem_of_getElem? ht)
  cases hfalse

theorem RightPadded.count_take {m : List Bool} (h : RightPadded m) {t : ℕ}
    (ht : m[t]? = some true) : (m.take t).count true = t := by
  obtain ⟨n, k, rfl⟩ := h
  have hn : t < n := lt_of_getElem?_padded ht
  rw [List.take_append_of_le_length (by simp; omega), List.take_replicate,
    List.count_replicate_self]
  omega

/-- Before a true position a right-padded mask is true throughout. -/
theorem RightPadded.take_eq {m : List Bool} (h : RightPadded m) {t : ℕ} (ht : m[t]? = some true) :
    m.take t = List.replicate t true := by
  have hlen : t < m.length := (List.getElem?_eq_some_iff.mp ht).1
  have hcount := h.count_take ht
  have htake : (m.take t).length = t := by
    rw [List.length_take]
    omega
  refine List.eq_replicate_iff.mpr ⟨htake, fun b hb => ?_⟩
  exact (List.count_eq_length.mp (hcount.trans htake.symm) b hb).symm

/-- Under a right-padded mask the selected entry at a true position keeps its place. -/
theorem RightPadded.getElem?_select {m : List Bool} (h : RightPadded m) (xs : List α) {t : ℕ}
    (ht : m[t]? = some true) : (select m xs)[t]? = xs[t]? := by
  have hget := Masks.getElem?_select xs ht
  rwa [h.count_take ht] at hget

/-- Under a right-padded mask the selected entries before a true position are those selected by
the mask before it. -/
theorem RightPadded.take_select {m : List Bool} (h : RightPadded m) (xs : List α) {t : ℕ}
    (ht : m[t]? = some true) : (select m xs).take t = select (m.take t) (xs.take t) := by
  rw [select_take, h.count_take ht]

theorem RightPadded.cons_true {m : List Bool} (h : RightPadded m) : RightPadded (true :: m) := by
  obtain ⟨n, k, rfl⟩ := h
  exact ⟨n + 1, k, rfl⟩

/-- A mask is right padded exactly when no true position follows a false one, that is, when
the rank of every true position is the position itself. -/
theorem rightPadded_iff_count (m : List Bool) :
    RightPadded m ↔ ∀ t, m[t]? = some true → (m.take t).count true = t := by
  constructor
  · intro h t ht
    exact h.count_take ht
  · induction m with
    | nil => exact fun _ => ⟨0, 0, rfl⟩
    | cons b m ih =>
        intro h
        cases b with
        | true =>
            refine (ih fun t ht => ?_).cons_true
            simpa using h (t + 1) (by simpa using ht)
        | false =>
            -- a true position behind the leading false one would have too small a rank
            refine ⟨0, m.length + 1, ?_⟩
            have hm : m = List.replicate m.length false := by
              refine List.eq_replicate_of_mem fun b hb => ?_
              cases b with
              | false => rfl
              | true =>
                  obtain ⟨t, ht⟩ := List.mem_iff_getElem?.mp hb
                  have h1 := h (t + 1) (by simpa using ht)
                  have h2 := count_take_le m t
                  simp at h1
                  omega
            rw [List.replicate_succ, ← hm]
            rfl

theorem RightPadded.of_getElem? {m : List Bool} (h : RightPadded m) {s t : ℕ}
    (ht : m[t]? = some true) (hst : s ≤ t) : m[s]? = some true := by
  obtain ⟨n, k, rfl⟩ := h
  have hn : t < n := lt_of_getElem?_padded ht
  rw [List.getElem?_append_left (by simp; omega), List.getElem?_replicate]
  simp; omega

end Masks
