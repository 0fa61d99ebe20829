import Mathlib

/-! # Rank-2 tensors

A rank-2 tensor is a list of rows of one common width; the width is kept beside the rows, so
that a tensor with no rows still has a shape.  The operations are the elementwise maps, the
row-wise broadcast of a column, slicing along either dimension, concatenation along either
dimension and the sums.

Every elementwise operation is described by one equation on `Tensor.get?`, the entry at
row `i` and column `t`; a chain of elementwise operations is computed at an entry by
rewriting with these equations.  Reductions over a whole tensor are compared through
`total_le_total` and `total_congr`, so no proof about a reduction unfolds the rows. -/

namespace Tensors

/-- A rectangular list of rows. -/
structure Tensor (α : Type*) where
  cols : ℕ
  rows : List (List α)
  rect : ∀ r ∈ rows, r.length = cols

namespace Tensor

variable {α β γ δ : Type*}

@[ext] theorem ext {x y : Tensor α} (hc : x.cols = y.cols) (hr : x.rows = y.rows) : x = y := by
  cases x; cases y
  cases hc; cases hr
  rfl

/-- Number of rows and width. -/
def shape (x : Tensor α) : ℕ × ℕ := (x.rows.length, x.cols)

/-- Number of entries. -/
def numel (x : Tensor α) : ℕ := x.rows.length * x.cols

/-- The entry at row `i`, column `t`. -/
def get? (x : Tensor α) (i t : ℕ) : Option α := x.rows[i]?.bind (·[t]?)

/-- Every entry becomes `f` of it. -/
def map (f : α → β) (x : Tensor α) : Tensor β where
  cols := x.cols
  rows := x.rows.map (List.map f)
  rect := by
    intro r hr
    obtain ⟨s, hs, rfl⟩ := List.mem_map.mp hr
    simpa using x.rect s hs

/-- Entrywise combination of two tensors of one shape. -/
def map₂ (f : α → β → γ) (x : Tensor α) (y : Tensor β) : Tensor γ where
  cols := min x.cols y.cols
  rows := List.zipWith (List.zipWith f) x.rows y.rows
  rect := by
    intro r hr
    obtain ⟨i, hi, rfl⟩ := List.mem_iff_getElem.mp hr
    rw [List.length_zipWith] at hi
    rw [List.getElem_zipWith, List.length_zipWith, x.rect _ (List.getElem_mem _),
      y.rect _ (List.getElem_mem _)]

/-- Entrywise combination with a column vector broadcast along the rows. -/
def mapCol (f : β → α → γ) (c : List β) (x : Tensor α) : Tensor γ where
  cols := x.cols
  rows := List.zipWith (fun b r => r.map (f b)) c x.rows
  rect := by
    intro r hr
    obtain ⟨i, hi, rfl⟩ := List.mem_iff_getElem.mp hr
    rw [List.length_zipWith] at hi
    rw [List.getElem_zipWith, List.length_map, x.rect _ (List.getElem_mem _)]

/-- Every row becomes `f` of it, for an `f` that keeps the length. -/
def mapRows (f : List α → List β) (hf : ∀ r, (f r).length = r.length) (x : Tensor α) :
    Tensor β where
  cols := x.cols
  rows := x.rows.map f
  rect := by
    intro r hr
    obtain ⟨s, hs, rfl⟩ := List.mem_map.mp hr
    rw [hf, x.rect s hs]

/-- One row repeated, as in `row.expand(n, -1)`. -/
def expand (n : ℕ) (row : List α) : Tensor α where
  cols := row.length
  rows := List.replicate n row
  rect := fun _ hr => congrArg List.length (List.eq_of_mem_replicate hr)

/-! ### Entries -/

@[simp] theorem shape_map (f : α → β) (x : Tensor α) : (x.map f).shape = x.shape := by
  simp [shape, map]

@[simp] theorem shape_map₂ (f : α → β → γ) (x : Tensor α) (y : Tensor β) :
    (map₂ f x y).shape = x.shape ⊓ y.shape := by
  simp [shape, map₂]

@[simp] theorem shape_mapCol (f : β → α → γ) (c : List β) (x : Tensor α) :
    (mapCol f c x).shape = (min c.length x.shape.1, x.shape.2) := by
  simp [shape, mapCol]

@[simp] theorem get?_map (f : α → β) (x : Tensor α) (i t : ℕ) :
    (x.map f).get? i t = (x.get? i t).map f := by
  cases h : x.rows[i]? <;> simp [get?, map, h]

@[simp] theorem get?_map₂ (f : α → β → γ) (x : Tensor α) (y : Tensor β) (i t : ℕ) :
    (map₂ f x y).get? i t = Option.map₂ f (x.get? i t) (y.get? i t) := by
  simp only [get?, map₂, List.getElem?_zipWith]
  cases hx : x.rows[i]? with
  | none => simp
  | some r =>
      cases hy : y.rows[i]? with
      | none => simp
      | some s =>
          simp only [Option.bind_some, List.getElem?_zipWith]
          cases r[t]? <;> cases s[t]? <;> rfl

@[simp] theorem get?_mapCol (f : β → α → γ) (col : List β) (x : Tensor α) (i t : ℕ) :
    (mapCol f col x).get? i t = Option.map₂ f col[i]? (x.get? i t) := by
  simp only [get?, mapCol, List.getElem?_zipWith]
  cases col[i]? with
  | none => simp
  | some b =>
      cases hx : x.rows[i]? with
      | none => simp
      | some r => cases ht : r[t]? <;> simp [ht]

theorem get?_eq_some_iff {x : Tensor α} {i t : ℕ} {a : α} :
    x.get? i t = some a ↔ ∃ r, x.rows[i]? = some r ∧ r[t]? = some a := by
  simp [get?, Option.bind_eq_some_iff]

theorem length_of_getElem? {x : Tensor α} {i : ℕ} {r : List α} (h : x.rows[i]? = some r) :
    r.length = x.cols := x.rect r (List.mem_of_getElem? h)

/-- Rows at one place of tensors of one shape have one length. -/
theorem length_eq_of_shape {x : Tensor α} {y : Tensor β} (hshape : x.shape = y.shape) {i : ℕ}
    {r : List α} {r' : List β} (hr : x.rows[i]? = some r) (hr' : y.rows[i]? = some r') :
    r.length = r'.length := by
  rw [length_of_getElem? hr, length_of_getElem? hr']
  exact congrArg Prod.snd hshape

theorem get?_isSome_iff (x : Tensor α) (i t : ℕ) :
    (x.get? i t).isSome ↔ i < x.rows.length ∧ t < x.cols := by
  rcases Nat.lt_or_ge i x.rows.length with hi | hi
  · have hr := x.rect _ (List.getElem_mem hi)
    simp [get?, hi, hr]
  · simp [get?, Nat.not_lt.mpr hi]

/-- Two tensors of one shape have entries at the same places. -/
theorem exists_get?_of_shape {x : Tensor α} {y : Tensor β} (h : x.shape = y.shape) {i t : ℕ}
    {a : α} (ha : x.get? i t = some a) : ∃ b, y.get? i t = some b := by
  obtain ⟨hr, hc⟩ := Prod.mk.inj h
  have hx : (x.get? i t).isSome := by rw [ha]; rfl
  rw [get?_isSome_iff, hr, hc, ← get?_isSome_iff] at hx
  exact Option.isSome_iff_exists.mp hx

/-- Tensors of one shape with the same entries are equal. -/
theorem ext_get? {x y : Tensor α} (h : x.shape = y.shape) (hg : ∀ i t, x.get? i t = y.get? i t) :
    x = y := by
  obtain ⟨hr, hc⟩ := Prod.mk.inj h
  refine Tensor.ext hc (List.ext_getElem hr ?_)
  intro i hi hi'
  refine List.ext_getElem? fun t => ?_
  have := hg i t
  simpa [get?, List.getElem?_eq_getElem hi, List.getElem?_eq_getElem hi'] using this

theorem get?_eq_none_of_shape {x : Tensor α} {m : Tensor β} (h : x.shape = m.shape) {i t : ℕ}
    (hm : m.get? i t = none) : x.get? i t = none := by
  cases hx : x.get? i t with
  | none => rfl
  | some a =>
      obtain ⟨b, hb⟩ := exists_get?_of_shape h hx
      rw [hm] at hb
      cases hb

/-- To compare two tensors of the shape of `m` it suffices to look where `m` has an entry. -/
theorem ext_of_shape {x y : Tensor α} (m : Tensor β) (hx : x.shape = m.shape)
    (hy : y.shape = m.shape)
    (h : ∀ i t b, m.get? i t = some b → x.get? i t = y.get? i t) : x = y := by
  refine ext_get? (hx.trans hy.symm) fun i t => ?_
  cases hm : m.get? i t with
  | none => rw [get?_eq_none_of_shape hx hm, get?_eq_none_of_shape hy hm]
  | some b => exact h i t b hm

/-! ### Rows -/

/-- Rows `a` to `b - 1`, as in `x[a:b]`. -/
def rowSlice (a b : ℕ) (x : Tensor α) : Tensor α where
  cols := x.cols
  rows := (x.rows.drop a).take (b - a)
  rect := fun r hr => x.rect r (List.mem_of_mem_drop (List.mem_of_mem_take hr))

/-- The first `k` columns, as in `x[:, :k]`. -/
def takeCols (k : ℕ) (x : Tensor α) : Tensor α where
  cols := min k x.cols
  rows := x.rows.map (List.take k)
  rect := by
    intro r hr
    obtain ⟨s, hs, rfl⟩ := List.mem_map.mp hr
    simp [x.rect s hs]

/-- The columns from `k` on, as in `x[:, k:]`. -/
def dropCols (k : ℕ) (x : Tensor α) : Tensor α where
  cols := x.cols - k
  rows := x.rows.map (List.drop k)
  rect := by
    intro r hr
    obtain ⟨s, hs, rfl⟩ := List.mem_map.mp hr
    simp [x.rect s hs]

/-- Concatenation along the columns of two tensors with the same number of rows. -/
def catCols (x y : Tensor α) : Tensor α where
  cols := x.cols + y.cols
  rows := List.zipWith (· ++ ·) x.rows y.rows
  rect := by
    intro r hr
    obtain ⟨i, hi, rfl⟩ := List.mem_iff_getElem.mp hr
    rw [List.length_zipWith] at hi
    rw [List.getElem_zipWith, List.length_append, x.rect _ (List.getElem_mem _),
      y.rect _ (List.getElem_mem _)]

/-- A list of rows of width `w` as a tensor; `none` when some row has another width. -/
def ofRows? (w : ℕ) (rows : List (List α)) : Option (Tensor α) :=
  if h : ∀ r ∈ rows, r.length = w then some ⟨w, rows, h⟩ else none

/-- Concatenation along the rows; `none` for no tensors and for tensors of unequal widths. -/
def catRows? : List (Tensor α) → Option (Tensor α)
  | [] => none
  | x :: xs => ofRows? x.cols (x.rows ++ xs.flatMap rows)

/-- In every row the entries at the columns that `index` holds in that row; `none` when a
column is out of range. -/
def gatherCols? (x : Tensor α) (index : Tensor ℕ) : Option (Tensor α) :=
  ofRows? index.cols (List.zipWith (fun r js => js.filterMap (r[·]?)) x.rows index.rows)

theorem ofRows?_eq_some {w : ℕ} {rows : List (List α)} (h : ∀ r ∈ rows, r.length = w) :
    ofRows? w rows = some ⟨w, rows, h⟩ := dif_pos h

theorem rows_of_ofRows? {w : ℕ} {rows : List (List α)} {x : Tensor α}
    (h : ofRows? w rows = some x) : x.rows = rows ∧ x.cols = w := by
  unfold ofRows? at h
  split at h
  · cases h; exact ⟨rfl, rfl⟩
  · cases h

theorem rowSlice_rows (a b : ℕ) (x : Tensor α) :
    (x.rowSlice a b).rows = (x.rows.drop a).take (b - a) := rfl

theorem get?_rowSlice (a b : ℕ) (x : Tensor α) (i t : ℕ) :
    (x.rowSlice a b).get? i t = if i < b - a then x.get? (a + i) t else none := by
  unfold get? rowSlice
  simp only [List.getElem?_take, List.getElem?_drop]
  split <;> simp

theorem getElem?_rowSlice (a b : ℕ) (x : Tensor α) (i : ℕ) :
    (x.rowSlice a b).rows[i]? = if i < b - a then x.rows[a + i]? else none := by
  rw [rowSlice_rows, List.getElem?_take, List.getElem?_drop]

theorem getElem?_takeCols (k : ℕ) (x : Tensor α) (i : ℕ) :
    (x.takeCols k).rows[i]? = x.rows[i]?.map (List.take k) := by simp [takeCols]

theorem getElem?_dropCols (k : ℕ) (x : Tensor α) (i : ℕ) :
    (x.dropCols k).rows[i]? = x.rows[i]?.map (List.drop k) := by simp [dropCols]

@[simp] theorem shape_mapRows (f : List α → List β) (hf : ∀ r, (f r).length = r.length)
    (x : Tensor α) : (x.mapRows f hf).shape = x.shape := by
  simp [shape, mapRows]

@[simp] theorem shape_catCols (x y : Tensor α) :
    (x.catCols y).shape = (min x.shape.1 y.shape.1, x.shape.2 + y.shape.2) := by
  simp [shape, catCols]

theorem get?_expand {n i : ℕ} (hi : i < n) (row : List α) (t : ℕ) :
    (expand n row).get? i t = row[t]? := by
  rw [get?, expand, List.getElem?_replicate_of_lt hi, Option.bind_some]

theorem getElem?_catCols (x y : Tensor α) (i : ℕ) :
    (x.catCols y).rows[i]? = Option.map₂ (· ++ ·) x.rows[i]? y.rows[i]? := by
  rw [catCols, List.getElem?_zipWith]
  cases x.rows[i]? <;> cases y.rows[i]? <;> rfl

theorem getElem?_filterMap_of_lt {r : List α} {js : List ℕ} (h : ∀ j ∈ js, j < r.length) (t : ℕ) :
    (js.filterMap (r[·]?))[t]? = js[t]?.bind (r[·]?) := by
  induction js generalizing t with
  | nil => simp
  | cons j js ih =>
      have hj := List.getElem?_eq_getElem (h j List.mem_cons_self)
      have ih := ih fun k hk => h k (List.mem_cons_of_mem _ hk)
      cases t with
      | zero => simp [hj]
      | succ t => simp [hj, ih]

/-- Columns in range are gathered. -/
theorem gatherCols?_eq_some {x : Tensor α} {index : Tensor ℕ}
    (hrows : x.rows.length = index.rows.length) (hlt : ∀ js ∈ index.rows, ∀ j ∈ js, j < x.cols) :
    ∃ y, x.gatherCols? index = some y ∧ y.shape = index.shape ∧
      ∀ i t, y.get? i t = (index.get? i t).bind (x.get? i) := by
  have hget : ∀ {i : ℕ} {r : List α} {js : List ℕ}, x.rows[i]? = some r → index.rows[i]? = some js →
      ∀ t : ℕ, (js.filterMap (r[·]?))[t]? = js[t]?.bind (r[·]?) := by
    intro i r js hr hjs t
    refine getElem?_filterMap_of_lt (fun j hj => ?_) t
    rw [length_of_getElem? hr]
    exact hlt js (List.mem_of_getElem? hjs) j hj
  have hwidth : ∀ s ∈ List.zipWith (fun r js => js.filterMap (r[·]?)) x.rows index.rows,
      s.length = index.cols := by
    intro s hs
    obtain ⟨i, hi⟩ := List.mem_iff_getElem?.mp hs
    rw [List.getElem?_zipWith] at hi
    cases hr : x.rows[i]? with
    | none => simp [hr] at hi
    | some r => cases hjs : index.rows[i]? with
      | none => simp [hr, hjs] at hi
      | some js =>
          obtain rfl : js.filterMap (r[·]?) = s := by simpa [hr, hjs] using hi
          rw [← length_of_getElem? hjs]
          -- a filter that keeps an entry at every place keeps the length
          refine Nat.le_antisymm (List.length_filterMap_le _ _) (Nat.not_lt.mp fun hlen => ?_)
          have h := hget hr hjs (js.filterMap (r[·]?)).length
          rw [List.getElem?_eq_none le_rfl, List.getElem?_eq_getElem hlen, Option.bind_some] at h
          have hj := hlt js (List.mem_of_getElem? hjs) _ (List.getElem_mem hlen)
          rw [← length_of_getElem? hr] at hj
          rw [List.getElem?_eq_getElem hj] at h
          cases h
  refine ⟨_, ofRows?_eq_some hwidth, ?_, fun i t => ?_⟩
  · simp [shape, hrows]
  · cases hr : x.rows[i]? with
    | none =>
        rw [List.getElem?_eq_none_iff, hrows, ← List.getElem?_eq_none_iff] at hr
        simp [get?, List.getElem?_zipWith, hr]
    | some r =>
        have hx : x.get? i = fun j => r[j]? := funext fun j => by simp [get?, hr]
        rw [hx]
        cases hjs : index.rows[i]? with
        | none => simp [get?, List.getElem?_zipWith, hjs]
        | some js =>
            rw [get?, get?, List.getElem?_zipWith, hr, hjs]
            exact hget hr hjs t

theorem shape_rowSlice_congr {x : Tensor α} {y : Tensor β} (h : x.shape = y.shape) (a b : ℕ) :
    (x.rowSlice a b).shape = (y.rowSlice a b).shape := by
  obtain ⟨hr, hc⟩ := Prod.mk.inj h
  simp [shape, rowSlice, hr, hc]

/-- Consecutive half-open ranges of the given sizes, from `s` on. -/
def bounds (s : ℕ) : List ℕ → List (ℕ × ℕ)
  | [] => []
  | n :: ns => (s, s + n) :: bounds (s + n) ns

/-- The row slices along consecutive ranges concatenate to the rows they cover. -/
theorem flatMap_rowSlice_bounds (x : Tensor α) (s : ℕ) (sizes : List ℕ) :
    (bounds s sizes).flatMap (fun p => (x.rowSlice p.1 p.2).rows) =
      (x.rows.drop s).take sizes.sum := by
  induction sizes generalizing s with
  | nil => simp [bounds]
  | cons n ns ih =>
      rw [bounds, List.flatMap_cons, ih, rowSlice_rows, Nat.add_sub_cancel_left, List.sum_cons,
        List.take_add, List.drop_drop]

/-- The starts of the chunks of `n` rows, as in `range(0, n, k)`. -/
def chunkStarts (n k : ℕ) : List ℕ := List.range' 0 ((n + k - 1) / k) k

theorem getElem?_chunkStarts {n k j : ℕ} (hj : j < (n + k - 1) / k) :
    (chunkStarts n k)[j]? = some (j * k) := by
  rw [chunkStarts, List.getElem?_range' hj, Nat.zero_add, Nat.mul_comm]

theorem lt_numChunks_iff {n k j : ℕ} (hk : 0 < k) : j < (n + k - 1) / k ↔ j * k < n := by
  rw [Nat.lt_iff_add_one_le, Nat.le_div_iff_mul_le hk, Nat.add_mul]
  omega

/-- Lists of `k` entries, but for a shorter last one, are indexed by quotient and remainder. -/
theorem getElem?_flatten_chunks {k : ℕ} {L : List (List α)}
    (hle : ∀ l ∈ L, l.length ≤ k)
    (hfull : ∀ (j : ℕ) (l : List α), L[j]? = some l → j + 1 < L.length → l.length = k)
    (q : ℕ) {r : ℕ} (hr : r < k) : L.flatten[q * k + r]? = L[q]?.bind (·[r]?) := by
  induction L generalizing q with
  | nil => simp
  | cons l L ih =>
      have hl := hle l List.mem_cons_self
      have ih := ih (fun m hm => hle m (List.mem_cons_of_mem _ hm))
        (fun j m hm hj => hfull (j + 1) m (by simpa using hm) (by simpa using hj))
      have hone : L ≠ [] → l.length = k := by
        intro hne
        have hpos := List.length_pos_of_ne_nil hne
        exact hfull 0 l rfl (by simpa using hpos)
      rw [List.flatten_cons]
      cases q with
      | zero =>
          rw [Nat.zero_mul, Nat.zero_add, List.getElem?_cons_zero, Option.bind_some]
          by_cases hL : L = []
          · simp [hL]
          · rw [List.getElem?_append_left (by rw [hone hL]; exact hr)]
      | succ q =>
          rw [List.getElem?_cons_succ]
          by_cases hL : L = []
          · have hlen : l.length ≤ (q + 1) * k + r := by
              rw [Nat.add_mul]
              omega
            simp [hL, hlen]
          · have hidx : (q + 1) * k + r - l.length = q * k + r := by
              rw [hone hL, Nat.add_mul]
              omega
            have hge : l.length ≤ (q + 1) * k + r := by
              rw [hone hL, Nat.add_mul]
              omega
            rw [List.getElem?_append_right hge, hidx, ih]

/-- **Chunks.**  Tensors that have the row counts of the chunks of `n` rows concatenate, and row
`i` of the result is row `i % k` of chunk `i / k`. -/
theorem catRows?_chunks {outs : List (Tensor α)} {n k w : ℕ} (hk : 0 < k) (hn : 0 < n)
    (hlen : outs.length = (n + k - 1) / k)
    (hshape : ∀ (j : ℕ) (y : Tensor α), outs[j]? = some y → y.shape = (min k (n - j * k), w)) :
    ∃ z, catRows? outs = some z ∧ z.shape = (n, w) ∧
      ∀ i t, z.get? i t = outs[i / k]?.bind fun y => y.get? (i % k) t := by
  have hflat : ∀ i : ℕ, (outs.map rows).flatten[i]? =
      outs[i / k]?.bind fun y => y.rows[i % k]? := by
    intro i
    have hle : ∀ l ∈ outs.map rows, l.length ≤ k := by
      intro l hl
      obtain ⟨y, hy, rfl⟩ := List.mem_map.mp hl
      obtain ⟨j, hj⟩ := List.mem_iff_getElem?.mp hy
      have hr : y.rows.length = min k (n - j * k) := congrArg Prod.fst (hshape j y hj)
      omega
    have hfull : ∀ (j : ℕ) (l : List (List α)), (outs.map rows)[j]? = some l →
        j + 1 < (outs.map rows).length → l.length = k := by
      intro j l hl hj
      rw [List.getElem?_map] at hl
      obtain ⟨y, hy, rfl⟩ := Option.map_eq_some_iff.mp hl
      have hr : y.rows.length = min k (n - j * k) := congrArg Prod.fst (hshape j y hy)
      rw [List.length_map, hlen, lt_numChunks_iff hk, Nat.add_mul] at hj
      omega
    have h := getElem?_flatten_chunks hle hfull (i / k) (Nat.mod_lt i hk)
    have hi : i / k * k + i % k = i := Nat.div_add_mod' i k
    rw [hi, List.getElem?_map, Option.bind_map] at h
    exact h
  have hzero : 0 < (n + k - 1) / k := by
    rw [lt_numChunks_iff hk]
    omega
  obtain ⟨x, xs, rfl⟩ : ∃ x xs, outs = x :: xs := by
    refine List.exists_cons_of_ne_nil fun h => ?_
    rw [h] at hlen
    simp at hlen
    omega
  have hcols : ∀ y ∈ x :: xs, y.cols = w := by
    intro y hy
    obtain ⟨j, hj⟩ := List.mem_iff_getElem?.mp hy
    exact congrArg Prod.snd (hshape j y hj)
  have hrows : x.rows ++ xs.flatMap rows = ((x :: xs).map rows).flatten := by
    rw [List.map_cons, List.flatten_cons, List.flatMap_def]
  have hrect : ∀ r ∈ x.rows ++ xs.flatMap rows, r.length = x.cols := by
    intro r hr
    rw [hrows] at hr
    obtain ⟨l, hl, hr⟩ := List.mem_flatten.mp hr
    obtain ⟨y, hy, rfl⟩ := List.mem_map.mp hl
    rw [y.rect r hr, hcols y hy, hcols x List.mem_cons_self]
  refine ⟨_, ofRows?_eq_some hrect, ?_, fun i t => ?_⟩
  · have hsome : ∀ i : ℕ, (x.rows ++ xs.flatMap rows)[i]?.isSome ↔ i < n := by
      intro i
      have hdm : i / k * k + i % k = i := Nat.div_add_mod' i k
      have hmod := Nat.mod_lt i hk
      rw [hrows, hflat i]
      rcases Nat.lt_or_ge (i / k) ((n + k - 1) / k) with hlt | hge
      · have hlt' := hlt
        rw [← hlen] at hlt'
        rw [lt_numChunks_iff hk] at hlt
        have hr : ((x :: xs)[i / k]).rows.length = min k (n - i / k * k) :=
          congrArg Prod.fst (hshape _ _ (List.getElem?_eq_getElem hlt'))
        rw [List.getElem?_eq_getElem hlt', Option.bind_some, isSome_getElem?, hr]
        omega
      · have hnot := Nat.not_lt.mpr hge
        rw [lt_numChunks_iff hk] at hnot
        rw [← hlen] at hge
        rw [List.getElem?_eq_none hge]
        simp
        omega
    have hlength : (x.rows ++ xs.flatMap rows).length = n := by
      have h1 := (hsome n).not.mpr (Nat.lt_irrefl n)
      have h2 := (hsome (n - 1)).mpr (by omega)
      rw [isSome_getElem?] at h1 h2
      omega
    exact Prod.ext hlength (hcols x List.mem_cons_self)
  · show (x.rows ++ xs.flatMap rows)[i]?.bind (·[t]?) = _
    rw [hrows, hflat i]
    cases (x :: xs)[i / k]? with
    | none => rfl
    | some y => rfl

/-! ### Sums -/

section sums
variable [Add α] [Zero α]

/-- The sum of every row. -/
def rowSums (x : Tensor α) : List α := x.rows.map List.sum

/-- The sum of all entries. -/
def total (x : Tensor α) : α := x.rowSums.sum

@[simp] theorem length_rowSums (x : Tensor α) : x.rowSums.length = x.shape.1 := by
  simp [rowSums, shape]

end sums

/-- Number of true entries. -/
def count (x : Tensor Bool) : ℕ := (x.rows.map (List.count true)).sum

/-- Some entry is true, as in `x.any()`. -/
def any (x : Tensor Bool) : Bool := x.rows.any (List.any · id)

theorem any_eq_false_iff {x : Tensor Bool} :
    x.any = false ↔ ∀ i t, x.get? i t ≠ some true := by
  simp only [any, List.any_eq_false, List.any_eq_true, id_eq, get?_eq_some_iff, Bool.not_eq_true,
    ne_eq, not_exists, not_and]
  constructor
  · intro h i t r hr ht
    have := h r (List.mem_of_getElem? hr) true (List.mem_of_getElem? ht)
    simp at this
  · intro h r hr b hb
    obtain ⟨i, hi⟩ := List.mem_iff_getElem?.mp hr
    obtain ⟨t, ht⟩ := List.mem_iff_getElem?.mp hb
    cases b with
    | false => rfl
    | true => exact absurd ht (h i t r hi)

/-- The two tensors stand in `R` entry by entry exactly when they do so row by row. -/
theorem forall₂_rows {R : α → β → Prop} {x : Tensor α} {y : Tensor β} (h : x.shape = y.shape)
    (hR : ∀ i t a b, x.get? i t = some a → y.get? i t = some b → R a b) :
    List.Forall₂ (List.Forall₂ R) x.rows y.rows := by
  obtain ⟨hr, hc⟩ := Prod.mk.inj h
  rw [List.forall₂_iff_get]
  refine ⟨hr, fun i hi hi' => ?_⟩
  rw [List.forall₂_iff_get]
  refine ⟨?_, fun t ht ht' => ?_⟩
  · simp only [List.get_eq_getElem]
    rw [x.rect _ (List.getElem_mem hi), y.rect _ (List.getElem_mem hi'), hc]
  · simp only [List.get_eq_getElem] at ht ht' ⊢
    refine hR i t _ _ ?_ ?_
    · rw [get?_eq_some_iff]
      exact ⟨_, List.getElem?_eq_getElem hi, List.getElem?_eq_getElem ht⟩
    · rw [get?_eq_some_iff]
      exact ⟨_, List.getElem?_eq_getElem hi', List.getElem?_eq_getElem ht'⟩

theorem forall₂_length {x : Tensor α} {y : Tensor β} (h : x.shape = y.shape) :
    List.Forall₂ (fun r s => r.length = s.length) x.rows y.rows :=
  (forall₂_rows (R := fun _ _ => True) h fun _ _ _ _ _ _ => trivial).imp
    fun _ _ => List.Forall₂.length_eq

section ordered
variable [AddCommMonoid α] [Preorder α] [IsOrderedAddMonoid α]

/-- Sums are monotone entry by entry. -/
theorem total_le_total {x y : Tensor α} (h : x.shape = y.shape)
    (hle : ∀ i t a b, x.get? i t = some a → y.get? i t = some b → a ≤ b) :
    x.total ≤ y.total := by
  unfold total rowSums
  refine List.Forall₂.sum_le_sum ?_
  rw [List.forall₂_map_left_iff, List.forall₂_map_right_iff]
  exact (forall₂_rows h hle).imp fun _ _ => List.Forall₂.sum_le_sum

end ordered

section scaled
variable [NonAssocSemiring α]

theorem total_map_mul_left (c : α) (x : Tensor α) : (x.map (c * ·)).total = c * x.total := by
  simp only [total, rowSums, map, List.map_map]
  rw [← List.sum_map_mul_left]
  refine congrArg List.sum (List.map_congr_left fun r _ => ?_)
  simpa using List.sum_map_mul_left r id c

/-- The sum of an indicator tensor counts its true entries. -/
theorem total_indicator (x : Tensor Bool) :
    (x.map fun b => if b then (1 : α) else 0).total = x.count := by
  simp only [total, rowSums, map, count, List.map_map, Nat.cast_list_sum]
  refine congrArg List.sum (List.map_congr_left fun r hr => ?_)
  simp only [Function.comp_apply]
  clear hr
  induction r with
  | nil => simp
  | cons b r ih => cases b <;> simp [ih, add_comm]

end scaled

/-! ### Tensors without entries -/

theorem eq_of_numel_eq_zero {x y : Tensor α} (h : x.shape = y.shape) (hx : x.numel = 0) : x = y := by
  obtain ⟨hr, hc⟩ := Prod.mk.inj h
  refine ext hc (List.ext_getElem hr fun i hi hj => ?_)
  have hcols : x.cols = 0 := by
    rcases Nat.mul_eq_zero.mp hx with h0 | h0
    · omega
    · exact h0
  have hxi := x.rect _ (List.getElem_mem hi)
  have hyi := y.rect _ (List.getElem_mem hj)
  rw [hcols, List.length_eq_zero_iff] at hxi
  rw [← hc, hcols, List.length_eq_zero_iff] at hyi
  rw [hxi, hyi]

/-! ### Places -/

theorem sum_map_eq_sum_range (f : α → ℕ) (l : List α) :
    (l.map f).sum = ∑ i ∈ Finset.range l.length, (l[i]?.map f).getD 0 := by
  rw [Finset.sum_range, ← Fin.sum_univ_fun_getElem]
  simp

/-- The places of the true entries. -/
def trueAt (x : Tensor Bool) : Finset (ℕ × ℕ) :=
  (Finset.range x.shape.1 ×ˢ Finset.range x.shape.2).filter fun p => x.get? p.1 p.2 = some true

theorem mem_trueAt {x : Tensor Bool} {p : ℕ × ℕ} : p ∈ x.trueAt ↔ x.get? p.1 p.2 = some true := by
  simp only [trueAt, Finset.mem_filter, Finset.mem_product, Finset.mem_range, and_iff_right_iff_imp]
  intro h
  exact (x.get?_isSome_iff p.1 p.2).mp (by rw [h]; rfl)

theorem count_eq_card (x : Tensor Bool) : x.count = x.trueAt.card := by
  have hrow : ∀ r : List Bool, r.count true =
      ∑ t ∈ Finset.range r.length, if r[t]? = some true then 1 else 0 := by
    intro r
    have h : r.count true = (r.map Bool.toNat).sum := by
      induction r with
      | nil => rfl
      | cons b r ih => cases b <;> simp [ih, Nat.add_comm]
    rw [h, sum_map_eq_sum_range]
    refine Finset.sum_congr rfl fun t _ => ?_
    cases r[t]? with
    | none => rfl
    | some b => cases b <;> rfl
  rw [count, sum_map_eq_sum_range, trueAt, Finset.card_filter, Finset.sum_product]
  refine Finset.sum_congr rfl fun i hi => ?_
  have hi : i < x.rows.length := Finset.mem_range.mp hi
  simp only [List.getElem?_eq_getElem hi, Option.map_some, Option.getD_some, hrow,
    x.rect _ (List.getElem_mem hi), shape, get?, Option.bind_some]

theorem count_eq_zero_iff {x : Tensor Bool} :
    x.count = 0 ↔ ∀ i t, x.get? i t ≠ some true := by
  rw [← any_eq_false_iff]
  simp [count, any, List.sum_eq_zero_iff, List.count_eq_zero]

end Tensor

end Tensors
