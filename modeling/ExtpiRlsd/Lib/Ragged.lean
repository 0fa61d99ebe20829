import ExtpiRlsd.Lib.MaskedRow
import Mathlib

/-! # Rows of unequal lengths, stored back to back

A `Nested` list holds its rows one after another in a single list of values; the offsets are
the running row lengths, so row `i` is the slice of the values from the `i`-th offset to the
next (`rows_ofRows`).

`unpad` keeps the entries of a padded rectangle at the true positions of a mask: flattening
first and selecting afterwards is selecting row by row (`unpad_eq_ofRows`).  Reading back a
window that ends a fixed distance before each row end is reading the same window of each row
(`map_slice_flatten`).

The last part is about a causal scorer on packed rows.  The labels of a packed batch are its
values moved one place to the left, across row ends.  The moved label is wrong only at the last
place of a row (`rotate_flatten`), and the places before it hold the scores of the row's own
entries after their own prefixes (`slice_scores`). -/

namespace Ragged

open Masks

variable {α β γ : Type*}

/-- Rows stored back to back, with the offsets of their ends behind a leading zero. -/
structure Nested (α : Type*) where
  values : List α
  offsets : List ℕ

/-- The entries from `a` to `b - 1`, as in `xs[a:b]`. -/
def slice (a b : ℕ) (xs : List α) : List α := (xs.drop a).take (b - a)

namespace Nested

/-- The rows packed. -/
def ofRows (rows : List (List α)) : Nested α where
  values := rows.flatten
  offsets := 0 :: cumsum 0 (rows.map List.length)

/-- The rows of a packed list, cut at the offsets. -/
def rows (x : Nested α) : List (List α) :=
  List.zipWith (fun a b => slice a b x.values) x.offsets x.offsets.tail

end Nested

/-- The entries at the true positions of the mask in row-major order, with the running row
counts as offsets. -/
def unpad (mask : List (List Bool)) (xss : List (List α)) : Nested α where
  values := select mask.flatten xss.flatten
  offsets := 0 :: cumsum 0 (mask.map (List.count true))

/-! ### Cutting at the offsets -/

theorem slice_append_right (pre xs : List α) (a b : ℕ) :
    slice (pre.length + a) (pre.length + b) (pre ++ xs) = slice a b xs := by
  have hpre : List.drop (pre.length + a) pre = [] := List.drop_eq_nil_of_le (by omega)
  rw [slice, slice, List.drop_append, hpre, Nat.add_sub_add_left, Nat.add_sub_cancel_left,
    List.nil_append]

theorem slice_append_left {xs ys : List α} {a b : ℕ} (h : b ≤ xs.length) :
    slice a b (xs ++ ys) = slice a b xs := by
  rw [slice, slice, List.drop_append, List.take_append_of_le_length]
  rw [List.length_drop]
  omega

theorem slice_zero_length (xs : List α) : slice 0 xs.length xs = xs := by simp [slice]

theorem getElem?_slice (a b : ℕ) (xs : List α) (t : ℕ) :
    (slice a b xs)[t]? = if t < b - a then xs[a + t]? else none := by
  simp [slice, List.getElem?_take]

/-- Packing and cutting at the offsets gives the rows back. -/
@[simp] theorem rows_ofRows (rows : List (List α)) : (Nested.ofRows rows).rows = rows := by
  -- the induction runs over the rows that are left, with those already cut in front
  have hcut : ∀ pre : List α, List.zipWith (fun a b => slice a b (pre ++ rows.flatten))
      (pre.length :: cumsum pre.length (rows.map List.length))
      (cumsum pre.length (rows.map List.length)) = rows := by
    induction rows with
    | nil => exact fun _ => rfl
    | cons r rows ih =>
        intro pre
        have ih := ih (pre ++ r)
        rw [List.length_append, List.append_assoc] at ih
        have hr : slice pre.length (pre.length + r.length) (pre ++ (r ++ rows.flatten)) = r := by
          have h := slice_append_right pre (r ++ rows.flatten) 0 r.length
          rw [Nat.add_zero] at h
          rw [h, slice_append_left le_rfl, slice_zero_length]
        simp only [List.map_cons, cumsum, List.zipWith_cons_cons, List.flatten_cons, hr]
        rw [ih]
  exact hcut []

theorem select_flatten {mask : List (List Bool)} {xss : List (List α)}
    (h : List.Forall₂ (fun m xs => m.length = xs.length) mask xss) :
    select mask.flatten xss.flatten = (List.zipWith select mask xss).flatten := by
  induction h with
  | nil => rfl
  | cons hl _ ih => rw [List.flatten_cons, List.flatten_cons, select_append hl, ih]; rfl

/-- Unpadding packs the rows selected one by one. -/
theorem unpad_eq_ofRows {mask : List (List Bool)} {xss : List (List α)}
    (h : List.Forall₂ (fun m xs => m.length = xs.length) mask xss) :
    unpad mask xss = Nested.ofRows (List.zipWith select mask xss) := by
  have hlen : mask.map (List.count true) = (List.zipWith select mask xss).map List.length := by
    induction h with
    | nil => rfl
    | cons hl _ ih => simp [length_select hl, ih]
  rw [unpad, Nested.ofRows, select_flatten h, hlen]

/-- A window that ends one entry before the end of each row, read from the packed values, is
that window of each row. -/
theorem map_slice_flatten {rows : List (List α)} {ns : List ℕ}
    (h : List.Forall₂ (fun n r => n + 1 ≤ r.length) ns rows) (pre : List α) :
    List.zipWith (fun n off => slice (off - n - 1) (off - 1) (pre ++ rows.flatten)) ns
        (cumsum pre.length (rows.map List.length)) =
      List.zipWith (fun n r => slice (r.length - n - 1) (r.length - 1) r) ns rows := by
  induction h generalizing pre with
  | nil => rfl
  | @cons n r ns rows hn _ ih =>
      have ih := ih (pre ++ r)
      rw [List.length_append, List.append_assoc] at ih
      have hr : slice (pre.length + r.length - n - 1) (pre.length + r.length - 1)
          (pre ++ (r ++ rows.flatten)) = slice (r.length - n - 1) (r.length - 1) r := by
        have e1 : pre.length + r.length - n - 1 = pre.length + (r.length - n - 1) := by omega
        have e2 : pre.length + r.length - 1 = pre.length + (r.length - 1) := by omega
        rw [e1, e2, slice_append_right, slice_append_left (by omega)]
      simp only [List.map_cons, cumsum, List.zipWith_cons_cons, List.flatten_cons, hr]
      rw [ih]

theorem zipWith_flatten (f : α → β → γ) {xss : List (List α)} {yss : List (List β)}
    (h : List.Forall₂ (fun xs ys => xs.length = ys.length) xss yss) :
    List.zipWith f xss.flatten yss.flatten = (List.zipWith (List.zipWith f) xss yss).flatten := by
  induction h with
  | nil => rfl
  | cons hl _ ih =>
      rw [List.flatten_cons, List.flatten_cons, List.zipWith_append hl, ih]
      rfl

/-! ### Labels of packed rows -/

/-- Each row moved one place to the left; its last place takes the first entry of the rows
behind it, and `w` behind the last row. -/
def shiftRows (w : α) : List (List α) → List (List α)
  | [] => []
  | r :: rows => (r.tail ++ (rows.flatten ++ [w]).take 1) :: shiftRows w rows

theorem tail_flatten_append {rows : List (List α)} (h : ∀ r ∈ rows, r ≠ []) (w : α) :
    (rows.flatten ++ [w]).tail = (shiftRows w rows).flatten := by
  induction rows with
  | nil => rfl
  | cons r rows ih =>
      have ih := ih fun s hs => h s (List.mem_cons_of_mem _ hs)
      obtain ⟨x, r, rfl⟩ := List.exists_cons_of_ne_nil (h r List.mem_cons_self)
      have hw : (rows.flatten ++ [w]).take 1 ++ (rows.flatten ++ [w]).tail = rows.flatten ++ [w] := by
        rw [← List.drop_one, List.take_append_drop]
      rw [shiftRows, List.flatten_cons, List.flatten_cons, ← ih, List.append_assoc,
        List.append_assoc, hw]
      rfl

/-- Moving the packed values one place to the left moves every row, up to its last place. -/
theorem rotate_flatten {rows : List (List α)} (h : ∀ r ∈ rows, r ≠ []) :
    rows = [] ∨ ∃ w, rows.flatten.rotate 1 = (shiftRows w rows).flatten := by
  rcases rows with _ | ⟨r, rows⟩
  · exact .inl rfl
  · obtain ⟨x, r, rfl⟩ := List.exists_cons_of_ne_nil (h r List.mem_cons_self)
    refine .inr ⟨x, ?_⟩
    rw [← tail_flatten_append h x]
    simp

/-- Rows that all start with one entry are moved each by itself. -/
theorem rotate_flatten_of_head {a : α} {rows : List (List α)} (h : ∀ r ∈ rows, r.head? = some a) :
    rows.flatten.rotate 1 = (rows.map fun r => r.tail ++ [a]).flatten := by
  have hne : ∀ r ∈ rows, r ≠ [] := by
    rintro r hr rfl
    cases h [] hr
  have hshift : ∀ rs : List (List α), (∀ r ∈ rs, r.head? = some a) →
      shiftRows a rs = rs.map fun r => r.tail ++ [a] := by
    intro rs
    induction rs with
    | nil => exact fun _ => rfl
    | cons r rs ih =>
        intro hrs
        have htake : (rs.flatten ++ [a]).take 1 = [a] := by
          cases rs with
          | nil => rfl
          | cons s rs =>
              obtain ⟨t, rfl⟩ := List.head?_eq_some_iff.mp
                (hrs s (List.mem_cons_of_mem _ List.mem_cons_self))
              rfl
        rw [shiftRows, htake, ih fun s hs => hrs s (List.mem_cons_of_mem _ hs), List.map_cons]
  cases rows with
  | nil => rfl
  | cons r rows =>
      obtain ⟨t, rfl⟩ := List.head?_eq_some_iff.mp (h r List.mem_cons_self)
      rw [← hshift _ h, ← tail_flatten_append hne a]
      simp

/-! ### Scores of a row after a prefix -/

/-- A prefix of a numbered list is the prefix, numbered. -/
theorem take_zipIdx (xs : List α) (k t : ℕ) : (xs.zipIdx k).take t = (xs.take t).zipIdx k := by
  induction xs generalizing k t with
  | nil => simp
  | cons x xs ih => cases t with
    | zero => rfl
    | succ t => simp [ih]

/-- The scores of the entries of `rest`, each after the entries before it. -/
def scores (next : List α → α → β) : List α → List α → List β
  | _, [] => []
  | ctx, x :: rest => next ctx x :: scores next (ctx ++ [x]) rest

/-- The non-empty prefixes of a row, shortest first. -/
def prefixes (xs : List α) : List (List α) := (List.range xs.length).map fun j => xs.take (j + 1)

@[simp] theorem length_prefixes (xs : List α) : (prefixes xs).length = xs.length := by
  simp [prefixes]

@[simp] theorem length_scores (next : List α → α → β) (ctx rest : List α) :
    (scores next ctx rest).length = rest.length := by
  induction rest generalizing ctx with
  | nil => rfl
  | cons x rest ih => simp [scores, ih]

theorem getElem?_scores (next : List α → α → β) (ctx rest : List α) (t : ℕ) :
    (scores next ctx rest)[t]? = rest[t]?.map (next (ctx ++ rest.take t)) := by
  induction rest generalizing ctx t with
  | nil => simp [scores]
  | cons x rest ih => cases t with
    | zero => simp [scores]
    | succ t => simp [scores, ih]

/-- The scores of one packed row against its moved labels: the window that starts one place
before the end of the prefix and ends one place before the end of the row holds the scores of
the entries after the prefix. -/
theorem slice_scores (next : List α → α → β) {ctx : List α} (hctx : ctx ≠ []) (rest last : List α) :
    slice (ctx.length - 1) (ctx.length + rest.length - 1)
        (List.zipWith next (prefixes (ctx ++ rest)) ((ctx ++ rest).tail ++ last)) =
      scores next ctx rest := by
  have hpos : 0 < ctx.length := List.length_pos_of_ne_nil hctx
  refine List.ext_getElem? fun t => ?_
  rw [getElem?_slice, getElem?_scores]
  by_cases ht : t < rest.length
  · rw [if_pos (by omega), List.getElem?_zipWith]
    have e : ctx.length - 1 + t + 1 = ctx.length + t := by omega
    have hp : (prefixes (ctx ++ rest))[ctx.length - 1 + t]? = some (ctx ++ rest.take t) := by
      rw [prefixes, List.getElem?_map, List.getElem?_range (by simp; omega), Option.map_some, e,
        List.take_length_add_append]
    have hl : ((ctx ++ rest).tail ++ last)[ctx.length - 1 + t]? = rest[t]? := by
      rw [List.getElem?_append_left (by simp; omega), List.getElem?_tail, e,
        List.getElem?_append_right (by omega), Nat.add_sub_cancel_left]
    rw [hp, hl, List.getElem?_eq_getElem ht]
    rfl
  · rw [if_neg (by omega), List.getElem?_eq_none (by omega), Option.map_none]

/-- The scores of packed rows against one list of labels: every place is scored after the
entries of its own row up to it. -/
def packedScores (next : List α → γ → β) (rows : List (List α)) (labels : List γ) : List β :=
  List.zipWith next (rows.flatMap prefixes) labels

theorem length_packedScores (next : List α → γ → β) (rows : List (List α)) (labels : List γ)
    (h : labels.length = rows.flatten.length) :
    (packedScores next rows labels).length = rows.flatten.length := by
  have hp : (rows.flatMap prefixes).length = rows.flatten.length := by
    simp [List.length_flatMap, List.length_flatten]
  rw [packedScores, List.length_zipWith, hp, h, Nat.min_self]

theorem packedScores_shiftRows (next : List α → α → β) (w : α) (rows : List (List α))
    (h : ∀ r ∈ rows, r ≠ []) :
    packedScores next rows (shiftRows w rows).flatten =
      (List.zipWith (List.zipWith next) (rows.map prefixes) (shiftRows w rows)).flatten := by
  rw [packedScores, List.flatMap_def]
  refine zipWith_flatten next ?_
  induction rows with
  | nil => exact .nil
  | cons r rows ih =>
      refine .cons ?_ (ih fun s hs => h s (List.mem_cons_of_mem _ hs))
      have hr : 0 < r.length := List.length_pos_of_ne_nil (h r List.mem_cons_self)
      rw [length_prefixes, List.length_append, List.length_tail, List.length_take,
        List.length_append, List.length_singleton]
      omega

/-- **Packed scoring.**  Rows that are a non-empty prefix followed by a remainder are packed and
scored against the packed values moved one place to the left.  Read back through the running row
lengths, the window of each remainder, moved one place to the left, holds the scores of that
remainder after its own prefix. -/
theorem windows_packedScores (next : List α → α → β) (parts : List (List α × List α))
    (hpre : ∀ p ∈ parts, p.1 ≠ []) {rows : List (List α)}
    (hrows : rows = parts.map fun p => p.1 ++ p.2) :
    List.zipWith (fun n off => slice (off - n - 1) (off - 1)
        (packedScores next rows (rows.flatten.rotate 1)))
      (parts.map fun p => p.2.length) (cumsum 0 (rows.map List.length)) =
    parts.map fun p => scores next p.1 p.2 := by
  have hne : ∀ r ∈ rows, r ≠ [] := by
    intro r hr
    rw [hrows] at hr
    obtain ⟨p, hp, rfl⟩ := List.mem_map.mp hr
    exact List.append_ne_nil_of_left_ne_nil (hpre p hp) _
  rcases rotate_flatten hne with hnil | ⟨w, hw⟩
  · have hparts : parts = [] := by
      rw [hrows] at hnil
      exact List.map_eq_nil_iff.mp hnil
    subst hparts
    rfl
  rw [hw, packedScores_shiftRows next w rows hne]
  -- the scored rows have the lengths of the rows, so the offsets are those of the scored rows
  have hlen : rows.map List.length =
      (List.zipWith (List.zipWith next) (rows.map prefixes) (shiftRows w rows)).map
        List.length := by
    clear hw hrows
    induction rows with
    | nil => rfl
    | cons r rows ih =>
        have hr : 0 < r.length := List.length_pos_of_ne_nil (hne r List.mem_cons_self)
        have ih := ih fun s hs => hne s (List.mem_cons_of_mem _ hs)
        simp only [List.map_cons, shiftRows, List.zipWith_cons_cons, ← ih]
        simp
        omega
  rw [hlen]
  have hfit : List.Forall₂ (fun n r => n + 1 ≤ r.length) (parts.map fun p => p.2.length)
      (List.zipWith (List.zipWith next) (rows.map prefixes) (shiftRows w rows)) := by
    clear hlen hw hne
    subst hrows
    induction parts with
    | nil => exact .nil
    | cons p parts ih =>
        refine .cons ?_ (ih fun q hq => hpre q (List.mem_cons_of_mem _ hq))
        have hp : 0 < p.1.length := List.length_pos_of_ne_nil (hpre p List.mem_cons_self)
        simp
        omega
  rw [← List.nil_append (List.flatten _), ← List.length_nil (α := β), map_slice_flatten hfit []]
  clear hfit hlen hw hne
  subst hrows
  induction parts with
  | nil => rfl
  | cons p parts ih =>
      have ih := ih fun q hq => hpre q (List.mem_cons_of_mem _ hq)
      have hp : 0 < p.1.length := List.length_pos_of_ne_nil (hpre p List.mem_cons_self)
      simp only [List.map_cons, shiftRows, List.zipWith_cons_cons, ih]
      rw [← slice_scores next (hpre p List.mem_cons_self) p.2
        (((parts.map fun p => p.1 ++ p.2).flatten ++ [w]).take 1)]
      congr 2 <;> simp <;> omega

/-! ### Scored rows, packed in any groups -/

/-- The scores of a row against its entries moved one place to the left, with some label at its
last place. -/
def ScoresRow (next : List α → α → β) (r : List α) (out : List β) : Prop :=
  ∃ x, out = List.zipWith next (prefixes r) (r.tail ++ [x])

theorem ScoresRow.length_eq {next : List α → α → β} {r : List α} {out : List β} (hr : r ≠ [])
    (h : ScoresRow next r out) : out.length = r.length := by
  obtain ⟨x, rfl⟩ := h
  have hpos := List.length_pos_of_ne_nil hr
  simp
  omega

theorem map_length_of_scoresRow {next : List α → α → β} {rows : List (List α)}
    {outs : List (List β)} (hne : ∀ r ∈ rows, r ≠ [])
    (h : List.Forall₂ (ScoresRow next) rows outs) :
    outs.map List.length = rows.map List.length := by
  induction h with
  | nil => rfl
  | cons hout _ ih =>
      rw [List.map_cons, List.map_cons, hout.length_eq (hne _ List.mem_cons_self),
        ih fun r hr => hne r (List.mem_cons_of_mem _ hr)]

/-- Packed scores are those of the rows. -/
theorem exists_packedScores (next : List α → α → β) {rows : List (List α)}
    (hne : ∀ r ∈ rows, r ≠ []) : ∃ outs, packedScores next rows (rows.flatten.rotate 1) =
      outs.flatten ∧ List.Forall₂ (ScoresRow next) rows outs := by
  rcases rotate_flatten hne with rfl | ⟨w, hw⟩
  · exact ⟨[], rfl, .nil⟩
  refine ⟨_, by rw [hw, packedScores_shiftRows next w rows hne], ?_⟩
  clear hw hne
  induction rows with
  | nil => exact .nil
  | cons r rows ih =>
      refine .cons ?_ ih
      obtain ⟨y, ys, hy⟩ := List.exists_cons_of_ne_nil (List.append_ne_nil_of_right_ne_nil
        rows.flatten (List.cons_ne_nil w []))
      exact ⟨y, by rw [hy]; rfl⟩

/-- The scores of a row, up to its last place, are those after its first entry. -/
theorem ScoresRow.eq_append {next : List α → α → β} {x : α} {rest : List α} {out : List β}
    (h : ScoresRow next (x :: rest) out) : ∃ z, out = scores next [x] rest ++ [z] := by
  have hlen := h.length_eq (List.cons_ne_nil x rest)
  obtain ⟨y, rfl⟩ := h
  have hwindow := slice_scores next (List.cons_ne_nil x []) rest [y]
  rw [List.singleton_append, List.length_singleton] at hwindow
  generalize List.zipWith next (prefixes (x :: rest)) ((x :: rest).tail ++ [y]) = out at hlen hwindow
  rw [List.length_cons] at hlen
  rw [slice, Nat.sub_self, List.drop_zero, Nat.sub_zero, Nat.add_sub_cancel_left] at hwindow
  have hlast : (out.drop rest.length).length = 1 := by
    rw [List.length_drop]
    omega
  obtain ⟨z, hz⟩ := List.length_eq_one_iff.mp hlast
  refine ⟨z, ?_⟩
  rw [← hwindow, ← hz, List.take_append_drop]

/-- **The windows of scored rows.**  However the rows were grouped to be scored, the window of
each remainder holds its scores after its own prefix. -/
theorem windows_of_scoresRow {next : List α → α → β} {parts : List (List α × List α)}
    (hpre : ∀ p ∈ parts, p.1 ≠ []) {outs : List (List β)}
    (h : List.Forall₂ (fun p out => ScoresRow next (p.1 ++ p.2) out) parts outs) :
    List.zipWith (fun n off => slice (off - n - 1) (off - 1) outs.flatten)
        (parts.map fun p => p.2.length) (cumsum 0 (outs.map List.length)) =
      parts.map fun p => scores next p.1 p.2 := by
  have hlen : ∀ {p : List α × List α} {out : List β}, p.1 ≠ [] → ScoresRow next (p.1 ++ p.2) out →
      out.length = p.1.length + p.2.length := fun hp hout => by
    rw [hout.length_eq (List.append_ne_nil_of_left_ne_nil hp _), List.length_append]
  have hfit : List.Forall₂ (fun n r => n + 1 ≤ r.length) (parts.map fun p => p.2.length) outs := by
    induction h with
    | nil => exact .nil
    | @cons p out parts outs hout _ ih =>
        have hp := hpre p List.mem_cons_self
        have hpos := List.length_pos_of_ne_nil hp
        have hfit : p.2.length + 1 ≤ out.length := by
          rw [hlen hp hout]
          omega
        exact .cons hfit (ih fun q hq => hpre q (List.mem_cons_of_mem _ hq))
  rw [← List.nil_append (List.flatten _), ← List.length_nil (α := β), map_slice_flatten hfit []]
  clear hfit
  induction h with
  | nil => rfl
  | @cons p out parts outs hout _ ih =>
      have hp := hpre p List.mem_cons_self
      have hpos := List.length_pos_of_ne_nil hp
      rw [List.map_cons, List.map_cons, List.zipWith_cons_cons,
        ih fun q hq => hpre q (List.mem_cons_of_mem _ hq), hlen hp hout]
      obtain ⟨x, rfl⟩ := hout
      rw [← slice_scores next hp p.2 [x]]
      congr 2
      omega

end Ragged
