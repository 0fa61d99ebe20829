import ExtpiRlsd.Lib.Checked
import ExtpiRlsd.Lib.Tensor

/-! # Losses that are sums over rows

A loss of a batch is a sum over its rows when every row contributes by itself (`RowAdditive`).
The rows may then be shared out to ranks and micro-batches in any way: the mean over the ranks of
the sums over their micro-batches, each scaled by the number of ranks, is the loss of the whole
batch (`RowAdditive.mean_parts`).  A loss whose options are refused fails on every batch
(`AdditiveOrFails`); such losses are put together linearly. -/

namespace Tensors

variable {ι ρ α β ε : Type*}

namespace Tensor

/-- A tensor whose rows have the entries of the images of some rows has these images as rows. -/
theorem rows_eq_map {x : Tensor β} {rows : List α} {f : α → List β}
    (hlen : x.rows.length = rows.length)
    (h : ∀ i r, rows[i]? = some r → ∀ t, x.get? i t = (f r)[t]?) : x.rows = rows.map f := by
  refine List.ext_getElem? fun i => ?_
  rw [List.getElem?_map]
  cases hr : rows[i]? with
  | none =>
      rw [List.getElem?_eq_none_iff] at hr
      rw [List.getElem?_eq_none (by omega)]
      rfl
  | some r =>
      have hi : i < x.rows.length := by
        rw [hlen]
        exact (List.getElem?_eq_some_iff.mp hr).1
      rw [List.getElem?_eq_getElem hi, Option.map_some]
      refine congrArg some (List.ext_getElem? fun t => ?_)
      have hentry := h i r hr t
      rwa [get?, List.getElem?_eq_getElem hi, Option.bind_some] at hentry

theorem get?_of_row {x : Tensor α} {i : ℕ} {r : List α} (h : x.rows[i]? = some r) (t : ℕ) :
    x.get? i t = r[t]? := by
  rw [get?, h, Option.bind_some]

end Tensor

/-- The loss for `d` ranks is `d` times the sum of what the rows contribute. -/
def RowAdditive (loss : ℕ → List ρ → Except ε ℝ) (contribution : ρ → ℝ) : Prop :=
  ∀ d rows, loss d rows = .ok ((rows.map contribution).sum * d)

namespace RowAdditive
variable {loss : ℕ → List ρ → Except ε ℝ} {f : ρ → ℝ}

theorem sum_parts (h : RowAdditive loss f) {d : ℕ} {parts : List (List ρ)} {losses : List ℝ}
    (hlosses : List.Forall₂ (fun rows l => loss d rows = .ok l) parts losses) :
    losses.sum = (parts.flatten.map f).sum * d := by
  induction hlosses with
  | nil => simp
  | cons hl _ ih =>
      rw [List.sum_cons, ih, ← Except.ok.inj ((h _ _).symm.trans hl), List.flatten_cons,
        List.map_append, List.sum_append, add_mul]

/-- **The loss does not depend on how the rows are shared out.** -/
theorem mean_parts (h : RowAdditive loss f) {ranks : List (List (List ρ))} {whole : List ρ}
    (hperm : ranks.flatten.flatten.Perm whole) (hne : ranks ≠ []) {losses : List (List ℝ)}
    (hlosses : List.Forall₂ (List.Forall₂ fun rows l => loss ranks.length rows = .ok l)
      ranks losses) : loss 1 whole = .ok ((losses.map List.sum).sum / losses.length) := by
  have hsum : (losses.map List.sum).sum = (ranks.flatten.flatten.map f).sum * ranks.length := by
    generalize ranks.length = d at hlosses
    clear hne hperm
    induction hlosses with
    | nil => simp
    | cons hls _ ih =>
        rw [List.map_cons, List.sum_cons, ih, h.sum_parts hls, List.flatten_cons,
          List.flatten_append, List.map_append, List.sum_append, add_mul]
  have hlen : (ranks.length : ℝ) ≠ 0 :=
    Nat.cast_ne_zero.mpr (List.length_pos_of_ne_nil hne).ne'
  rw [h, hsum, ← hlosses.length_eq, mul_div_cancel_right₀ _ hlen, (hperm.map f).sum_eq,
    Nat.cast_one, mul_one]

end RowAdditive

/-- With any totals, the loss is a sum over rows; or it fails on every batch. -/
def AdditiveOrFails (loss : ι → ℕ → List ρ → Except ε ℝ) : Prop :=
  (∃ e, ∀ i d rows, loss i d rows = .error e) ∨ ∀ i, ∃ contribution, RowAdditive (loss i) contribution

theorem AdditiveOrFails.zero :
    AdditiveOrFails fun (_ : ι) (_ : ℕ) (_ : List ρ) => (.ok 0 : Except ε ℝ) :=
  .inr fun _ => ⟨fun _ => 0, fun d rows => by simp⟩

theorem AdditiveOrFails.linear {loss loss' loss'' : ι → ℕ → List ρ → Except ε ℝ}
    (h : AdditiveOrFails loss) (h' : AdditiveOrFails loss') (h'' : AdditiveOrFails loss'') (b c : ℝ) :
    AdditiveOrFails fun i d rows => (loss i d rows).bind fun x => (loss' i d rows).bind fun y =>
      (loss'' i d rows).bind fun z => .ok (x - b * y + z * c) := by
  rcases h with ⟨e, h⟩ | h
  · exact .inl ⟨e, fun i d rows => by simp only [h, Except.bind]⟩
  choose f h using h
  rcases h' with ⟨e, h'⟩ | h'
  · exact .inl ⟨e, fun i d rows => by simp only [h i d rows, h', Except.bind]⟩
  choose f' h' using h'
  rcases h'' with ⟨e, h''⟩ | h''
  · exact .inl ⟨e, fun i d rows => by simp only [h i d rows, h' i d rows, h'', Except.bind]⟩
  choose f'' h'' using h''
  refine .inr fun i => ⟨fun r => f i r - b * f' i r + f'' i r * c, fun d rows => ?_⟩
  have hsum : (rows.map fun r => f i r - b * f' i r + f'' i r * c).sum =
      (rows.map (f i)).sum - b * (rows.map (f' i)).sum + (rows.map (f'' i)).sum * c := by
    induction rows with
    | nil => simp
    | cons r rows ih =>
        simp only [List.map_cons, List.sum_cons, ih]
        ring
  simp only [h i d rows, h' i d rows, h'' i d rows, Except.bind, hsum]
  congr 1
  ring

end Tensors
