import Mathlib

/-! # Balanced bins by differencing

Items are spread over bins by merging partial distributions pairwise.  A queue of distributions
is reduced by taking its two least entries and putting their merge back (`mergeAll`); what two
merged parts satisfy, the last one satisfies (`mergeAll_related`).

Two distributions are merged with the fullest bin of one on the emptiest bin of the other.  The
difference between two bins does not grow (`Within.zipWith_reverse`), and a bin stays empty only
as long as no bin holds two items (`Filled.zipWith_reverse`).

A bound on the differences bounds every bin by the average (`Within.mul_le`), and so against
any other distribution of the same items (`Within.mul_le_mul`). -/

namespace Differencing

/-! ### The queue -/

section queue
variable {α : Type*} (lt : α → α → Bool)

/-- The first least entry of a queue, and the rest. -/
def popMin : List α → Option (α × List α)
  | [] => none
  | x :: xs =>
      match popMin xs with
      | none => some (x, [])
      | some (m, rest) => if lt m x then some (m, x :: rest) else some (x, xs)

variable {lt}

theorem popMin_eq_none {q : List α} (h : popMin lt q = none) : q = [] := by
  cases q with
  | nil => rfl
  | cons x xs =>
      rw [popMin] at h
      cases hxs : popMin lt xs with
      | none => simp [hxs] at h
      | some p =>
          simp only [hxs] at h
          split_ifs at h

theorem popMin_perm {q : List α} {m : α} {rest : List α} (h : popMin lt q = some (m, rest)) :
    (m :: rest).Perm q := by
  induction q generalizing m rest with
  | nil => cases h
  | cons x xs ih =>
      rw [popMin] at h
      cases hxs : popMin lt xs with
      | none =>
          rw [hxs] at h
          cases h
          rw [popMin_eq_none hxs]
      | some p =>
          obtain ⟨m', rest'⟩ := p
          simp only [hxs] at h
          split_ifs at h with hlt
          · cases h
            exact (List.Perm.swap x m rest').trans ((ih hxs).cons x)
          · cases h
            exact List.Perm.refl _

variable (lt) (merge : α → α → α)

/-- `n` rounds, each of which merges the two least entries, unless one is left. -/
def mergeAll : ℕ → List α → List α
  | 0, q => q
  | n + 1, q =>
      match popMin lt q with
      | none => q
      | some (a, rest) =>
          match popMin lt rest with
          | none => q
          | some (b, rest') => mergeAll n (merge a b :: rest')

variable {M : Type*} [AddCommMonoid M] {R : M → α → Prop}

/-- What holds of the entries with their parts, and of a merge with the sum of the two parts,
holds of the one entry that is left with the sum of all parts. -/
theorem mergeAll_related (hmerge : ∀ {m n a b}, R m a → R n b → R (m + n) (merge a b)) :
    ∀ (n : ℕ) {ms : List M} {q : List α}, List.Forall₂ R ms q → q ≠ [] → q.length ≤ n + 1 →
      ∃ a, mergeAll lt merge n q = [a] ∧ R ms.sum a
  | 0, ms, q, h, hne, hlen => by
      obtain ⟨a, rfl⟩ := List.length_eq_one_iff.mp
        (le_antisymm hlen (List.length_pos_iff.mpr hne))
      obtain ⟨m, ms', hm, hms, rfl⟩ := List.forall₂_cons_right_iff.mp h
      rw [List.forall₂_nil_right_iff.mp hms, List.sum_singleton]
      exact ⟨a, rfl, hm⟩
  | n + 1, ms, q, h, hne, hlen => by
      rw [mergeAll]
      cases hq : popMin lt q with
      | none => exact absurd (popMin_eq_none hq) hne
      | some p =>
          obtain ⟨a, rest⟩ := p
          have hperm := popMin_perm hq
          cases hrest : popMin lt rest with
          | none =>
              rw [popMin_eq_none hrest] at hperm
              obtain rfl := List.singleton_perm.mp hperm
              obtain ⟨m, ms', hm, hms, rfl⟩ := List.forall₂_cons_right_iff.mp h
              rw [List.forall₂_nil_right_iff.mp hms, List.sum_singleton]
              exact ⟨a, by simp only [hrest], hm⟩
          | some p' =>
              obtain ⟨b, rest'⟩ := p'
              simp only [hrest]
              have hperm' : (a :: b :: rest').Perm q := ((popMin_perm hrest).cons a).trans hperm
              obtain ⟨ms', hms', hsums⟩ := List.perm_comp_forall₂ hperm' h.flip
              obtain ⟨m₁, ms₁, h₁, hms₁, rfl⟩ := List.forall₂_cons_left_iff.mp hms'
              obtain ⟨m₂, ms₂, h₂, hrel, rfl⟩ := List.forall₂_cons_left_iff.mp hms₁
              have hlen' : (merge a b :: rest').length ≤ n + 1 := by
                have := hperm'.length_eq
                simp only [List.length_cons] at this ⊢
                omega
              obtain ⟨c, hc, hsum⟩ := mergeAll_related hmerge n
                (.cons (hmerge h₁ h₂) hrel.flip) (List.cons_ne_nil _ _) hlen'
              refine ⟨c, hc, ?_⟩
              rw [List.sum_cons, add_assoc, ← List.sum_cons, ← List.sum_cons,
                hsums.sum_eq] at hsum
              exact hsum

end queue

/-! ### The bins -/

section bins

/-- Any two values differ by at most `d`. -/
def Within (d : ℤ) (xs : List ℤ) : Prop := ∀ x ∈ xs, ∀ y ∈ xs, x - y ≤ d

variable {d : ℤ} {xs ys : List ℤ}

theorem Within.perm (h : Within d xs) (hp : ys.Perm xs) : Within d ys :=
  fun x hx y hy => h x (hp.mem_iff.mp hx) y (hp.mem_iff.mp hy)

theorem Within.mono {e : ℤ} (h : Within d xs) (hde : d ≤ e) : Within e xs :=
  fun x hx y hy => (h x hx y hy).trans hde

/-- Two entries of a list zipped with a reversed list: of two different places the order in one
list is the opposite of the order in the other. -/
theorem exists_opposite {α β γ : Type*} {f : α → β → γ} {as : List α} {bs : List β}
    {P : α → α → Prop} {Q : β → β → Prop} (hP : as.Pairwise P) (hQ : bs.Pairwise Q) {x y : γ}
    (hx : x ∈ List.zipWith f as bs.reverse) (hy : y ∈ List.zipWith f as bs.reverse) :
    ∃ a ∈ as, ∃ b ∈ bs, ∃ a' ∈ as, ∃ b' ∈ bs, x = f a b ∧ y = f a' b' ∧
      ((a = a' ∧ b = b') ∨ (P a a' ∧ Q b' b) ∨ (P a' a ∧ Q b b')) := by
  obtain ⟨i, hi, rfl⟩ := List.mem_iff_getElem.mp hx
  obtain ⟨j, hj, rfl⟩ := List.mem_iff_getElem.mp hy
  have hi' := hi
  have hj' := hj
  rw [List.length_zipWith, lt_min_iff] at hi' hj'
  have hrev : bs.reverse.Pairwise fun b b' => Q b' b := List.pairwise_reverse.mpr hQ
  refine ⟨as[i], List.getElem_mem hi'.1, bs.reverse[i], List.mem_reverse.mp (List.getElem_mem hi'.2),
    as[j], List.getElem_mem hj'.1, bs.reverse[j], List.mem_reverse.mp (List.getElem_mem hj'.2),
    List.getElem_zipWith, List.getElem_zipWith, ?_⟩
  rcases lt_trichotomy i j with h | rfl | h
  · exact .inr (.inl ⟨List.pairwise_iff_getElem.mp hP i j _ _ h,
      List.pairwise_iff_getElem.mp hrev i j _ _ h⟩)
  · exact .inl ⟨rfl, rfl⟩
  · exact .inr (.inr ⟨List.pairwise_iff_getElem.mp hP j i _ _ h,
      List.pairwise_iff_getElem.mp hrev j i _ _ h⟩)

/-- **The largest values of one list on the smallest of the other: the differences do not
grow.** -/
theorem Within.zipWith_reverse (hx : xs.Pairwise (fun a b => b ≤ a))
    (hy : ys.Pairwise (fun a b => b ≤ a)) (hxd : Within d xs) (hyd : Within d ys) :
    Within d (List.zipWith (· + ·) xs ys.reverse) := by
  intro x hx' y hy'
  obtain ⟨a, ha, b, hb, a', ha', b', hb', rfl, rfl, h⟩ := exists_opposite hx hy hx' hy'
  have hab := hxd a ha a' ha'
  have hbb := hyd b hb b' hb'
  rcases h with ⟨rfl, rfl⟩ | ⟨hle, hle'⟩ | ⟨hle, hle'⟩
  · have := hxd a ha a ha
    simpa using this
  · show a + b - (a' + b') ≤ d
    omega
  · show a + b - (a' + b') ≤ d
    omega

/-- No value exceeds the average by more than the bound allows. -/
theorem Within.mul_le (h : Within d xs) {x : ℤ} (hx : x ∈ xs) :
    xs.length * x ≤ xs.sum + (xs.length - 1) * d := by
  obtain ⟨front, back, rfl⟩ := List.append_of_mem hx
  have hrest : ∀ ys : List ℤ, (∀ y ∈ ys, x - y ≤ d) → ys.length * x ≤ ys.sum + ys.length * d := by
    intro ys hys
    induction ys with
    | nil => simp
    | cons y ys ih =>
        have hy := hys y List.mem_cons_self
        have := ih fun z hz => hys z (List.mem_cons_of_mem _ hz)
        rw [List.length_cons, List.sum_cons]
        push_cast
        linarith
  have hfront := hrest front fun y hy => h x hx y (by simp [hy])
  have hback := hrest back fun y hy => h x hx y (by simp [hy])
  simp only [List.length_append, List.length_cons, List.sum_append, List.sum_cons]
  push_cast
  linarith

/-- A distribution of the same total over as many bins has a bin that is, up to the factor
`2 - 1 / k`, as full as any bin of this one, when one of its bins reaches the bound. -/
theorem Within.mul_le_mul (h : Within d xs) {x : ℤ} (hx : x ∈ xs) (hlen : ys.length = xs.length)
    (hsum : ys.sum = xs.sum) (hd : ∃ y ∈ ys, d ≤ y) :
    ∃ y ∈ ys, xs.length * x ≤ (2 * xs.length - 1) * y := by
  obtain ⟨y₀, hy₀, hdy⟩ := hd
  have hne : ys ≠ [] := List.ne_nil_of_mem hy₀
  obtain ⟨y, hy, hmax⟩ : ∃ y ∈ ys, ∀ z ∈ ys, z ≤ y := by
    obtain ⟨y, hy⟩ := Option.isSome_iff_exists.mp (List.isSome_max?_of_mem hy₀)
    exact ⟨y, List.max?_mem hy, fun z hz => (List.max?_le_iff hy).mp le_rfl z hz⟩
  refine ⟨y, hy, (h.mul_le hx).trans ?_⟩
  have htotal : ys.sum ≤ ys.length * y := by
    simpa using List.sum_le_card_nsmul ys y hmax
  have hdy' : d ≤ y := hdy.trans (hmax y₀ hy₀)
  have hpos : (1 : ℤ) ≤ xs.length := by
    have := List.length_pos_of_mem hx
    omega
  rw [hlen, hsum] at htotal
  nlinarith [mul_le_mul_of_nonneg_left hdy' (sub_nonneg.mpr hpos)]

variable {ι : Type*} {as bs : List (List ι)}

/-- Every bin holds something, or no bin holds two things. -/
def Filled (bins : List (List ι)) : Prop := (∀ b ∈ bins, b ≠ []) ∨ ∀ b ∈ bins, b.length ≤ 1

theorem Filled.perm (h : Filled as) (hp : bs.Perm as) : Filled bs :=
  h.imp (fun h b hb => h b (hp.mem_iff.mp hb)) (fun h b hb => h b (hp.mem_iff.mp hb))

/-- **The first bins of one list on the last of the other, where no empty bin stands before a
filled one: a bin stays empty only as long as no bin holds two things.** -/
theorem Filled.zipWith_reverse
    (ha : as.Pairwise fun a b => b ≠ [] → a ≠ []) (hb : bs.Pairwise fun a b => b ≠ [] → a ≠ [])
    (hfa : Filled as) (hfb : Filled bs) : Filled (List.zipWith (· ++ ·) as bs.reverse) := by
  have hparts : ∀ x ∈ List.zipWith (· ++ ·) as bs.reverse, ∃ a ∈ as, ∃ b ∈ bs, x = a ++ b := by
    intro x hx
    obtain ⟨a, ha', b, hb', -, -, -, -, rfl, -, -⟩ := exists_opposite ha hb hx hx
    exact ⟨a, ha', b, hb', rfl⟩
  rcases hfa with hfa | hfa
  · refine .inl fun x hx => ?_
    obtain ⟨a, ha', b, -, rfl⟩ := hparts x hx
    simp [hfa a ha']
  rcases hfb with hfb | hfb
  · refine .inl fun x hx => ?_
    obtain ⟨a, -, b, hb', rfl⟩ := hparts x hx
    simp [hfb b hb']
  by_cases h : ∃ x ∈ List.zipWith (· ++ ·) as bs.reverse, x = []
  · obtain ⟨x, hx, hempty⟩ := h
    refine .inr fun y hy => ?_
    obtain ⟨a, ha', b, hb', a', ha'', b', hb'', rfl, rfl, horder⟩ := exists_opposite ha hb hx hy
    obtain ⟨rfl, rfl⟩ := List.append_eq_nil_iff.mp hempty
    have hla := hfa a' ha''
    have hlb := hfb b' hb''
    -- an entry with a thing from both sides would stand on both sides of the empty one
    rcases horder with ⟨rfl, rfl⟩ | ⟨h₁, -⟩ | ⟨-, h₂⟩
    · simp
    · have : a' = [] := by
        by_contra hne
        exact h₁ hne rfl
      simpa [this] using hlb
    · have : b' = [] := by
        by_contra hne
        exact h₂ hne rfl
      simpa [this] using hla
  · exact .inl fun x hx hnil => h ⟨x, hx, hnil⟩

/-- With at least as many things as bins no bin is empty. -/
theorem Filled.ne_nil (h : Filled as) (hcount : as.length ≤ as.flatten.length) :
    ∀ b ∈ as, b ≠ [] := by
  rcases h with h | h
  · exact h
  rintro b hb rfl
  obtain ⟨front, back, rfl⟩ := List.append_of_mem hb
  have hle : ∀ cs : List (List ι), (∀ b ∈ cs, b.length ≤ 1) → cs.flatten.length ≤ cs.length := by
    intro cs hcs
    rw [List.length_flatten]
    simpa using List.sum_le_card_nsmul (cs.map List.length) 1 (by simpa using hcs)
  have hfront := hle front fun b hb => h b (by simp [hb])
  have hback := hle back fun b hb => h b (by simp [hb])
  simp only [List.flatten_append, List.flatten_cons, List.nil_append, List.length_append,
    List.length_cons] at hcount
  omega

end bins

end Differencing
