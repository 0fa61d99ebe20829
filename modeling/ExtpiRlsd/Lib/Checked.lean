import Mathlib

/-! # Loops that may fail

A loop over a list in `Except` stops at its first error.  `mapM_eq_ok_iff` describes a
successful map entry by entry; `foldlM_invariant` is the invariant rule of a successful fold,
where the invariant speaks about the entries already visited.  `keep` is a filter whose test may
fail.

`Related` compares two runs: related results or the same error.  Where all failures are alike, a
map over a reordered list is such a reordered run (`mapM_perm`), and `mapM_columns_perm`
reads a table by rows or by columns. -/

namespace Checked

universe v

variable {α β σ ε : Type*}

theorem bind_eq_ok_iff {x : Except ε α} {f : α → Except ε β} {b : β} :
    x.bind f = .ok b ↔ ∃ a, x = .ok a ∧ f a = .ok b := by
  cases x with
  | error e => simp [Except.bind]
  | ok a => simp [Except.bind]

/-- The same of a bind in do-notation. -/
theorem do_eq_ok_iff {α β : Type v} {x : Except ε α} {f : α → Except ε β} {b : β} :
    (x >>= f) = .ok b ↔ ∃ a, x = .ok a ∧ f a = .ok b := bind_eq_ok_iff

theorem mapError_eq_ok_iff {ε' : Type*} {f : ε → ε'} {x : Except ε α} {a : α} :
    x.mapError f = .ok a ↔ x = .ok a := by
  cases x <;> simp [Except.mapError]

theorem elim_eq_ok_iff {x : Option α} {e : ε} {a : α} :
    x.elim (Except.error e) .ok = .ok a ↔ x = some a := by
  cases x <;> simp

/-- Behind a guard that throws the rest runs exactly when the condition of the guard fails. -/
theorem guard_eq_ok_iff {c : Prop} [Decidable c] {e : ε} {f : PUnit → Except ε β}
    {x : Except ε β} {b : β} :
    (if c then (throw e : Except ε PUnit) >>= f else x) = .ok b ↔ ¬ c ∧ x = .ok b := by
  by_cases h : c
  · simp [h, throw, throwThe, MonadExceptOf.throw, bind, Except.bind]
  · simp [h]

theorem mapM_eq_ok_iff {f : α → Except ε β} {xs : List α} {ys : List β} :
    xs.mapM f = .ok ys ↔ List.Forall₂ (fun x y => f x = .ok y) xs ys := by
  induction xs generalizing ys with
  | nil =>
      constructor
      · rintro h
        cases h
        exact .nil
      · rintro ⟨⟩
        rfl
  | cons x xs ih =>
      rw [List.mapM_cons]
      constructor
      · intro h
        obtain ⟨y, hy, h⟩ := bind_eq_ok_iff.mp h
        obtain ⟨zs, hzs, h⟩ := bind_eq_ok_iff.mp h
        cases h
        exact .cons hy (ih.mp hzs)
      · rintro (_ | ⟨hy, hys⟩)
        rw [hy, ih.mpr hys]
        rfl

theorem mapM_congr {f g : α → Except ε β} {xs : List α} (h : ∀ x ∈ xs, f x = g x) :
    xs.mapM f = xs.mapM g := by
  induction xs with
  | nil => rfl
  | cons x xs ih =>
      rw [List.mapM_cons, List.mapM_cons, h x List.mem_cons_self,
        ih fun y hy => h y (List.mem_cons_of_mem _ hy)]

/-- What stands beside an entry of the first list. -/
theorem exists_of_forall₂ {R : α → β → Prop} {xs : List α} {ys : List β}
    (h : List.Forall₂ R xs ys) {x : α} (hx : x ∈ xs) : ∃ y ∈ ys, R x y := by
  induction h with
  | nil => exact absurd hx List.not_mem_nil
  | cons hy _ ih =>
      rcases List.mem_cons.mp hx with rfl | hx
      · exact ⟨_, List.mem_cons_self, hy⟩
      · obtain ⟨y, hmem, hR⟩ := ih hx
        exact ⟨y, List.mem_cons_of_mem _ hmem, hR⟩

/-- What stands at one place of the two lists is related. -/
theorem of_forall₂_getElem? {R : α → β → Prop} {xs : List α} {ys : List β}
    (h : List.Forall₂ R xs ys) {i : ℕ} {x : α} {y : β} (hx : xs[i]? = some x)
    (hy : ys[i]? = some y) : R x y := by
  obtain ⟨hi, rfl⟩ := List.getElem?_eq_some_iff.mp hx
  obtain ⟨hi', rfl⟩ := List.getElem?_eq_some_iff.mp hy
  exact (List.forall₂_iff_get.mp h).2 i hi hi'

/-- A map that succeeds succeeds at every entry. -/
theorem exists_ok_of_mapM {f : α → Except ε β} {xs : List α} {ys : List β} (h : xs.mapM f = .ok ys)
    {x : α} (hx : x ∈ xs) : ∃ y, f x = .ok y := by
  obtain ⟨y, -, hy⟩ := exists_of_forall₂ (mapM_eq_ok_iff.mp h) hx
  exact ⟨y, hy⟩

/-- A map whose every step succeeds succeeds. -/
theorem exists_mapM_eq_ok {f : α → Except ε β} {R : α → β → Prop} {xs : List α}
    (h : ∀ x ∈ xs, ∃ y, f x = .ok y ∧ R x y) :
    ∃ ys, xs.mapM f = .ok ys ∧ List.Forall₂ R xs ys := by
  induction xs with
  | nil => exact ⟨[], rfl, .nil⟩
  | cons x xs ih =>
      obtain ⟨y, hy, hR⟩ := h x List.mem_cons_self
      obtain ⟨ys, hys, hRs⟩ := ih fun z hz => h z (List.mem_cons_of_mem _ hz)
      refine ⟨y :: ys, ?_, .cons hR hRs⟩
      rw [List.mapM_cons, hy, hys]
      rfl

/-- What every entry has an entry for, a whole list has a list for. -/
theorem exists_forall₂ {R : α → β → Prop} {ys : List β} (h : ∀ y ∈ ys, ∃ x, R x y) :
    ∃ xs, List.Forall₂ R xs ys := by
  induction ys with
  | nil => exact ⟨[], .nil⟩
  | cons y ys ih =>
      obtain ⟨x, hx⟩ := h y List.mem_cons_self
      obtain ⟨xs, hxs⟩ := ih fun z hz => h z (List.mem_cons_of_mem _ hz)
      exact ⟨x :: xs, .cons hx hxs⟩

/-- A map over entries that stand beside others gives results that stand beside them. -/
theorem exists_mapM_of_forall₂ {γ : Type*} {f : α → Except ε β} {R : γ → α → Prop}
    {S : γ → β → Prop} {zs : List γ} {xs : List α} (h : List.Forall₂ R zs xs)
    (hf : ∀ z x, R z x → ∃ y, f x = .ok y ∧ S z y) :
    ∃ ys, xs.mapM f = .ok ys ∧ List.Forall₂ S zs ys := by
  induction h with
  | nil => exact ⟨[], rfl, .nil⟩
  | @cons z x zs xs hR _ ih =>
      obtain ⟨y, hy, hS⟩ := hf z x hR
      obtain ⟨ys, hys, hSs⟩ := ih
      refine ⟨y :: ys, ?_, .cons hS hSs⟩
      rw [List.mapM_cons, hy, hys]
      rfl

/-- The invariant rule: what holds of no entries and the initial state, and is kept by every
successful step, holds of all entries and the final state. -/
theorem foldlM_invariant {f : σ → α → Except ε σ} (P : List α → σ → Prop)
    (step : ∀ done s a s', P done s → f s a = .ok s' → P (done ++ [a]) s')
    {xs : List α} {s s' : σ} (h0 : P [] s) (h : xs.foldlM f s = .ok s') : P xs s' := by
  have hgen : ∀ (xs done : List α) (s : σ), P done s → xs.foldlM f s = .ok s' →
      P (done ++ xs) s' := by
    intro xs
    induction xs with
    | nil =>
        intro done s hs h
        cases h
        rwa [List.append_nil]
    | cons a xs ih =>
        intro done s hs h
        rw [List.foldlM_cons] at h
        obtain ⟨t, ht, h⟩ := bind_eq_ok_iff.mp h
        have hrest := ih (done ++ [a]) t (step done s a t hs ht) h
        rwa [List.append_assoc] at hrest
  exact hgen xs [] s h0 h

/-- A fold whose every step succeeds succeeds. -/
theorem exists_foldlM_eq_ok {f : σ → α → Except ε σ} {xs : List α}
    (h : ∀ a ∈ xs, ∀ s, ∃ s', f s a = .ok s') (s : σ) : ∃ s', xs.foldlM f s = .ok s' := by
  induction xs generalizing s with
  | nil => exact ⟨s, rfl⟩
  | cons a xs ih =>
      obtain ⟨t, ht⟩ := h a List.mem_cons_self s
      obtain ⟨s', hs'⟩ := ih (fun b hb => h b (List.mem_cons_of_mem _ hb)) t
      refine ⟨s', ?_⟩
      rw [List.foldlM_cons, ht]
      exact hs'

/-! ### Two runs -/

/-- Both runs fail alike, or both succeed with related results. -/
inductive Related (R : α → β → Prop) : Except ε α → Except ε β → Prop where
  | ok {a : α} {b : β} (h : R a b) : Related R (.ok a) (.ok b)
  | error (e : ε) : Related R (.error e) (.error e)

namespace Related
variable {α' β' : Type*} {R : α → β → Prop} {x : Except ε α} {y : Except ε β}

theorem bind {S : α' → β' → Prop} {f : α → Except ε α'} {g : β → Except ε β'}
    (h : Related R x y) (hfg : ∀ a b, R a b → Related S (f a) (g b)) :
    Related S (x.bind f) (y.bind g) := by
  cases h with
  | ok hab => exact hfg _ _ hab
  | error e => exact .error e

theorem eq_of_eq {x y : Except ε α} (h : Related Eq x y) : x = y := by
  cases h with
  | ok hab => rw [hab]
  | error e => rfl

theorem refl {R : α → α → Prop} (hrefl : ∀ a, R a a) (x : Except ε α) : Related R x x := by
  cases x with
  | ok a => exact .ok (hrefl a)
  | error e => exact .error e

theorem trans {R : α → α → Prop} (htrans : ∀ a b c, R a b → R b c → R a c)
    {x y z : Except ε α} (hxy : Related R x y) (hyz : Related R y z) : Related R x z := by
  cases hxy with
  | ok hab =>
      cases hyz with
      | ok hbc => exact .ok (htrans _ _ _ hab hbc)
  | error e => exact hyz

end Related

/-- Where every failure is the same error, the order of the entries does not matter. -/
theorem mapM_perm {f : α → Except ε β} {e : ε} (hfail : ∀ x e', f x = .error e' → e' = e)
    {xs ys : List α} (hperm : xs.Perm ys) : Related List.Perm (xs.mapM f) (ys.mapM f) := by
  induction hperm with
  | nil => exact .ok .nil
  | cons x _ ih =>
      rw [List.mapM_cons, List.mapM_cons]
      exact (Related.refl (R := Eq) (fun _ => rfl) (f x)).bind fun y z hyz =>
        hyz ▸ ih.bind fun _ _ h => .ok (h.cons y)
  | swap x y xs =>
      simp only [List.mapM_cons]
      cases hx : f x with
      | error e₁ => cases hy : f y with
        | error e₂ =>
            rw [hfail x e₁ hx, hfail y e₂ hy]
            exact .error e
        | ok b => exact .error e₁
      | ok a => cases hy : f y with
        | error e₂ => exact .error e₂
        | ok b => cases xs.mapM f with
          | error e₃ => exact .error e₃
          | ok cs => exact .ok (.swap a b cs)
  | trans _ _ ih₁ ih₂ => exact ih₁.trans (fun _ _ _ h h' => h.trans h') ih₂

section table
variable {γ : Type*} {f : α → β → Except ε γ}

theorem flatMap_comm_perm (xs : List α) (ys : List β) (g : α → β → List γ) :
    (xs.flatMap fun a => ys.flatMap (g a)).Perm (ys.flatMap fun b => xs.flatMap fun a => g a b) := by
  induction xs with
  | nil => simp
  | cons x xs ih =>
      simp only [List.flatMap_cons]
      exact (ih.append_left _).trans (List.flatMap_append_perm ys (g x) _)

/-- The results of a map that succeeded. -/
theorem eq_flatMap_of_mapM {f : α → Except ε β} {xs : List α} {ys : List β}
    (h : xs.mapM f = .ok ys) : ys = xs.flatMap fun x => (f x).toOption.toList := by
  induction mapM_eq_ok_iff.mp h with
  | nil => rfl
  | cons hx hrest ih =>
      rw [List.flatMap_cons, hx, ← ih (mapM_eq_ok_iff.mpr hrest)]
      rfl

theorem flatten_eq_of_mapM {xs : List α} {ys : List β} {t : List (List γ)}
    (h : xs.mapM (fun a => ys.mapM (f a)) = .ok t) :
    t.flatten = xs.flatMap fun a => ys.flatMap fun b => (f a b).toOption.toList := by
  induction mapM_eq_ok_iff.mp h with
  | nil => rfl
  | cons hx hrest ih =>
      rw [List.flatten_cons, List.flatMap_cons, eq_flatMap_of_mapM hx,
        ih (mapM_eq_ok_iff.mpr hrest)]

/-- A table that is read by rows is read by columns as well, with the same entries. -/
theorem mapM_columns_perm {xs : List α} {ys : List β} {t : List (List γ)}
    (h : xs.mapM (fun a => ys.mapM (f a)) = .ok t) :
    ∃ t', ys.mapM (fun b => xs.mapM fun a => f a b) = .ok t' ∧ t.flatten.Perm t'.flatten := by
  have hentry : ∀ a ∈ xs, ∀ b ∈ ys, ∃ c, f a b = .ok c := by
    intro a ha b hb
    obtain ⟨row, hrow⟩ := exists_ok_of_mapM h ha
    exact exists_ok_of_mapM hrow hb
  have hcolumns : ∀ b ∈ ys, ∃ column, (xs.mapM fun a => f a b) = .ok column ∧ True := by
    intro b hb
    obtain ⟨column, hcolumn, -⟩ := exists_mapM_eq_ok (R := fun _ _ => True) fun a ha =>
      (hentry a ha b hb).imp fun c hc => ⟨hc, trivial⟩
    exact ⟨column, hcolumn, trivial⟩
  obtain ⟨t', ht', -⟩ := exists_mapM_eq_ok hcolumns
  refine ⟨t', ht', ?_⟩
  rw [flatten_eq_of_mapM h, flatten_eq_of_mapM (f := fun b a => f a b) ht']
  exact flatMap_comm_perm xs ys _

end table

section keep
variable {α ε : Type}

/-- The entries that pass a test, unless the test fails at one. -/
def keep (f : α → Except ε Bool) : List α → Except ε (List α)
  | [] => .ok []
  | x :: xs => do
      let b ← f x
      let ys ← keep f xs
      return if b then x :: ys else ys

/-- The test succeeds and the entry passes it. -/
def Passes (f : α → Except ε Bool) (x : α) : Bool :=
  match f x with
  | .ok b => b
  | .error _ => false

theorem passes_eq_true_iff {f : α → Except ε Bool} {x : α} :
    Passes f x = true ↔ f x = .ok true := by
  unfold Passes
  cases f x with
  | ok b => simp
  | error e => simp

theorem keep_eq_ok_iff {f : α → Except ε Bool} {xs ys : List α} :
    keep f xs = .ok ys ↔ (∀ x ∈ xs, ∃ b, f x = .ok b) ∧ ys = xs.filter (Passes f) := by
  induction xs generalizing ys with
  | nil =>
      constructor
      · intro h
        cases h
        exact ⟨fun x hx => absurd hx List.not_mem_nil, rfl⟩
      · rintro ⟨-, rfl⟩
        rfl
  | cons x xs ih =>
      constructor
      · intro h
        obtain ⟨b, hb, h⟩ := bind_eq_ok_iff.mp h
        obtain ⟨zs, hzs, h⟩ := bind_eq_ok_iff.mp h
        obtain ⟨hall, rfl⟩ := ih.mp hzs
        refine ⟨?_, ?_⟩
        · intro y hy
          rcases List.mem_cons.mp hy with rfl | hy
          · exact ⟨b, hb⟩
          · exact hall y hy
        · rw [← Except.ok.inj h, List.filter_cons, Passes, hb]
      · rintro ⟨hall, rfl⟩
        obtain ⟨b, hb⟩ := hall x List.mem_cons_self
        have hrest := ih.mpr ⟨fun y hy => hall y (List.mem_cons_of_mem _ hy), rfl⟩
        rw [keep, hb, hrest, List.filter_cons, Passes, hb]
        rfl

end keep

end Checked
