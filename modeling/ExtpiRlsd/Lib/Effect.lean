import Mathlib

/-! # Computations that keep their effects when they raise

A computation in `EStateM` that raises has still changed the state.  `wp x Q s` says that `x`
started in `s` ends, by a return or by a raise, with an outcome and a state that satisfy `Q`; the
rules below pass it through sequencing, through a `finally`, through a part of the state and
through a loop that works on the entries of a list in place.

`runAll` executes a list of operations one after the other, whatever each of them raises;
`runAll_invariant` is its invariant rule. -/

namespace Effects

variable {ε σ τ α β : Type}

/-- The state in which a computation ends. -/
def after (x : EStateM ε σ α) (s : σ) : σ :=
  match x.run s with
  | .ok _ s' => s'
  | .error _ s' => s'

/-- What a computation returns or raises. -/
def outcome (x : EStateM ε σ α) (s : σ) : Except ε α :=
  match x.run s with
  | .ok a _ => .ok a
  | .error e _ => .error e

/-- The computation ends with an outcome and a state that satisfy `Q`. -/
def wp (x : EStateM ε σ α) (Q : Except ε α → σ → Prop) (s : σ) : Prop :=
  Q (outcome x s) (after x s)

/-! ### Rules -/

section rules
variable {Q Q' : Except ε α → σ → Prop} {s : σ}

theorem wp_mono {x : EStateM ε σ α} (h : wp x Q s) (hQ : ∀ r s', Q r s' → Q' r s') : wp x Q' s :=
  hQ _ _ h

theorem run_eq_ok_iff {x : EStateM ε σ α} {a : α} {s' : σ} :
    x.run s = .ok a s' ↔ outcome x s = .ok a ∧ after x s = s' := by
  unfold outcome after
  cases x.run s with
  | ok b t =>
      simp only [EStateM.Result.ok.injEq, Except.ok.injEq]
  | error e t => simp

theorem wp_modify {f : σ → σ} {Q : Except ε PUnit → σ → Prop} :
    wp (modify f : EStateM ε σ PUnit) Q s ↔ Q (.ok ⟨⟩) (f s) := Iff.rfl

theorem wp_get_bind {f : σ → EStateM ε σ α} : wp (get >>= f) Q s ↔ wp (f s) Q s := Iff.rfl

theorem wp_bind {x : EStateM ε σ β} {f : β → EStateM ε σ α} :
    wp (x >>= f) Q s ↔ wp x (fun r s' => match r with
      | .ok b => wp (f b) Q s'
      | .error e => Q (.error e) s') s := by
  simp only [wp, outcome, after, EStateM.run, bind, EStateM.bind]
  cases x s with
  | ok b s' => rfl
  | error e s' => rfl

/-- A computation that raises nothing is followed by the rest. -/
theorem wp_bind_ok {x : EStateM ε σ β} {f : β → EStateM ε σ α}
    (h : wp x (fun r s' => ∃ b, r = .ok b ∧ wp (f b) Q s') s) : wp (x >>= f) Q s := by
  rw [wp_bind]
  refine wp_mono h ?_
  rintro _ s' ⟨b, rfl, hb⟩
  exact hb

/-- The cleanup runs after a return and after a raise, and its own raise wins. -/
theorem wp_finally {x : EStateM ε σ α} {cleanup : EStateM ε σ β} :
    wp (tryFinally x cleanup) Q s ↔ wp x (fun r s' => wp cleanup (fun r' s'' => match r' with
      | .ok _ => Q r s''
      | .error e => Q (.error e) s'') s') s := by
  simp only [wp, outcome, after, EStateM.run, tryFinally, tryFinally', Functor.map, EStateM.map]
  cases x s with
  | ok a s' => cases hcleanup : cleanup s' with
    | ok b s'' => simp only [hcleanup]
    | error e s'' => simp only [hcleanup]
  | error e s' => cases hcleanup : cleanup s' with
    | ok b s'' => simp only [hcleanup]
    | error e' s'' => simp only [hcleanup]

/-- Renaming the errors. -/
theorem wp_adaptExcept {ε' : Type} {f : ε → ε'} {x : EStateM ε σ α}
    {Q : Except ε' α → σ → Prop} {s : σ} :
    wp (EStateM.adaptExcept f x) Q s ↔ wp x (fun r s' => Q (r.mapError f) s') s := by
  simp only [wp, outcome, after, EStateM.run, EStateM.adaptExcept]
  cases x s with
  | ok a s' => rfl
  | error e s' => rfl

end rules

/-! ### A part of the state -/

/-- A computation on a part of the state. -/
def onPart (part : σ → τ) (put : τ → σ → σ) (x : EStateM ε τ α) : EStateM ε σ α := fun s =>
  match x.run (part s) with
  | .ok a t => .ok a (put t s)
  | .error e t => .error e (put t s)

theorem wp_onPart {part : σ → τ} {put : τ → σ → σ} {x : EStateM ε τ α}
    {Q : Except ε α → σ → Prop} {s : σ} :
    wp (onPart part put x) Q s ↔ wp x (fun r t => Q r (put t s)) (part s) := by
  simp only [wp, outcome, after, EStateM.run, onPart]
  cases x (part s) with
  | ok a t => rfl
  | error e t => rfl

/-! ### Loops that count -/

/-- Runs `f` in place on the entries of a list up to the first raise and adds up its counts. -/
def forEach (f : EStateM ε σ ℕ) : EStateM ε (List σ) ℕ
  | [] => .ok 0 []
  | s :: rest => match f.run s with
    | .error e s' => .error e (s' :: rest)
    | .ok n s' => match forEach f rest with
      | .error e rest' => .error e (s' :: rest')
      | .ok m rest' => .ok (n + m) (s' :: rest')

/-- Runs `f` for the entries of a list up to the first raise and adds up its counts. -/
def sumOver (f : α → EStateM ε σ ℕ) : List α → EStateM ε σ ℕ
  | [] => pure 0
  | a :: rest => do
      let n ← f a
      let m ← sumOver f rest
      return n + m

/-- Where `f` returns on every entry, so does the loop; a count of zero is zero on every entry. -/
theorem wp_forEach {f : EStateM ε σ ℕ} {R : ℕ → σ → σ → Prop} {xs : List σ}
    (h : ∀ s ∈ xs, wp f (fun r s' => ∃ n, r = .ok n ∧ R n s s') s) :
    wp (forEach f) (fun r xs' => ∃ n, r = .ok n ∧
      List.Forall₂ (fun s s' => ∃ m, m ≤ n ∧ R m s s') xs xs') xs := by
  induction xs with
  | nil => exact ⟨0, rfl, .nil⟩
  | cons s rest ih =>
      obtain ⟨n, hn, hR⟩ := h s List.mem_cons_self
      obtain ⟨m, hm, hrest⟩ := ih fun t ht => h t (List.mem_cons_of_mem _ ht)
      simp only [wp, outcome, after, EStateM.run, forEach] at hn hR hm hrest ⊢
      cases hf : f s with
      | error e s' =>
          rw [hf] at hn
          cases hn
      | ok n' s' =>
          rw [hf] at hn hR
          obtain rfl := Except.ok.inj hn
          cases hloop : forEach f rest with
          | error e rest' =>
              rw [hloop] at hm
              cases hm
          | ok m' rest' =>
              rw [hloop] at hm hrest
              obtain rfl := Except.ok.inj hm
              refine ⟨n' + m', rfl, .cons ⟨n', by omega, hR⟩ (hrest.imp ?_)⟩
              rintro t t' ⟨l, hl, hRl⟩
              exact ⟨l, by omega, hRl⟩

/-- The loop over a list of arguments, by an invariant that knows the arguments done so far and
the count. -/
theorem wp_sumOver {f : α → EStateM ε σ ℕ} {xs : List α} (P : List α → ℕ → σ → Prop)
    (step : ∀ done a n s, done ++ [a] <+: xs → P done n s →
      wp (f a) (fun r s' => ∃ m, r = .ok m ∧ P (done ++ [a]) (n + m) s') s)
    {s : σ} (h0 : P [] 0 s) :
    wp (sumOver f xs) (fun r s' => ∃ n, r = .ok n ∧ P xs n s') s := by
  have hgen : ∀ (rest done : List α) (k : ℕ) (s : σ), done ++ rest = xs → P done k s →
      wp (sumOver f rest) (fun r s' => ∃ n, r = .ok n ∧ P xs (k + n) s') s := by
    intro rest
    induction rest with
    | nil =>
        intro done k s hxs h
        rw [List.append_nil] at hxs
        exact ⟨0, rfl, hxs ▸ h⟩
    | cons a rest ih =>
        intro done k s hxs h
        have hsplit : (done ++ [a]) ++ rest = xs := by rw [List.append_assoc]; exact hxs
        refine wp_bind_ok (wp_mono (step done a k s ⟨rest, hsplit⟩ h) ?_)
        rintro _ s' ⟨m, rfl, hm⟩
        refine ⟨m, rfl, wp_bind_ok (wp_mono (ih (done ++ [a]) (k + m) s' hsplit hm) ?_)⟩
        rintro _ s'' ⟨n, rfl, hn⟩
        refine ⟨n, rfl, m + n, rfl, ?_⟩
        rwa [Nat.add_assoc] at hn
  refine wp_mono (hgen xs [] 0 s rfl h0) ?_
  rintro _ s' ⟨n, rfl, hn⟩
  refine ⟨n, rfl, ?_⟩
  rwa [Nat.zero_add] at hn

/-! ### Runs -/

/-- The state after a list of operations; what an operation raises ends that operation only. -/
def runAll (exec : β → EStateM ε σ α) (ops : List β) (s : σ) : σ :=
  ops.foldl (fun s op => after (exec op) s) s

@[simp] theorem runAll_nil (exec : β → EStateM ε σ α) (s : σ) : runAll exec [] s = s := rfl

@[simp] theorem runAll_append_singleton (exec : β → EStateM ε σ α) (ops : List β) (op : β) (s : σ) :
    runAll exec (ops ++ [op]) s = after (exec op) (runAll exec ops s) := by
  simp [runAll]

/-- The invariant rule: what every operation keeps holds after every list of them. -/
theorem runAll_invariant {exec : β → EStateM ε σ α} (P : σ → Prop)
    (step : ∀ op s, P s → wp (exec op) (fun _ s' => P s') s) (ops : List β) {s : σ} (h : P s) :
    P (runAll exec ops s) := by
  induction ops generalizing s with
  | nil => exact h
  | cons op ops ih => exact ih (step op s h)

end Effects
