import ExtpiRlsd.Lib.Checked

/-! # Loops that stop early

A loop over a list whose rounds may fail and may break: `run` returns the last state and the
entries that were not read.  A collecting loop (`Collects`) skips some entries, keeps what it
builds from the others, and breaks when what it has kept reaches a limit.  As the test comes after
an entry is kept, the loop keeps one entry also under the limit zero: it keeps the first `quota` of
them (`Collects.run_eq_ok`), and it succeeds when these can be built (`Collects.exists_run`).
`Collects.exists_accounts_iff` puts the two together for what a loop is to account for. -/

namespace EarlyExit

open Checked

variable {α β σ ε : Type*}

/-- A round goes on or breaks. -/
inductive Flow (σ : Type*) where
  | next (s : σ)
  | stop (s : σ)

/-- The last state and the entries not read. -/
def run (step : σ → α → Except ε (Flow σ)) : σ → List α → Except ε (σ × List α)
  | s, [] => .ok (s, [])
  | s, x :: xs => (step s x).bind fun
    | .next s' => run step s' xs
    | .stop s' => .ok (s', xs)

/-- The first entries up to a limit, all of them without one. -/
def atMost (limit : Option ℕ) (xs : List α) : List α :=
  match limit with
  | none => xs
  | some k => xs.take k

theorem mem_of_mem_atMost {limit : Option ℕ} {x : α} {xs : List α} (h : x ∈ atMost limit xs) :
    x ∈ xs := by
  cases limit with
  | none => exact h
  | some k => exact List.mem_of_mem_take h

theorem atMost_zero (xs : List α) : atMost (some 0) xs = [] := rfl

/-- How many more entries a loop keeps that has kept `n`. -/
def quota (limit : Option ℕ) (n : ℕ) : Option ℕ := limit.map fun k => max 1 (k - n)

theorem atMost_quota_nil (limit : Option ℕ) (n : ℕ) :
    atMost (quota limit n) ([] : List α) = [] := by
  cases limit <;> simp [atMost, quota]

/-- Another entry is kept, and the loop breaks when the limit is reached. -/
theorem atMost_quota_cons (limit : Option ℕ) (n : ℕ) (x : α) (xs : List α) :
    atMost (quota limit n) (x :: xs) = x :: if limit.any (· ≤ n + 1) then []
      else atMost (quota limit (n + 1)) xs := by
  cases limit with
  | none => rfl
  | some k =>
      simp only [atMost, quota, Option.map_some, Option.any_some, decide_eq_true_eq]
      split_ifs with h
      · have hone : max 1 (k - n) = 1 := by omega
        rw [hone, List.take_succ_cons, List.take_zero]
      · have hsucc : max 1 (k - n) = max 1 (k - (n + 1)) + 1 := by omega
        rw [hsucc, List.take_succ_cons]

/-- A limit other than zero is kept by a loop that starts empty. -/
theorem atMost_quota_zero {limit : Option ℕ} {xs : List α} (h : limit = some 0 → xs = []) :
    atMost (quota limit 0) xs = atMost limit xs := by
  cases limit with
  | none => rfl
  | some k => cases k with
    | zero => rw [h rfl, atMost_quota_nil, atMost_zero]
    | succ k => simp [atMost, quota]

theorem eq_nil_of_atMost_quota_zero {xs : List α} (h : atMost (quota (some 0) 0) xs = []) :
    xs = [] := by
  cases xs with
  | nil => rfl
  | cons x xs => simp [atMost, quota] at h

/-- A loop that builds something of the eligible entries and counts what it keeps. -/
structure Collects (step : σ → α → Except ε (Flow σ)) (eligible : α → Bool)
    (build : α → Except ε β) (limit : Option ℕ) (size : σ → ℕ) (skip : σ → σ)
    (keep : σ → β → σ) : Prop where
  skip_eq : ∀ s x, eligible x = false → step s x = .ok (.next (skip s))
  keep_eq : ∀ s x, eligible x = true → step s x = (build x).bind fun y =>
    .ok (if limit.any (· ≤ size (keep s y)) then .stop (keep s y) else .next (keep s y))
  size_skip : ∀ s, size (skip s) = size s
  size_keep : ∀ s y, size (keep s y) = size s + 1

namespace Collects
variable {step : σ → α → Except ε (Flow σ)} {eligible : α → Bool} {build : α → Except ε β}
  {limit : Option ℕ} {size : σ → ℕ} {skip : σ → σ} {keep : σ → β → σ}
  (h : Collects step eligible build limit size skip keep)
include h

/-- The entries read are a first part of the list, and the eligible ones among them are as many
as the loop may keep.  `P` is an invariant of the entries read, what was built, and the state. -/
theorem run_eq_ok (P : List α → List β → σ → Prop)
    (hskip : ∀ read ys s x, P read ys s → eligible x = false → P (read ++ [x]) ys (skip s))
    (hkeep : ∀ read ys s x y, P read ys s → eligible x = true → build x = .ok y →
      P (read ++ [x]) (ys ++ [y]) (keep s y))
    {xs : List α} {s s' : σ} {rest : List α} (h0 : P [] [] s)
    (hrun : run step s xs = .ok (s', rest)) :
    ∃ read ys, xs = read ++ rest ∧ P read ys s' ∧
      List.Forall₂ (fun x y => build x = .ok y)
        (atMost (quota limit (size s)) (xs.filter eligible)) ys := by
  have hgen : ∀ (xs done : List α) (ys : List β) (s : σ), P done ys s →
      run step s xs = .ok (s', rest) → ∃ read zs, xs = read ++ rest ∧
        P (done ++ read) (ys ++ zs) s' ∧ List.Forall₂ (fun x y => build x = .ok y)
          (atMost (quota limit (size s)) (xs.filter eligible)) zs := by
    intro xs
    induction xs with
    | nil =>
        intro done ys s hP hrun
        cases hrun
        refine ⟨[], [], rfl, ?_, ?_⟩
        · rwa [List.append_nil, List.append_nil]
        · rw [List.filter_nil, atMost_quota_nil]
          exact .nil
    | cons x xs ih =>
        intro done ys s hP hrun
        obtain ⟨flow, hstep, hflow⟩ := bind_eq_ok_iff.mp hrun
        cases hx : eligible x with
        | false =>
            rw [h.skip_eq s x hx] at hstep
            obtain rfl := Except.ok.inj hstep
            obtain ⟨read, zs, hread, hP', hbuilt⟩ :=
              ih (done ++ [x]) ys (skip s) (hskip done ys s x hP hx) hflow
            refine ⟨x :: read, zs, by rw [hread, List.cons_append], ?_, ?_⟩
            · rwa [List.append_assoc] at hP'
            · rw [List.filter_cons_of_neg (by rw [hx]; exact Bool.false_ne_true), ← h.size_skip s]
              exact hbuilt
        | true =>
            rw [h.keep_eq s x hx] at hstep
            obtain ⟨y, hy, hstep⟩ := bind_eq_ok_iff.mp hstep
            rw [h.size_keep] at hstep
            rw [List.filter_cons_of_pos hx, atMost_quota_cons]
            have hP' := hkeep done ys s x y hP hx hy
            -- after an entry is kept the loop breaks or goes on
            split_ifs at hstep with hfull
            · obtain rfl := Except.ok.inj hstep
              obtain ⟨rfl, rfl⟩ := Prod.mk.inj (Except.ok.inj hflow)
              rw [if_pos hfull]
              exact ⟨[x], [y], rfl, hP', .cons hy .nil⟩
            · obtain rfl := Except.ok.inj hstep
              obtain ⟨read, zs, hread, hP'', hbuilt⟩ := ih _ _ _ hP' hflow
              rw [if_neg hfull]
              refine ⟨x :: read, y :: zs, by rw [hread, List.cons_append], ?_, .cons hy ?_⟩
              · rwa [List.append_assoc, List.append_assoc] at hP''
              · rwa [h.size_keep] at hbuilt
  exact hgen xs [] [] s h0 hrun

/-- The loop succeeds when what it keeps can be built. -/
theorem exists_run {xs : List α} {s : σ}
    (hbuild : ∀ x ∈ atMost (quota limit (size s)) (xs.filter eligible), ∃ y, build x = .ok y) :
    ∃ r, run step s xs = .ok r := by
  induction xs generalizing s with
  | nil => exact ⟨_, rfl⟩
  | cons x xs ih =>
      rw [run]
      cases hx : eligible x with
      | false =>
          rw [List.filter_cons_of_neg (by rw [hx]; exact Bool.false_ne_true),
            ← h.size_skip s] at hbuild
          rw [h.skip_eq s x hx]
          exact ih hbuild
      | true =>
          rw [List.filter_cons_of_pos hx, atMost_quota_cons] at hbuild
          obtain ⟨y, hy⟩ := hbuild x List.mem_cons_self
          have hstep : step s x = .ok (if limit.any (· ≤ size s + 1) then .stop (keep s y)
              else .next (keep s y)) := by
            rw [h.keep_eq s x hx, hy, ← h.size_keep s y]
            rfl
          rw [hstep]
          split_ifs at hbuild ⊢ with hfull
          · exact ⟨_, rfl⟩
          · refine ih fun z hz => hbuild z (List.mem_cons_of_mem _ ?_)
            rwa [h.size_keep] at hz

/-- A loop that starts empty returns and accounts for its entries exactly when it keeps the limit
and everything up to the limit can be built, for an account that a returned state gives exactly
when the limit is kept. -/
theorem exists_accounts_iff {xs : List α} {s : σ} {accounts : σ → List α → Prop}
    (hsize : size s = 0)
    (hkept : ∀ s' rest, run step s xs = .ok (s', rest) →
      (accounts s' rest ↔ (limit = some 0 → xs.filter eligible = [])))
    (hbuilt : ∀ s' rest, accounts s' rest →
      ∀ x ∈ atMost limit (xs.filter eligible), ∃ y, build x = .ok y) :
    (∃ s' rest, run step s xs = .ok (s', rest) ∧ accounts s' rest) ↔
      (limit = some 0 → xs.filter eligible = []) ∧
        ∀ x ∈ atMost limit (xs.filter eligible), ∃ y, build x = .ok y := by
  constructor
  · rintro ⟨s', rest, hrun, haccounts⟩
    exact ⟨(hkept s' rest hrun).mp haccounts, hbuilt s' rest haccounts⟩
  · rintro ⟨hlimit, hbuild⟩
    obtain ⟨⟨s', rest⟩, hrun⟩ : ∃ r, run step s xs = .ok r := by
      apply h.exists_run
      rwa [hsize, atMost_quota_zero hlimit]
    exact ⟨s', rest, hrun, (hkept s' rest hrun).mpr hlimit⟩

end Collects

end EarlyExit
