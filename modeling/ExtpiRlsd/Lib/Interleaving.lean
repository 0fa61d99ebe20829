import Mathlib

/-! # Interleavings

Parties that share nothing: each has a state and a step function of its own, and the world takes
a step when one party does.  An invariant that every party keeps by itself holds in every world
that some interleaving reaches (`forall_of_reachable`). -/

namespace Interleaving

variable {ι σ ε : Type*} [DecidableEq ι] (step : ι → σ → ε → Option σ)

/-- Party `i` takes a step, where it can. -/
def worldStep (world : ι → σ) (i : ι) (event : ε) : Option (ι → σ) :=
  (step i (world i) event).map (Function.update world i)

/-- The worlds that some interleaving of steps leads to. -/
inductive Reachable (init : ι → σ) : (ι → σ) → Prop where
  | initial : Reachable init init
  | step {world world' : ι → σ} {i : ι} {event : ε} :
      Reachable init world → worldStep step world i event = some world' → Reachable init world'

/-- The world after the steps of a schedule, as long as they can be taken. -/
def run (world : ι → σ) : List (ι × ε) → Option (ι → σ)
  | [] => some world
  | (i, event) :: rest => (worldStep step world i event).bind fun world' => run world' rest

variable {step} {init world world' : ι → σ}

theorem worldStep_eq_some {i : ι} {event : ε} (h : worldStep step world i event = some world') :
    ∃ s, step i (world i) event = some s ∧ world' = Function.update world i s := by
  obtain ⟨s, hs, rfl⟩ := Option.map_eq_some_iff.mp h
  exact ⟨s, hs, rfl⟩

/-- The invariant rule: what each party has at first and keeps by its own steps, it has whatever
the others do. -/
theorem forall_of_reachable (I : ι → σ → Prop) (h0 : ∀ i, I i (init i))
    (hstep : ∀ i s event s', I i s → step i s event = some s' → I i s')
    (h : Reachable step init world) (i : ι) : I i (world i) := by
  induction h generalizing i with
  | initial => exact h0 i
  | @step world world' j event _ hworld ih =>
      obtain ⟨s, hs, rfl⟩ := worldStep_eq_some hworld
      by_cases hi : i = j
      · subst hi
        rw [Function.update_self]
        exact hstep i (world i) event s (ih i) hs
      · rw [Function.update_of_ne hi]
        exact ih i

theorem reachable_of_run (h : Reachable step init world) {schedule : List (ι × ε)}
    (hrun : run step world schedule = some world') : Reachable step init world' := by
  induction schedule generalizing world with
  | nil =>
      obtain rfl := Option.some.inj hrun
      exact h
  | cons next rest ih =>
      obtain ⟨middle, hmiddle, hrest⟩ := Option.bind_eq_some_iff.mp hrun
      exact ih (h.step hmiddle) hrest

end Interleaving
