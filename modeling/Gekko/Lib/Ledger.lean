import Mathlib.Algebra.Group.Int.Defs
import Gekko.Lib.Machine

/-!
# `Gekko.Lib.Ledger` — levels that are only drawn on

A ledger keeps a level under every key, and beside it the total that has been drawn from it. A draw is enabled
when the level covers its amount. Nothing else is asked of an amount: a negative one raises the level.

The two facts that any run has: level and total drawn of a key always add up to the same (`conserved`), and
a level that starts non-negative stays so (`level_nonneg`). Together they bound what can be drawn
(`drawn_le`).
-/

namespace Ledger

open Machine

variable {κ : Type*}

structure State (κ : Type*) where
  level : κ → Int
  drawn : κ → Int

structure Draw (κ : Type*) where
  key : κ
  amount : Int

variable [DecidableEq κ]

/-- Take the amount from the level under the key. -/
def State.draw (s : State κ) (d : Draw κ) : State κ where
  level := Function.update s.level d.key (s.level d.key - d.amount)
  drawn := Function.update s.drawn d.key (s.drawn d.key + d.amount)

def step (s : State κ) (d : Draw κ) : Option (State κ) :=
  if d.amount ≤ s.level d.key then some (s.draw d) else none

variable {s t : State κ} {d : Draw κ} {ds : List (Draw κ)}

theorem step_eq_some (h : step s d = some t) : d.amount ≤ s.level d.key ∧ t = s.draw d := by
  unfold step at h
  split at h
  · rename_i hle
    exact ⟨hle, (Option.some.inj h).symm⟩
  · cases h

theorem draw_conserved (s : State κ) (d : Draw κ) (k : κ) :
    (s.draw d).level k + (s.draw d).drawn k = s.level k + s.drawn k := by
  by_cases hk : k = d.key
  · subst hk
    simp only [State.draw, Function.update_self]
    omega
  · simp only [State.draw, Function.update_of_ne hk]

/-- **Nothing is created and nothing is lost.** -/
theorem conserved (h : run step s ds = some t) (k : κ) : t.level k + t.drawn k = s.level k + s.drawn k := by
  refine run_invariant (I := fun u => u.level k + u.drawn k = s.level k + s.drawn k) ?_ rfl h
  intro u d u' hu hstep
  obtain ⟨-, rfl⟩ := step_eq_some hstep
  exact (draw_conserved u d k).trans hu

/-- A draw that is enabled leaves a non-negative level. -/
theorem level_nonneg {k : κ} (hs : 0 ≤ s.level k) (h : run step s ds = some t) : 0 ≤ t.level k := by
  refine run_invariant (I := fun u => 0 ≤ u.level k) ?_ hs h
  intro u d u' hu hstep
  obtain ⟨hle, rfl⟩ := step_eq_some hstep
  by_cases hk : k = d.key
  · subst hk
    simp only [State.draw, Function.update_self]
    omega
  · simp only [State.draw, Function.update_of_ne hk]
    exact hu

/-- What a run draws from a key is at most what was there. -/
theorem drawn_le {k : κ} (hs : 0 ≤ s.level k) (h : run step s ds = some t) :
    t.drawn k ≤ s.level k + s.drawn k := by
  have htotal := conserved h k
  have hlevel := level_nonneg hs h
  omega

end Ledger
