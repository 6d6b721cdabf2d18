import Mathlib.Data.List.Basic
import Mathlib.Data.List.Induction

/-!
# `Gekko.Lib.Machine` — runs of a guarded step function

A machine is a function `step : σ → α → Option σ`: action `a` is enabled in state `s` exactly when
`step s a` is `some`. One definition then serves to replay a concrete run and to reason about every run.

## Contents
- `run` — replay a list of actions, `none` as soon as one of them is disabled.
- `Along step G s as` — the condition `G` holds of every step that the run takes. It is the shape of a
  hypothesis about the actions of a run, and of a conclusion about the states they were taken in.
- `Takes step s as a u` — the run takes the action `a` in the state `u`. It is the shape of a conclusion about
  what a run must have done before.
- The induction rules: `run_invariant` (one predicate, kept by every step), `run_invariant_along` (kept by
  the steps that satisfy a condition), `run_history` (a predicate of the state and the actions that led to it)
  and `run_split` (two predicates, one before and one after the first step that violates the condition).
- `run_simulation` — every step of one machine is a run of another, so every run is.
-/

namespace Machine

variable {σ τ α β : Type*} {step : σ → α → Option σ}

/-- Replay `as` from `s`. -/
def run (step : σ → α → Option σ) : σ → List α → Option σ
  | s, [] => some s
  | s, a :: as => (step s a).bind fun s' => run step s' as

@[simp] theorem run_nil {s : σ} : run step s [] = some s := rfl

theorem run_cons {s : σ} {a : α} {as : List α} :
    run step s (a :: as) = (step s a).bind fun s' => run step s' as := rfl

theorem run_cons_eq_some {s t : σ} {a : α} {as : List α} :
    run step s (a :: as) = some t ↔ ∃ s', step s a = some s' ∧ run step s' as = some t := by
  rw [run_cons]
  exact Option.bind_eq_some_iff

theorem run_append {s : σ} {as bs : List α} :
    run step s (as ++ bs) = (run step s as).bind fun s' => run step s' bs := by
  induction as generalizing s with
  | nil => rfl
  | cons a as ih =>
      rw [List.cons_append, run_cons, run_cons]
      cases h : step s a with
      | none => rfl
      | some s' =>
          simp only [Option.bind_some]
          exact ih

theorem run_append_eq_some {s t u : σ} {as bs : List α} (h₁ : run step s as = some t)
    (h₂ : run step t bs = some u) : run step s (as ++ bs) = some u := by
  rw [run_append, h₁]
  exact h₂

/-- `G` holds of every step taken when `as` is replayed from `s`. -/
def Along (step : σ → α → Option σ) (G : σ → α → Prop) : σ → List α → Prop
  | _, [] => True
  | s, a :: as => G s a ∧ ∀ s', step s a = some s' → Along step G s' as

theorem along_cons {G : σ → α → Prop} {s s' : σ} {a : α} {as : List α} (h : step s a = some s') :
    Along step G s (a :: as) ↔ G s a ∧ Along step G s' as := by
  constructor
  · rintro ⟨hg, hrest⟩
    exact ⟨hg, hrest s' h⟩
  · rintro ⟨hg, hrest⟩
    refine ⟨hg, fun s'' h' => ?_⟩
    rw [h] at h'
    cases h'
    exact hrest

/-- A decidable condition can be checked along a given run. -/
instance decidableAlong {G : σ → α → Prop} [∀ s a, Decidable (G s a)] : ∀ s as, Decidable (Along step G s as)
  | _, [] => isTrue trivial
  | s, a :: as =>
      match h : step s a with
      | none =>
          decidable_of_iff (G s a) ⟨fun hg => ⟨hg, fun _ hs' => nomatch h.symm.trans hs'⟩, fun hg => hg.1⟩
      | some s' =>
          have : Decidable (Along step G s' as) := decidableAlong s' as
          decidable_of_iff (G s a ∧ Along step G s' as) (along_cons h).symm

/-- A condition on the actions alone holds along a run when it holds of each action. -/
theorem along_of_forall {G : α → Prop} {s : σ} {as : List α} (h : ∀ a ∈ as, G a) :
    Along step (fun _ a => G a) s as := by
  induction as generalizing s with
  | nil => trivial
  | cons a as ih =>
      refine ⟨h a List.mem_cons_self, fun s' _ => ?_⟩
      exact ih fun b hb => h b (List.mem_cons_of_mem _ hb)

/-- **The invariant rule**, for a predicate kept by every step that satisfies `G`. -/
theorem run_invariant_along {I : σ → Prop} {G : σ → α → Prop}
    (hstep : ∀ s a s', I s → G s a → step s a = some s' → I s')
    {s t : σ} {as : List α} (hs : I s) (hG : Along step G s as) (h : run step s as = some t) : I t := by
  induction as generalizing s with
  | nil =>
      cases h
      exact hs
  | cons a as ih =>
      obtain ⟨s', ha, hrun⟩ := run_cons_eq_some.mp h
      obtain ⟨hg, hrest⟩ := (along_cons ha).mp hG
      exact ih (hstep s a s' hs hg ha) hrest hrun

/-- The invariant rule, for a predicate kept by every step. -/
theorem run_invariant {I : σ → Prop} (hstep : ∀ s a s', I s → step s a = some s' → I s')
    {s t : σ} {as : List α} (hs : I s) (h : run step s as = some t) : I t := by
  induction as generalizing s with
  | nil =>
      cases h
      exact hs
  | cons a as ih =>
      obtain ⟨s', ha, hrun⟩ := run_cons_eq_some.mp h
      exact ih (hstep s a s' hs ha) hrun

/-! ## What a run has done -/

/-- Replaying `as` from `s` takes the action `a` in the state `u`. -/
def Takes (step : σ → α → Option σ) (s : σ) (as : List α) (a : α) (u : σ) : Prop :=
  ∃ before after, as = before ++ a :: after ∧ run step s before = some u

theorem Takes.append {s u : σ} {as : List α} {a : α} (h : Takes step s as a u) (bs : List α) :
    Takes step s (as ++ bs) a u := by
  obtain ⟨before, after, rfl, hrun⟩ := h
  refine ⟨before, after ++ bs, ?_, hrun⟩
  rw [List.append_assoc, List.cons_append]

theorem takes_last {s u : σ} {as : List α} (h : run step s as = some u) (a : α) :
    Takes step s (as ++ [a]) a u := ⟨as, [], rfl, h⟩

theorem Takes.mem {s u : σ} {as : List α} {a : α} (h : Takes step s as a u) : a ∈ as := by
  obtain ⟨before, after, rfl, -⟩ := h
  exact List.mem_append_right _ List.mem_cons_self

/-- **The history rule**, for a predicate of the state and of the actions that led to it. -/
theorem run_history {s : σ} {I : List α → σ → Prop} (hstart : I [] s)
    (hstep : ∀ as u a u', run step s as = some u → I as u → step u a = some u' → I (as ++ [a]) u')
    {t : σ} {as : List α} (h : run step s as = some t) : I as t := by
  induction as using List.reverseRecOn generalizing t with
  | nil =>
      cases h
      exact hstart
  | append_singleton as a ih =>
      rw [run_append] at h
      obtain ⟨u, hrun, hlast⟩ := Option.bind_eq_some_iff.mp h
      obtain ⟨t', ha, hnil⟩ := run_cons_eq_some.mp hlast
      cases hnil
      exact hstep as u a t hrun (ih hrun) ha

/-- **The splitting rule.** `I` is kept by the steps that satisfy `G` and turned into `J` by the
    others, and `J` is kept by every step. Then a run from an `I` state either satisfies `G` at
    every step and ends in a `I` state, or does neither and ends in an `J` state. `A` is what all
    steps satisfy. -/
theorem run_split {I J : σ → Prop} {A G : σ → α → Prop}
    (hkeep : ∀ s a s', I s → A s a → G s a → step s a = some s' → I s')
    (hbreak : ∀ s a s', I s → A s a → ¬ G s a → step s a = some s' → J s')
    (hafter : ∀ s a s', J s → A s a → step s a = some s' → J s')
    {s t : σ} {as : List α} (hs : I s) (hA : Along step A s as) (h : run step s as = some t) :
    (Along step G s as ∧ I t) ∨ (¬ Along step G s as ∧ J t) := by
  induction as generalizing s with
  | nil =>
      cases h
      exact Or.inl ⟨trivial, hs⟩
  | cons a as ih =>
      obtain ⟨s', ha, hrun⟩ := run_cons_eq_some.mp h
      obtain ⟨hAa, hArest⟩ := (along_cons ha).mp hA
      rw [along_cons ha]
      by_cases hg : G s a
      · rcases ih (hkeep s a s' hs hAa hg ha) hArest hrun with ⟨hrest, ht⟩ | ⟨hrest, ht⟩
        · exact Or.inl ⟨⟨hg, hrest⟩, ht⟩
        · exact Or.inr ⟨fun hb => hrest hb.2, ht⟩
      · have hs' : J s' := hbreak s a s' hs hAa hg ha
        exact Or.inr ⟨fun hb => hg hb.1, run_invariant_along hafter hs' hArest hrun⟩

/-- **The simulation rule.** When every step of a machine is matched, through the relation `R`, by a run of a
    second machine, so is every run. -/
theorem run_simulation {step' : τ → β → Option τ} {R : σ → τ → Prop}
    (hsim : ∀ s a s' u, R s u → step s a = some s' → ∃ bs u', run step' u bs = some u' ∧ R s' u')
    {s t : σ} {u : τ} {as : List α} (hR : R s u) (h : run step s as = some t) :
    ∃ bs v, run step' u bs = some v ∧ R t v := by
  induction as generalizing s u with
  | nil =>
      cases h
      exact ⟨[], u, rfl, hR⟩
  | cons a as ih =>
      obtain ⟨s', ha, hrun⟩ := run_cons_eq_some.mp h
      obtain ⟨bs₁, u₁, hrun₁, hR₁⟩ := hsim s a s' u hR ha
      obtain ⟨bs₂, v, hrun₂, hR₂⟩ := ih hR₁ hrun
      exact ⟨bs₁ ++ bs₂, v, run_append_eq_some hrun₁ hrun₂, hR₂⟩

end Machine
