import Mathlib.Data.List.Basic
import Gekko.Lib.Pool


/-! # `Gekko.Lib.Ancestry` — members of a list that were caused by earlier members

A log of activities in which each names the earlier one that it was started by, or none. Following the
names leads from every member to one that was started by nothing, and whatever passes from a member to
those that it starts passes from there to all that descend from it.
-/

namespace Ancestry

variable {β : Type*} (parent : β → Option Nat)

/-- A parent comes before its children. -/
def Ordered (l : List β) : Prop := ∀ (i : Nat) (x : β), l[i]? = some x → ∀ j, parent x = some j → j < i

/-- Following the parents leads from member `i` to member `k`. -/
inductive Descends (l : List β) : Nat → Nat → Prop where
  | refl (i : Nat) : Descends l i i
  | step {i j k : Nat} {x : β} (hx : l[i]? = some x) (hparent : parent x = some j) (h : Descends l j k) :
      Descends l i k

variable {parent} {l : List β} {i j k : Nat} {x y : β}

theorem ordered_append (h : Ordered parent l) (hy : ∀ j, parent y = some j → j < l.length) :
    Ordered parent (l ++ [y]) := by
  intro i x hx
  rcases Pool.getElem?_append_cases hx with ⟨rfl, rfl⟩ | hold
  · exact hy
  · exact h i x hold

/-- **Every member descends from one without a parent.** -/
theorem exists_root (hordered : Ordered parent l) (hx : l[i]? = some x) :
    ∃ k r, Descends parent l i k ∧ l[k]? = some r ∧ parent r = none := by
  induction i using Nat.strong_induction_on generalizing x with
  | _ i ih =>
      cases hparent : parent x with
      | none => exact ⟨i, x, .refl i, hx, hparent⟩
      | some j =>
          have hlt := hordered i x hx j hparent
          obtain ⟨hi, -⟩ := List.getElem?_eq_some_iff.mp hx
          have hj : l[j]? = some l[j] := List.getElem?_eq_getElem (hlt.trans hi)
          obtain ⟨k, r, hdescends, hr, hroot⟩ := ih j hlt hj
          exact ⟨k, r, .step hx hparent hdescends, hr, hroot⟩

/-- **The inheritance rule**: what a member hands on to those that it starts reaches all its descendants. -/
theorem Descends.inherit {P : β → Prop}
    (hpass : ∀ (i j : Nat) (x y : β), l[i]? = some x → parent x = some j → l[j]? = some y → P y → P x)
    (h : Descends parent l i k) (hy : l[k]? = some y) (hP : P y) (hx : l[i]? = some x) : P x := by
  induction h generalizing x with
  | refl i =>
      rw [hx] at hy
      cases hy
      exact hP
  | @step i j k z hz hparent h ih =>
      rw [hx] at hz
      cases hz
      -- The parent is there, since the way goes on from it.
      have hj : ∃ w, l[j]? = some w := by
        cases h with
        | refl => exact ⟨y, hy⟩
        | step hw _ _ => exact ⟨_, hw⟩
      obtain ⟨w, hw⟩ := hj
      exact hpass i j _ w hx hparent hw (ih hy hw)

end Ancestry
