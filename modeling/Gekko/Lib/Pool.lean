import Mathlib.Algebra.BigOperators.Fin
import Mathlib.Algebra.Order.BigOperators.Group.Finset


/-! # `Gekko.Lib.Pool` — a list whose members change one at a time

A pool of concurrent activities is a list: an activity joins at the end and is identified by its index,
and a step replaces the activity at one index. These are the facts that carry an invariant over such a
step: a property of all members, a property of the indexed members, and a sum over the members. The last
one bounds the sum over one pool by the sum over another into which its members are matched.
-/

namespace Pool

variable {β : Type*} {l : List β} {i j : Nat} {x y z : β}

theorem forall_mem_set {P : β → Prop} (h : ∀ z ∈ l, P z) (hy : P y) : ∀ z ∈ l.set i y, P z := by
  intro z hz
  rcases List.mem_or_eq_of_mem_set hz with hz | rfl
  · exact h z hz
  · exact hy

theorem forall_mem_append_singleton {P : β → Prop} (h : ∀ z ∈ l, P z) (hy : P y) :
    ∀ z ∈ l ++ [y], P z := by
  intro z hz
  rcases List.mem_append.mp hz with hz | hz
  · exact h z hz
  · rw [List.mem_singleton.mp hz]
    exact hy

/-- A member after a replacement is the new one, at its index, or an old one at another index. -/
theorem getElem?_set_cases (h : (l.set i y)[j]? = some z) : (j = i ∧ z = y) ∨ (j ≠ i ∧ l[j]? = some z) := by
  by_cases hij : j = i
  · subst hij
    obtain ⟨hlt, -⟩ := List.getElem?_eq_some_iff.mp h
    rw [List.length_set] at hlt
    rw [List.getElem?_set_self hlt] at h
    exact Or.inl ⟨rfl, (Option.some.inj h).symm⟩
  · rw [List.getElem?_set_ne (Ne.symm hij)] at h
    exact Or.inr ⟨hij, h⟩

/-- A member after an arrival is the new one, at the end, or an old one. -/
theorem getElem?_append_cases (h : (l ++ [y])[j]? = some z) :
    (j = l.length ∧ z = y) ∨ l[j]? = some z := by
  rcases Nat.lt_trichotomy j l.length with hlt | heq | hgt
  · rw [List.getElem?_append_left hlt] at h
    exact Or.inr h
  · subst heq
    rw [List.getElem?_append_right (Nat.le_refl _), Nat.sub_self] at h
    exact Or.inl ⟨rfl, (Option.some.inj h).symm⟩
  · rw [List.getElem?_append_right (Nat.le_of_lt hgt), List.getElem?_eq_none] at h
    · cases h
    · simp only [List.length_singleton]
      omega

/-- A replacement by a related member relates every member to the one that now has its index. -/
theorem exists_getElem?_set {R : β → β → Prop} (hrefl : ∀ x, R x x) (hx : l[j]? = some x)
    (hy : l[i]? = some y) (hyz : R y z) : ∃ w, (l.set i z)[j]? = some w ∧ R x w := by
  obtain ⟨hlt, -⟩ := List.getElem?_eq_some_iff.mp hx
  by_cases hij : i = j
  · subst hij
    rw [hx] at hy
    cases hy
    exact ⟨z, List.getElem?_set_self hlt, hyz⟩
  · exact ⟨x, (List.getElem?_set_ne hij).trans hx, hrefl x⟩

theorem getElem?_append_of_some (hx : l[j]? = some x) : (l ++ [y])[j]? = some x := by
  obtain ⟨hlt, -⟩ := List.getElem?_eq_some_iff.mp hx
  exact (List.getElem?_append_left hlt).trans hx

/-- Replacing one member changes a sum by the difference. -/
theorem sum_map_set (f : β → Int) (h : l[i]? = some x) :
    ((l.set i y).map f).sum = (l.map f).sum + (f y - f x) := by
  induction l generalizing i with
  | nil => cases h
  | cons z l ih =>
      cases i with
      | zero =>
          cases h
          simp only [List.set_cons_zero, List.map_cons, List.sum_cons]
          omega
      | succ i =>
          rw [List.getElem?_cons_succ] at h
          simp only [List.set_cons_succ, List.map_cons, List.sum_cons, ih h]
          omega

theorem sum_map_append_singleton (f : β → Int) :
    ((l ++ [y]).map f).sum = (l.map f).sum + f y := by
  rw [List.map_append, List.sum_append, List.map_singleton, List.sum_singleton]

theorem sum_map_eq_sum_get (f : β → Int) : (l.map f).sum = ∑ i : Fin l.length, f (l.get i) :=
  (Fin.sum_univ_fun_getElem l f).symm

/-- **Bounding by an injection.** When the members that count are matched one to one with members of another
    pool that weigh at least as much, the sum over the first is at most the sum over the second. -/
theorem sum_map_le_of_injective {γ : Type*} {m : List γ} {g : β → Int} {w : γ → Int}
    {P : Fin l.length → Prop} {f : {i : Fin l.length // P i} → Fin m.length} (hf : Function.Injective f)
    (hle : ∀ i, g (l.get i.1) ≤ w (m.get (f i))) (hrest : ∀ i, ¬ P i → g (l.get i) ≤ 0)
    (hnonneg : ∀ y ∈ m, 0 ≤ w y) : (l.map g).sum ≤ (m.map w).sum := by
  classical
  calc (l.map g).sum
      = ∑ i : {i // P i}, g (l.get i.1) + ∑ i : {i // ¬ P i}, g (l.get i.1) := by
        rw [sum_map_eq_sum_get]
        exact (Fintype.sum_subtype_add_sum_subtype P fun i => g (l.get i)).symm
    _ ≤ ∑ i : {i // P i}, g (l.get i.1) := by
        have hnonpos : ∑ i : {i // ¬ P i}, g (l.get i.1) ≤ 0 :=
          Finset.sum_nonpos fun i _ => hrest i.1 i.2
        omega
    _ ≤ ∑ i : {i // P i}, w (m.get (f i)) := Finset.sum_le_sum fun i _ => hle i
    _ = ∑ j ∈ Finset.univ.map ⟨f, hf⟩, w (m.get j) := by
        rw [Finset.sum_map]
        rfl
    _ ≤ ∑ j : Fin m.length, w (m.get j) :=
        Finset.sum_le_sum_of_subset_of_nonneg (Finset.subset_univ _)
          fun j _ _ => hnonneg _ (List.get_mem m j)
    _ = (m.map w).sum := (sum_map_eq_sum_get w).symm

end Pool
