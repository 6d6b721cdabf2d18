import Mathlib.Data.List.Basic
import Mathlib.Data.List.Forall2


/-! # `Gekko.Lib.LastWins` — a map that is filled entry by entry

A loop that puts one entry after another into a map leaves, under each key, what the last entry for that
key put there. `lastOf f l` is the last value that `f` gives on the list, and `foldl_insert` says that
this is what such a loop computes.
-/

namespace LastWins

variable {α β κ ν : Type*}

/-- The value of `f` at the last member of `l` where it has one. -/
def lastOf (f : α → Option ν) (l : List α) : Option ν := l.reverse.findSome? f

variable {f g : α → Option ν} {l l' : List α} {a : α} {v : ν}

@[simp] theorem lastOf_nil : lastOf f [] = none := rfl

theorem lastOf_append : lastOf f (l ++ l') = (lastOf f l').or (lastOf f l) := by
  unfold lastOf
  rw [List.reverse_append, List.findSome?_append]

theorem lastOf_cons : lastOf f (a :: l) = (lastOf f l).or (f a) := by
  have hone : lastOf f [a] = f a := by
    unfold lastOf
    cases h : f a with
    | none => simp [h]
    | some v => simp [h]
  rw [← List.singleton_append, lastOf_append, hone]

theorem lastOf_eq_none_iff : lastOf f l = none ↔ ∀ a ∈ l, f a = none := by
  unfold lastOf
  rw [List.findSome?_eq_none_iff]
  simp only [List.mem_reverse]

/-- **The last one**: no later member has a value. -/
theorem lastOf_eq_some_iff :
    lastOf f l = some v ↔ ∃ pre a post, l = pre ++ a :: post ∧ f a = some v ∧ ∀ b ∈ post, f b = none := by
  unfold lastOf
  rw [List.findSome?_eq_some_iff]
  constructor
  · rintro ⟨pre, a, post, hsplit, ha, hnone⟩
    refine ⟨post.reverse, a, pre.reverse, ?_, ha, ?_⟩
    · rw [← List.reverse_reverse l, hsplit]
      simp
    · intro b hb
      exact hnone b (List.mem_reverse.mp hb)
  · rintro ⟨pre, a, post, rfl, ha, hnone⟩
    refine ⟨post.reverse, a, pre.reverse, by simp, ha, ?_⟩
    intro b hb
    exact hnone b (List.mem_reverse.mp hb)

theorem isSome_lastOf_iff : (lastOf f l).isSome = true ↔ ∃ a ∈ l, (f a).isSome = true := by
  rw [← not_iff_not, Bool.not_eq_true, Option.isSome_eq_false_iff, Option.isNone_iff_eq_none,
    lastOf_eq_none_iff]
  simp

theorem exists_mem_of_lastOf (h : lastOf f l = some v) : ∃ a ∈ l, f a = some v := by
  obtain ⟨pre, a, post, rfl, ha, -⟩ := lastOf_eq_some_iff.mp h
  exact ⟨a, List.mem_append_right _ List.mem_cons_self, ha⟩

/-- Members without a value at the end have no say. -/
theorem lastOf_append_cons {pre post : List α} (hpost : ∀ b ∈ post, f b = none) :
    lastOf f (pre ++ a :: post) = (f a).or (lastOf f pre) := by
  rw [lastOf_append, lastOf_cons, lastOf_eq_none_iff.mpr hpost, Option.none_or]

/-- Lists whose members have the same value pairwise have the same last one. -/
theorem lastOf_forall₂ {R : α → β → Prop} {f : α → Option ν} {g : β → Option ν} {l : List α} {l' : List β}
    (h : List.Forall₂ R l l') (hR : ∀ a b, a ∈ l → R a b → f a = g b) : lastOf f l = lastOf g l' := by
  induction h with
  | nil => rfl
  | cons hab hrest ih =>
      rw [lastOf_cons, lastOf_cons, hR _ _ List.mem_cons_self hab]
      rw [ih fun a b ha => hR a b (List.mem_cons_of_mem _ ha)]

theorem lastOf_congr {f g : α → Option ν} {l : List α} (h : ∀ a ∈ l, f a = g a) :
    lastOf f l = lastOf g l := by
  refine lastOf_forall₂ (List.forall₂_same.mpr fun a _ => rfl : List.Forall₂ Eq l l) ?_
  rintro a b ha rfl
  exact h a ha

/-- **When the members that have no value for `g` make no difference**: each of them is followed by one
    with a value, or has the value that there was before it. -/
theorem lastOf_eq_iff (h : ∀ a ∈ l, g a = f a ∨ g a = none) :
    lastOf f l = lastOf g l ↔ ∀ pre a post v, l = pre ++ a :: post → f a = some v → g a = none →
      (∃ b ∈ post, (f b).isSome = true) ∨ lastOf g pre = some v := by
  -- A member that has no value for `f` has none for `g`.
  have hquiet : ∀ b ∈ l, f b = none → g b = none := by
    intro b hb hf
    rcases h b hb with hsame | hno
    · rw [hsame, hf]
    · exact hno
  constructor
  · intro heq pre a post v hl hfa hga
    by_cases hlater : ∃ b ∈ post, (f b).isSome = true
    · exact Or.inl hlater
    · -- It is the last member with a value for `f`, and those of `g` all come before it.
      right
      subst hl
      have hpost : ∀ b ∈ post, f b = none := by
        intro b hb
        by_contra hb'
        exact hlater ⟨b, hb, Option.isSome_iff_ne_none.mpr hb'⟩
      have hgpost : ∀ b ∈ post, g b = none := fun b hb =>
        hquiet b (List.mem_append_right _ (List.mem_cons_of_mem _ hb)) (hpost b hb)
      rw [lastOf_append_cons hpost, hfa, lastOf_append_cons hgpost, hga, Option.none_or] at heq
      exact heq.symm
  · intro hcond
    cases hlast : lastOf f l with
    | none =>
        have hfnone := lastOf_eq_none_iff.mp hlast
        exact (lastOf_eq_none_iff.mpr fun b hb => hquiet b hb (hfnone b hb)).symm
    | some v =>
        obtain ⟨pre, a, post, hl, hfa, hpost⟩ := lastOf_eq_some_iff.mp hlast
        subst hl
        have hgpost : ∀ b ∈ post, g b = none := fun b hb =>
          hquiet b (List.mem_append_right _ (List.mem_cons_of_mem _ hb)) (hpost b hb)
        rw [lastOf_append_cons hgpost]
        rcases h a (List.mem_append_right _ List.mem_cons_self) with hsame | hno
        · rw [hsame, hfa]
          rfl
        · rw [hno, Option.none_or]
          rcases hcond pre a post v rfl hfa hno with ⟨b, hb, hsome⟩ | hbefore
          · rw [hpost b hb] at hsome
            cases hsome
          · exact hbefore.symm

/-- **The loop.** Each round leaves under a key what its entry has for that key, or what was there. -/
theorem foldl_insert {insert : (κ → Option ν) → α → κ → Option ν} {entry : α → κ → Option ν}
    (hinsert : ∀ m a key, insert m a key = (entry a key).or (m key)) (l : List α)
    (m : κ → Option ν) (key : κ) :
    l.foldl insert m key = (lastOf (fun a => entry a key) l).or (m key) := by
  induction l generalizing m with
  | nil => rfl
  | cons a l ih =>
      rw [List.foldl_cons, ih, hinsert, lastOf_cons, Option.or_assoc]

end LastWins
