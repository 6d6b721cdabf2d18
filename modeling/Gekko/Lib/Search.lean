import Mathlib.Data.List.Infix
import Mathlib.Data.List.TakeWhile


/-! # `Gekko.Lib.Search` — the first occurrence of a text in another

`afterFirst pat l` is what follows the first occurrence of `pat` in `l`, which is where an unanchored regular
expression that starts with the text `pat` goes on. Three facts locate that occurrence in a text that is put
together from parts:

* a separator that is not in `pat` confines every occurrence to one side of it (`afterFirst_append_cons`);
* when the last character of `pat` stands only at the end of a text, `pat` occurs there or nowhere
  (`afterFirst_concat`);
* nothing is found exactly where `pat` does not occur (`afterFirst_eq_none_iff`), and an occurrence with
  none before it is the first one (`afterFirst_of_first`).

Where the text to look for is a single mark, `takeWhile (· ≠ c)` is what stands in front of it and
`dropWhile (· ≠ c)` starts with it; a prefix without the mark changes neither cut.
-/

namespace Search

variable {α : Type*} [DecidableEq α] {pat l : List α}

/-- What follows the first occurrence of `pat`. -/
def afterFirst (pat : List α) : List α → Option (List α)
  | [] => if pat = [] then some [] else none
  | a :: l => if pat <+: a :: l then some ((a :: l).drop pat.length) else afterFirst pat l

theorem afterFirst_nil (hne : pat ≠ []) : afterFirst pat [] = none := if_neg hne

theorem afterFirst_of_start {a : α} (h : pat <+: a :: l) :
    afterFirst pat (a :: l) = some ((a :: l).drop pat.length) := if_pos h

theorem afterFirst_of_not_start {a : α} (h : ¬ pat <+: a :: l) :
    afterFirst pat (a :: l) = afterFirst pat l := if_neg h

theorem afterFirst_eq_none_iff : afterFirst pat l = none ↔ ¬ pat <:+: l := by
  induction l with
  | nil =>
      rw [List.infix_nil, afterFirst]
      split
      · rename_i h
        simp [h]
      · rename_i h
        simp [h]
  | cons a l ih =>
      rw [List.infix_cons_iff]
      by_cases h : pat <+: a :: l
      · rw [afterFirst_of_start h]
        simp [h]
      · rw [afterFirst_of_not_start h, ih]
        simp [h]

/-- What follows an occurrence is part of the text. -/
theorem subset_of_afterFirst {rest : List α} (h : afterFirst pat l = some rest) : rest ⊆ l := by
  induction l with
  | nil =>
      rw [afterFirst] at h
      split at h
      · cases h
        exact List.Subset.refl _
      · cases h
  | cons a l ih =>
      by_cases hpre : pat <+: a :: l
      · rw [afterFirst_of_start hpre] at h
        cases h
        exact List.drop_subset _ _
      · rw [afterFirst_of_not_start hpre] at h
        exact fun x hx => List.mem_cons_of_mem _ (ih h hx)

omit [DecidableEq α] in
/-- A prefix that avoids the separator stays in front of it. -/
theorem prefix_append_cons_iff {sep : α} (hsep : sep ∉ pat) (as bs : List α) :
    pat <+: as ++ sep :: bs ↔ pat <+: as := by
  constructor
  · intro h
    rcases List.prefix_or_prefix_of_prefix h (List.prefix_append as (sep :: bs)) with hle | ⟨t, rfl⟩
    · exact hle
    · rw [List.prefix_append_right_inj] at h
      cases t with
      | nil =>
          rw [List.append_nil]
      | cons c t =>
          obtain ⟨rfl, -⟩ := List.cons_prefix_cons.mp h
          exact absurd (List.mem_append_right as List.mem_cons_self) hsep
  · intro h
    exact h.trans (List.prefix_append _ _)

omit [DecidableEq α] in
/-- The first separator splits a text in one way only. -/
theorem append_cons_inj {sep : α} {as as' bs bs' : List α} (hsep : sep ∉ as) (hsep' : sep ∉ as')
    (h : as ++ sep :: bs = as' ++ sep :: bs') : as = as' ∧ bs = bs' := by
  induction as generalizing as' with
  | nil =>
      cases as' with
      | nil => exact ⟨rfl, (List.cons.inj h).2⟩
      | cons a' as' => exact absurd ((List.cons.inj h).1 ▸ List.mem_cons_self) hsep'
  | cons a as ih =>
      cases as' with
      | nil => exact absurd ((List.cons.inj h).1 ▸ List.mem_cons_self) hsep
      | cons a' as' =>
          obtain ⟨rfl, htail⟩ := List.cons.inj h
          obtain ⟨rfl, hbs⟩ := ih (fun hmem => hsep (List.mem_cons_of_mem _ hmem))
            (fun hmem => hsep' (List.mem_cons_of_mem _ hmem)) htail
          exact ⟨rfl, hbs⟩

/-- **A separator splits the search**: it goes on behind the separator when nothing is found before. -/
theorem afterFirst_append_cons {sep : α} (hne : pat ≠ []) (hsep : sep ∉ pat) (as bs : List α) :
    afterFirst pat (as ++ sep :: bs) =
      match afterFirst pat as with
      | some rest => some (rest ++ sep :: bs)
      | none => afterFirst pat bs := by
  induction as with
  | nil =>
      have hno : ¬ pat <+: sep :: bs := by
        intro h
        have hnil := (prefix_append_cons_iff hsep [] bs).mp h
        exact hne (List.prefix_nil.mp hnil)
      rw [List.nil_append, afterFirst_of_not_start hno, afterFirst_nil hne]
  | cons a as ih =>
      by_cases h : pat <+: a :: as
      · have hlong : pat <+: a :: (as ++ sep :: bs) := (prefix_append_cons_iff hsep (a :: as) bs).mpr h
        rw [List.cons_append, afterFirst_of_start hlong, afterFirst_of_start h, ← List.cons_append,
          List.drop_append_of_le_length h.length_le]
      · have hlong : ¬ pat <+: a :: (as ++ sep :: bs) :=
          fun hpre => h ((prefix_append_cons_iff hsep (a :: as) bs).mp hpre)
        rw [List.cons_append, afterFirst_of_not_start hlong, afterFirst_of_not_start h, ih]

omit [DecidableEq α] in
theorem concat_prefix_concat_iff {mark : α} {p k : List α} (hk : mark ∉ k) :
    p ++ [mark] <+: k ++ [mark] ↔ p = k := by
  constructor
  · rintro ⟨t, ht⟩
    rw [List.append_assoc, List.singleton_append] at ht
    exact ((List.append_cons_inj_of_notMem hk (List.not_mem_nil)).mp ht.symm).1.symm
  · rintro rfl
    exact List.prefix_refl _

/-- **A pattern that ends in a mark** occurs in a text whose only mark is its last character exactly when the
    rest of the pattern ends the rest of the text. -/
theorem afterFirst_concat {mark : α} {p k : List α} (hk : mark ∉ k) :
    afterFirst (p ++ [mark]) (k ++ [mark]) = if p <:+ k then some [] else none := by
  have hlast : ∀ t : List α, (t ++ [mark]).drop (t ++ [mark]).length = [] := fun t => List.drop_length
  have hne : p ++ [mark] ≠ [] := by simp
  induction k with
  | nil =>
      simp only [List.suffix_nil, List.nil_append]
      by_cases hp : p = []
      · subst hp
        rw [if_pos rfl, List.nil_append, afterFirst_of_start (List.prefix_refl _)]
        rfl
      · have hno : ¬ p ++ [mark] <+: [mark] := fun h => hp ((concat_prefix_concat_iff (k := []) hk).mp h)
        rw [if_neg hp, afterFirst_of_not_start hno, afterFirst_nil hne]
  | cons a k ih =>
      simp only [List.suffix_cons_iff]
      by_cases hp : p = a :: k
      · subst hp
        rw [if_pos (Or.inl rfl), List.cons_append, afterFirst_of_start (List.prefix_refl _)]
        exact congrArg some (hlast (a :: k))
      · have hno : ¬ p ++ [mark] <+: a :: (k ++ [mark]) := fun h => hp ((concat_prefix_concat_iff hk).mp h)
        rw [List.cons_append, afterFirst_of_not_start hno, ih fun h => hk (List.mem_cons_of_mem _ h)]
        simp only [hp, false_or]

/-- An occurrence is the first one when none ends before it does. -/
theorem afterFirst_of_first {mark : α} {p pre rest : List α} (h : ¬ p ++ [mark] <:+: pre ++ p) :
    afterFirst (p ++ [mark]) (pre ++ (p ++ mark :: rest)) = some rest := by
  induction pre with
  | nil =>
      have hsplit : p ++ mark :: rest = (p ++ [mark]) ++ rest := by simp
      have hpre : p ++ [mark] <+: p ++ mark :: rest := hsplit ▸ List.prefix_append _ _
      rw [List.nil_append]
      cases hl : p ++ mark :: rest with
      | nil => simp at hl
      | cons a l =>
          rw [hl] at hpre
          rw [afterFirst_of_start hpre, ← hl, hsplit, List.drop_left]
  | cons a pre ih =>
      have hno : ¬ p ++ [mark] <+: a :: (pre ++ (p ++ mark :: rest)) := by
        intro hpre
        have hshort : p ++ [mark] <+: a :: (pre ++ p) := by
          have hsplit : a :: (pre ++ (p ++ mark :: rest)) = (a :: (pre ++ p)) ++ mark :: rest := by simp
          rw [hsplit] at hpre
          refine List.prefix_of_prefix_length_le hpre (List.prefix_append _ _) ?_
          simp
        exact h hshort.isInfix
      rw [List.cons_append, afterFirst_of_not_start hno]
      exact ih fun hinside => h (hinside.trans (List.suffix_cons _ _).isInfix)

/-! ## The first occurrence of one mark -/

section Mark

variable {c : α} {as : List α}

theorem takeWhile_ne_append (h : c ∉ as) (bs : List α) :
    (as ++ bs).takeWhile (· ≠ c) = as ++ bs.takeWhile (· ≠ c) := by
  rw [List.takeWhile_append_of_pos]
  intro a ha
  rw [decide_eq_true_eq]
  exact fun heq => h (heq ▸ ha)

theorem dropWhile_ne_append (h : c ∉ as) (bs : List α) :
    (as ++ bs).dropWhile (· ≠ c) = bs.dropWhile (· ≠ c) := by
  rw [List.dropWhile_append_of_pos]
  intro a ha
  rw [decide_eq_true_eq]
  exact fun heq => h (heq ▸ ha)

theorem takeWhile_ne_append_cons (as bs : List α) :
    (as ++ c :: bs).takeWhile (· ≠ c) = as.takeWhile (· ≠ c) := by
  induction as with
  | nil => simp
  | cons a as ih => rw [List.cons_append, List.takeWhile_cons, List.takeWhile_cons, ih]

/-- The whole text stands in front of a mark that is not there. -/
theorem takeWhile_ne_eq_self_iff : as.takeWhile (· ≠ c) = as ↔ c ∉ as := by
  rw [List.takeWhile_eq_self_iff]
  constructor
  · intro h hmem
    exact absurd rfl (of_decide_eq_true (h c hmem))
  · intro h a ha
    rw [decide_eq_true_eq]
    exact fun heq => h (heq ▸ ha)

end Mark

end Search
