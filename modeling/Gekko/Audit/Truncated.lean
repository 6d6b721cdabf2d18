import Gekko.Audit.Reuse


/-! # `Gekko.Audit.Truncated` — what a report is worth when a query is cut short

A query returns the first 5000 lines of its window and warns on stderr when there may be more; one that
fails returns none. The checks go on with what they have.

`exitStatus_worth` compares the exit status with the whole window. What CHECK1 and CHECK3 report is
there, whatever was cut off, and so is what CHECK2 reports unless it lacks events: a login before the
first access cannot be missing while a later one is returned. And what is there is reported, unless one
of the two queries that it takes was incomplete.
-/

namespace Gekko.Audit

/-! ## What is in the window -/

/-- One token id is used on both sides. -/
def Loki.Reused (loki : Loki) (startNs endNs : Int) : Prop :=
  ∃ e ∈ loki.matching .userFacing startNs endNs, ∃ e' ∈ loki.matching .downstream startNs endNs,
    ∃ jti, jti? e = some jti ∧ jti? e' = some jti

/-- The issuance records of all events. -/
def Loki.allRecords (loki : Loki) (lookbackSeconds startNs endNs : Int) : String × String → Option Record :=
  parseTokenExchangeEvents (loki.matching .exchanges (startNs - lookbackSeconds * 10 ^ 9) endNs)

/-- An access has no issuance record. -/
def Loki.Unrecorded (loki : Loki) (lookbackSeconds startNs endNs : Int) : Prop :=
  ∃ e ∈ loki.matching .exchanged startNs endNs, ∃ jti, jti? e = some jti ∧
    loki.allRecords lookbackSeconds startNs endNs (jti, e.service) = none

/-- An access has none, or one for another user. -/
def Loki.Unbacked (loki : Loki) (lookbackSeconds startNs endNs : Int) : Prop :=
  ∃ e ∈ loki.matching .exchanged startNs endNs, ∃ jti, jti? e = some jti ∧
    backs (loki.allRecords lookbackSeconds startNs endNs (jti, e.service)) e = false

/-- Somebody who logs in has an access before all their logins. -/
def Loki.Early (loki : Loki) (startNs endNs : Int) : Prop :=
  ∃ access ∈ loki.matching .accesses startNs endNs, ∃ login ∈ loki.matching .logins startNs endNs, ∃ user,
    sub? access = some user ∧ uid? login = some user ∧
      ∀ login' ∈ loki.matching .logins startNs endNs, uid? login' = some user → access.tsNs < login'.tsNs

section Cut

variable {loki : Loki} {q : Query} {lookbackSeconds startNs endNs : Int} {e e' : LogLine}

theorem mem_matching_of_mem (h : e ∈ queryLoki loki q startNs endNs) : e ∈ loki.matching q startNs endNs := by
  unfold queryLoki at h
  split at h
  · exact absurd h List.not_mem_nil
  · exact List.mem_of_mem_take h

theorem queryLoki_of_completes (h : loki.Completes q startNs endNs) :
    queryLoki loki q startNs endNs = loki.matching q startNs endNs := by
  unfold queryLoki
  rw [h.1, if_neg Bool.false_ne_true, List.take_of_length_le h.2]

/-- **What is cut off comes last.** A line that is not returned is no earlier than one that is. -/
theorem le_of_not_mem (hordered : loki.lines.Pairwise fun a b => a.tsNs ≤ b.tsNs)
    (he : e ∈ queryLoki loki q startNs endNs) (he' : e' ∈ loki.matching q startNs endNs)
    (hcut : e' ∉ queryLoki loki q startNs endNs) : e.tsNs ≤ e'.tsNs := by
  have hmatching : (loki.matching q startNs endNs).Pairwise fun a b => a.tsNs ≤ b.tsNs :=
    hordered.sublist List.filter_sublist
  unfold queryLoki at he hcut
  split at he
  · exact absurd he List.not_mem_nil
  · rename_i hanswers
    rw [if_neg hanswers] at hcut
    rw [← List.take_append_drop queryLimit (loki.matching q startNs endNs)] at hmatching he'
    have hdrop : e' ∈ (loki.matching q startNs endNs).drop queryLimit :=
      (List.mem_append.mp he').resolve_left hcut
    exact (List.pairwise_append.mp hmatching).2.2 e he e' hdrop

/-! ## The checks, one by one -/

theorem check1_eq_false_iff_mem : check1 loki startNs endNs = false ↔
    ∃ e ∈ queryLoki loki .userFacing startNs endNs, ∃ e' ∈ queryLoki loki .downstream startNs endNs,
      ∃ jti, jti? e = some jti ∧ jti? e' = some jti := by
  unfold check1 bypassed
  rw [List.isEmpty_eq_false_iff_exists_mem]
  simp only [List.mem_filter, List.mem_filterMap, List.contains_iff_mem]
  constructor
  · rintro ⟨jti, ⟨e, he, hjti⟩, e', he', hjti'⟩
    exact ⟨e, he, e', he', jti, hjti, hjti'⟩
  · rintro ⟨e, he, e', he', jti, hjti, hjti'⟩
    exact ⟨jti, ⟨e, he, hjti⟩, e', he', hjti'⟩

theorem reused_of_check1 (h : check1 loki startNs endNs = false) : loki.Reused startNs endNs := by
  obtain ⟨e, he, e', he', hjti⟩ := check1_eq_false_iff_mem.mp h
  exact ⟨e, mem_matching_of_mem he, e', mem_matching_of_mem he', hjti⟩

theorem check1_of_reused (huser : loki.Completes .userFacing startNs endNs)
    (hds : loki.Completes .downstream startNs endNs) (h : loki.Reused startNs endNs) :
    check1 loki startNs endNs = false := by
  rw [check1_eq_false_iff_mem, queryLoki_of_completes huser, queryLoki_of_completes hds]
  exact h

theorem unbacked_of_check2 (hevents : loki.Completes .exchanges (startNs - lookbackSeconds * 10 ^ 9) endNs)
    (h : check2 loki lookbackSeconds startNs endNs = false) :
    loki.Unbacked lookbackSeconds startNs endNs := by
  rw [check2_eq_verdict, verdict, List.all_eq_false] at h
  obtain ⟨s, hs, hbacks⟩ := h
  obtain ⟨hmem, hjti, hservice⟩ := mem_seenPairs hs
  have hrecords : loki.records lookbackSeconds startNs endNs =
      loki.allRecords lookbackSeconds startNs endNs := by
    unfold Loki.records Loki.allRecords
    rw [queryLoki_of_completes hevents]
  refine ⟨s.2, mem_matching_of_mem hmem, s.1.1, hjti, ?_⟩
  rw [hservice, ← hrecords]
  exact Bool.eq_false_iff.mpr hbacks

/-- Without all events there are fewer records, not more. -/
theorem check2_of_unrecorded (haccesses : loki.Completes .exchanged startNs endNs)
    (h : loki.Unrecorded lookbackSeconds startNs endNs) :
    check2 loki lookbackSeconds startNs endNs = false := by
  obtain ⟨e, he, jti, hjti, hnone⟩ := h
  rw [← queryLoki_of_completes haccesses] at he
  apply Bool.eq_false_iff.mpr
  intro hcheck2
  rw [check2_eq_verdict] at hcheck2
  have hrecord := isSome_of_verdict hcheck2 he hjti
  unfold Loki.records at hrecord
  obtain ⟨line, hline, hshown⟩ := isSome_parse_iff.mp hrecord
  have hall : (loki.allRecords lookbackSeconds startNs endNs (jti, e.service)).isSome = true :=
    isSome_parse_iff.mpr ⟨line, mem_matching_of_mem hline, hshown⟩
  rw [hnone] at hall
  cases hall

/-- The first login of a user is returned, if any login of theirs is. -/
theorem early_of_check3 (hordered : loki.lines.Pairwise fun a b => a.tsNs ≤ b.tsNs)
    (h : check3 loki startNs endNs = false) : loki.Early startNs endNs := by
  have hnot : ¬ check3 loki startNs endNs = true := Bool.eq_false_iff.mp h
  rw [check3_eq_true_iff] at hnot
  push Not at hnot
  obtain ⟨access, haccess, login, hlogin, user, hsub, huid, hlate⟩ := hnot
  refine ⟨access, mem_matching_of_mem haccess, login, mem_matching_of_mem hlogin, user, hsub, huid, ?_⟩
  intro login' hlogin' huid'
  by_cases hreturned : login' ∈ queryLoki loki .logins startNs endNs
  · exact hlate login' hreturned huid'
  · have hfirst : access.tsNs < login.tsNs := hlate login hlogin huid
    have hle : login.tsNs ≤ login'.tsNs := le_of_not_mem hordered hlogin hlogin' hreturned
    omega

theorem check3_of_early (haccesses : loki.Completes .accesses startNs endNs)
    (hlogins : loki.Completes .logins startNs endNs) (h : loki.Early startNs endNs) :
    check3 loki startNs endNs = false := by
  obtain ⟨access, haccess, login, hlogin, user, hsub, huid, hlate⟩ := h
  rw [← queryLoki_of_completes haccesses] at haccess
  rw [← queryLoki_of_completes hlogins] at hlogin hlate
  apply Bool.eq_false_iff.mpr
  intro hcheck3
  obtain ⟨login', hlogin', huid', hle⟩ :=
    check3_eq_true_iff.mp hcheck3 access haccess login hlogin user hsub huid
  have hlt : access.tsNs < login'.tsNs := hlate login' hlogin' huid'
  omega

end Cut

/-! ## The exit status -/

theorem exitStatus_eq_zero_iff {loki : Loki} {lookbackSeconds startNs nowNs : Int} :
    exitStatus loki lookbackSeconds startNs nowNs = 0 ↔
      check1 loki startNs nowNs = true ∧ check2 loki lookbackSeconds startNs nowNs = true ∧
        check3 loki startNs nowNs = true := by
  unfold exitStatus
  cases check1 loki startNs nowNs <;> cases check2 loki lookbackSeconds startNs nowNs <;>
    cases check3 loki startNs nowNs <;> simp

/-- **What the exit status is worth**, whichever queries fail or are cut: an alarm is about something in
    the window, unless CHECK2 lacks events; and something in the window gives an alarm, unless a query
    that it takes is incomplete. -/
theorem exitStatus_worth {loki : Loki} (hordered : loki.lines.Pairwise fun a b => a.tsNs ≤ b.tsNs)
    (lookbackSeconds startNs nowNs : Int) :
    (exitStatus loki lookbackSeconds startNs nowNs ≠ 0 →
      loki.Reused startNs nowNs ∨ loki.Unbacked lookbackSeconds startNs nowNs ∨ loki.Early startNs nowNs ∨
        ¬ loki.Completes .exchanges (startNs - lookbackSeconds * 10 ^ 9) nowNs) ∧
    (exitStatus loki lookbackSeconds startNs nowNs = 0 →
      (loki.Reused startNs nowNs →
        ¬ (loki.Completes .userFacing startNs nowNs ∧ loki.Completes .downstream startNs nowNs)) ∧
      (loki.Unrecorded lookbackSeconds startNs nowNs → ¬ loki.Completes .exchanged startNs nowNs) ∧
      (loki.Early startNs nowNs →
        ¬ (loki.Completes .accesses startNs nowNs ∧ loki.Completes .logins startNs nowNs))) := by
  constructor
  · intro hstatus
    by_cases hevents : loki.Completes .exchanges (startNs - lookbackSeconds * 10 ^ 9) nowNs
    · rw [Ne, exitStatus_eq_zero_iff, not_and_or, not_and_or, Bool.not_eq_true, Bool.not_eq_true,
        Bool.not_eq_true] at hstatus
      rcases hstatus with h | h | h
      · exact Or.inl (reused_of_check1 h)
      · exact Or.inr (Or.inl (unbacked_of_check2 hevents h))
      · exact Or.inr (Or.inr (Or.inl (early_of_check3 hordered h)))
    · exact Or.inr (Or.inr (Or.inr hevents))
  · intro hstatus
    obtain ⟨hcheck1, hcheck2, hcheck3⟩ := exitStatus_eq_zero_iff.mp hstatus
    refine ⟨?_, ?_, ?_⟩
    · rintro hreused ⟨huser, hds⟩
      rw [check1_of_reused huser hds hreused] at hcheck1
      cases hcheck1
    · intro hunrecorded haccesses
      rw [check2_of_unrecorded haccesses hunrecorded] at hcheck2
      cases hcheck2
    · rintro hearly ⟨haccesses, hlogins⟩
      rw [check3_of_early haccesses hlogins hearly] at hcheck3
      cases hcheck3

/-- The store with the second login, whose window leaves out the first. -/
theorem relogin_worth :
    exitStatus reloginStore 300 50 400 ≠ 0 ∧
      (reloginStore.Reused 50 400 ∨ reloginStore.Unbacked 300 50 400 ∨ reloginStore.Early 50 400 ∨
        ¬ reloginStore.Completes .exchanges (50 - 300 * 10 ^ 9) 400) := by
  have hstatus : exitStatus reloginStore 300 50 400 ≠ 0 := by decide +kernel
  have hordered : reloginStore.lines.Pairwise fun a b => a.tsNs ≤ b.tsNs := by decide +kernel
  exact ⟨hstatus, (exitStatus_worth hordered 300 50 400).1 hstatus⟩

end Gekko.Audit
