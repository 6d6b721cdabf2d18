import Gekko.Audit.Checks


/-! # `Gekko.Audit.Reuse` — one token id in several entries

CHECK2 compares one entry of each pair of a token id and a service with the issuance record of the pair:
the first one that the query has returned.

That finds a token that is used at two services, whichever they are: `reuse_detected`. Whether the
record fits the user of the other entries of a pair is not asked; `judged_iff_uniform` says when that
makes no difference, so that the verdict does not depend on the order of the entries.
-/

namespace Gekko.Audit

/-! ## The entry that stands for a pair -/

section Seen

variable {seen : List ((String × String) × LogLine)} {dsLogs : List LogLine} {e : LogLine}

theorem mem_addSeen_of_mem {s : (String × String) × LogLine} (h : s ∈ seen) : s ∈ addSeen seen e := by
  unfold addSeen
  split
  · exact h
  · split
    · exact h
    · exact List.mem_append_left _ h

theorem mem_foldl_addSeen_of_mem {s : (String × String) × LogLine} (h : s ∈ seen) :
    s ∈ dsLogs.foldl addSeen seen := by
  induction dsLogs generalizing seen with
  | nil => exact h
  | cons e dsLogs ih => exact ih (mem_addSeen_of_mem h)

/-- A pair in use has an entry that stands for it. -/
theorem exists_mem_foldl_addSeen {jti : String} (he : e ∈ dsLogs) (hjti : jti? e = some jti) :
    ∃ s ∈ dsLogs.foldl addSeen seen, s.1 = (jti, e.service) := by
  induction dsLogs generalizing seen with
  | nil => exact absurd he List.not_mem_nil
  | cons e' dsLogs ih =>
      rcases List.mem_cons.mp he with rfl | he
      · -- The entry itself is collected, unless the pair has been.
        have hone : ∃ s ∈ addSeen seen e, s.1 = (jti, e.service) := by
          unfold addSeen
          rw [hjti]
          simp only []
          split
          · rename_i hany
            obtain ⟨s, hs, hpair⟩ := List.any_eq_true.mp hany
            exact ⟨s, hs, of_decide_eq_true hpair⟩
          · exact ⟨_, List.mem_append_right _ List.mem_cons_self, rfl⟩
        obtain ⟨s, hs, hpair⟩ := hone
        have hkept : s ∈ dsLogs.foldl addSeen (addSeen seen e) := mem_foldl_addSeen_of_mem hs
        exact ⟨s, hkept, hpair⟩
      · exact ih he

theorem exists_mem_seenPairs {jti : String} (he : e ∈ dsLogs) (hjti : jti? e = some jti) :
    ∃ s ∈ seenPairs dsLogs, s.1 = (jti, e.service) := exists_mem_foldl_addSeen he hjti

/-- An entry stands for a pair only if no earlier one does. -/
theorem mem_foldl_addSeen_cases {s : (String × String) × LogLine} (h : s ∈ dsLogs.foldl addSeen seen) :
    s ∈ seen ∨ ((∀ s' ∈ seen, s'.1 ≠ s.1) ∧ s.2 ∈ dsLogs ∧ Uses s) := by
  induction dsLogs generalizing seen with
  | nil => exact Or.inl h
  | cons e dsLogs ih =>
      rcases ih h with h | ⟨hnew, hmem, huses⟩
      · unfold addSeen at h
        split at h
        · exact Or.inl h
        · rename_i jti hjti
          split at h
          · exact Or.inl h
          · rename_i hany
            rcases List.mem_append.mp h with h | h
            · exact Or.inl h
            · rw [List.mem_singleton.mp h]
              refine Or.inr ⟨?_, List.mem_cons_self, hjti, rfl⟩
              intro s' hs' hpair
              exact hany (List.any_eq_true.mpr ⟨s', hs', decide_eq_true hpair⟩)
      · exact Or.inr ⟨fun s' hs' => hnew s' (mem_addSeen_of_mem hs'), List.mem_cons_of_mem _ hmem, huses⟩

end Seen

/-! ## A token at two services -/

/-- The entry is in the window, in the access log of one of the five services, and not one of a refused
token. -/
structure Accessed (loki : Loki) (startNs endNs : Int) (e : LogLine) : Prop where
  mem : e ∈ loki.lines
  starts : startNs ≤ e.tsNs
  ends : e.tsNs ≤ endNs
  selected : accessLog (userFacingServices ++ downstreamServices) e = true
  status : ∃ status, e.get "status" = some status ∧ status ≠ "401"

/-- The query has been answered, with all lines of the window. -/
def Loki.Completes (loki : Loki) (q : Query) (startNs endNs : Int) : Prop :=
  loki.fails q = false ∧ (loki.matching q startNs endNs).length ≤ queryLimit

/-- The issuance records that CHECK2 compares with. -/
def Loki.records (loki : Loki) (lookbackSeconds startNs endNs : Int) : String × String → Option Record :=
  parseTokenExchangeEvents (queryLoki loki .exchanges (startNs - lookbackSeconds * 10 ^ 9) endNs)

/-- What CHECK2 says of the entries and the records. -/
def verdict (records : String × String → Option Record) (dsLogs : List LogLine) : Bool :=
  (seenPairs dsLogs).all fun s => backs (records s.1) s.2

theorem check2_eq_verdict (loki : Loki) (lookbackSeconds startNs endNs : Int) :
    check2 loki lookbackSeconds startNs endNs =
      verdict (loki.records lookbackSeconds startNs endNs) (queryLoki loki .exchanged startNs endNs) := rfl

section Verdict

variable {records : String × String → Option Record} {dsLogs : List LogLine} {e : LogLine} {jti : String}

/-- A pair in use without a record is reported. -/
theorem isSome_of_verdict (h : verdict records dsLogs = true) (he : e ∈ dsLogs) (hjti : jti? e = some jti) :
    (records (jti, e.service)).isSome = true := by
  obtain ⟨s, hs, hpair⟩ := exists_mem_seenPairs he hjti
  have hbacks : backs (records s.1) s.2 = true := List.all_eq_true.mp h s hs
  rw [hpair] at hbacks
  cases hrecord : records (jti, e.service) with
  | none =>
      rw [hrecord] at hbacks
      cases hbacks
  | some record => rfl

end Verdict

section Reuse

variable {loki : Loki} {lookbackSeconds startNs endNs : Int} {e e' : LogLine} {jti : String}

/-- An access is one that CHECK2 looks at, or one of the frontend. -/
theorem Accessed.cases (h : Accessed loki startNs endNs e) :
    e.service = "frontend" ∨ Query.exchanged.selects e = true := by
  obtain ⟨status, hget, hstatus⟩ := h.status
  have hselected := h.selected
  unfold accessLog at hselected
  rw [Bool.and_eq_true] at hselected
  obtain ⟨hservice, htype⟩ := hselected
  have hmem : e.service ∈ userFacingServices ++ downstreamServices := List.contains_iff_mem.mp hservice
  have hne : e.get "status" ≠ some "401" := by
    rw [hget]
    exact fun h => hstatus (Option.some.inj h)
  have hexchanged : e.service ∈ exchangedTokenServices → Query.exchanged.selects e = true := by
    intro hmem'
    simp only [Query.selects, accessLog, List.contains_iff_mem.mpr hmem', htype, Bool.true_and, bne_iff_ne]
    exact hne
  simp only [userFacingServices, downstreamServices, List.cons_append, List.nil_append, List.mem_cons,
    List.not_mem_nil, or_false] at hmem
  rcases hmem with h | h
  · exact Or.inl h
  · refine Or.inr (hexchanged ?_)
    simpa only [exchangedTokenServices, List.mem_cons, List.not_mem_nil, or_false] using h

theorem Accessed.mem_exchanged (h : Accessed loki startNs endNs e)
    (hcompletes : loki.Completes .exchanged startNs endNs)
    (hselects : Query.exchanged.selects e = true) : e ∈ queryLoki loki .exchanged startNs endNs := by
  unfold queryLoki
  rw [hcompletes.1, if_neg Bool.false_ne_true, List.take_of_length_le hcompletes.2]
  simpa [Loki.matching, hselects, h.starts, h.ends] using h.mem

/-- An access of the frontend leaves every other access with its token id without a record. -/
theorem check2_of_frontend (hcompletes : loki.Completes .exchanged startNs endNs)
    (hsession : ∀ e, Accessed loki startNs endNs e → e.service = "frontend" → ∀ jti, jti? e = some jti →
      ∀ audience, loki.records lookbackSeconds startNs endNs (jti, audience) = none)
    (he : Accessed loki startNs endNs e) (hfrontend : e.service = "frontend")
    (he' : Accessed loki startNs endNs e') (hne : e'.service ≠ "frontend") (hjti : jti? e = some jti)
    (hjti' : jti? e' = some jti) : check2 loki lookbackSeconds startNs endNs = false := by
  rw [Bool.eq_false_iff, check2_eq_verdict]
  intro hverdict
  have hmem := he'.mem_exchanged hcompletes (he'.cases.resolve_left hne)
  have hrecord := isSome_of_verdict hverdict hmem hjti'
  rw [hsession e he hfrontend jti hjti] at hrecord
  cases hrecord

/-- **A token that is used at two services is reported**, whichever they are. -/
theorem reuse_detected {nowNs : Int} (hcompletes : loki.Completes .exchanged startNs nowNs)
    (honce : ∀ jti audience audience',
      (loki.records lookbackSeconds startNs nowNs (jti, audience)).isSome = true →
      (loki.records lookbackSeconds startNs nowNs (jti, audience')).isSome = true → audience = audience')
    (hsession : ∀ e, Accessed loki startNs nowNs e → e.service = "frontend" → ∀ jti, jti? e = some jti →
      ∀ audience, loki.records lookbackSeconds startNs nowNs (jti, audience) = none)
    (he : Accessed loki startNs nowNs e) (he' : Accessed loki startNs nowNs e') (hjti : jti? e = some jti)
    (hjti' : jti? e' = some jti) (hne : e.service ≠ e'.service) :
    exitStatus loki lookbackSeconds startNs nowNs ≠ 0 := by
  have hcheck2 : check2 loki lookbackSeconds startNs nowNs = false := by
    by_cases hfrontend : e.service = "frontend"
    · exact check2_of_frontend hcompletes hsession he hfrontend he'
        (fun h => hne (hfrontend.trans h.symm)) hjti hjti'
    · by_cases hfrontend' : e'.service = "frontend"
      · exact check2_of_frontend hcompletes hsession he' hfrontend' he hfrontend hjti' hjti
      · -- CHECK2 looks at both, and there is a record for one of the services at most.
        rw [Bool.eq_false_iff, check2_eq_verdict]
        intro hverdict
        have hmem := he.mem_exchanged hcompletes (he.cases.resolve_left hfrontend)
        have hmem' := he'.mem_exchanged hcompletes (he'.cases.resolve_left hfrontend')
        exact hne (honce jti _ _ (isSome_of_verdict hverdict hmem hjti)
                    (isSome_of_verdict hverdict hmem' hjti'))
  unfold exitStatus
  rw [hcheck2, Bool.and_false, Bool.false_and]
  exact nofun

end Reuse

/-- A token that was issued for Order Service, used there and at Inventory Service. -/
def sharedStore : Loki where
  lines := [exchangeLine, answeredEntry "order-service" 20 "u" "t" "201",
    answeredEntry "inventory-service" 30 "u" "t" "200"]
  fails := fun _ => false

theorem sharedStore_reported : exitStatus sharedStore 300 0 100 ≠ 0 := by
  have hrecords : ∀ jti audience, (sharedStore.records 300 0 100 (jti, audience)).isSome = true →
      jti = "t" ∧ audience = "order-service" := by
    intro jti audience h
    have hquery : queryLoki sharedStore .exchanges (0 - 300 * 10 ^ 9) 100 = [exchangeLine] := by
      decide +kernel
    unfold Loki.records at h
    rw [hquery, isSome_parse_iff] at h
    obtain ⟨e, he, hshown⟩ := h
    rw [List.mem_singleton.mp he, exchangeLine_logged.shown_eq (by decide) (by decide)] at hshown
    exact ⟨(congrArg Prod.fst (Option.some.inj hshown)).symm,
           (congrArg Prod.snd (Option.some.inj hshown)).symm⟩
  have hfirst : Accessed sharedStore 0 100 (answeredEntry "order-service" 20 "u" "t" "201") :=
    ⟨by decide +kernel, by decide, by decide, by decide +kernel, "201", by decide +kernel, by decide +kernel⟩
  have hsecond : Accessed sharedStore 0 100 (answeredEntry "inventory-service" 30 "u" "t" "200") :=
    ⟨by decide +kernel, by decide, by decide, by decide +kernel, "200", by decide +kernel, by decide +kernel⟩
  have hjti : jti? (answeredEntry "order-service" 20 "u" "t" "201") = some "t" := by decide +kernel
  have hjti' : jti? (answeredEntry "inventory-service" 30 "u" "t" "200") = some "t" := by decide +kernel
  have hnobody : ∀ e ∈ sharedStore.lines, e.service ≠ "frontend" := by decide +kernel
  refine reuse_detected ⟨rfl, by decide +kernel⟩ ?_ ?_ hfirst hsecond hjti hjti' (by decide +kernel)
  · intro jti audience audience' h h'
    exact (hrecords jti audience h).2.trans (hrecords jti audience' h').2.symm
  · intro e he hfrontend
    exact absurd hfrontend (hnobody e he.mem)

/-! ## The other entries of a pair -/

section Uniform

variable (records : String × String → Option Record)

/-- The entry has no token id, or a record that fits it. -/
def fits (e : LogLine) : Bool :=
  match jti? e with
  | none => true
  | some jti => backs (records (jti, e.service)) e

/-- If the entry has a token id, then that was issued for its service, and to its user. -/
def Vouched (e : LogLine) : Prop :=
  ∀ jti, jti? e = some jti → ∃ record, records (jti, e.service) = some record ∧
    ∀ sub, record.sub = some sub → e.get "sub" = some sub

/-- CHECK2 is content exactly if the records vouch for all entries, in whatever order they come. -/
def Judged (dsLogs : List LogLine) : Prop :=
  (verdict records dsLogs = true ↔ ∀ e ∈ dsLogs, Vouched records e) ∧
    ∀ dsLogs', dsLogs.Perm dsLogs' → verdict records dsLogs' = verdict records dsLogs

/-- Every pair in use has an entry that its record fits. -/
def Represented (dsLogs : List LogLine) : Prop :=
  ∀ e ∈ dsLogs, ∀ jti, jti? e = some jti →
    ∃ e' ∈ dsLogs, jti? e' = some jti ∧ e'.service = e.service ∧ fits records e' = true

/-- Where every pair has an entry that its record fits, the record fits them all. -/
def Uniform (dsLogs : List LogLine) : Prop := Represented records dsLogs → ∀ e ∈ dsLogs, fits records e = true

end Uniform

section Verdict

variable {records : String × String → Option Record} {dsLogs dsLogs' : List LogLine}

theorem fits_eq_true_iff {e : LogLine} : fits records e = true ↔ Vouched records e := by
  unfold fits Vouched
  cases jti? e with
  | none => exact iff_of_true rfl nofun
  | some jti =>
      simp only [Option.some.injEq, forall_eq']
      unfold backs
      cases records (jti, e.service) with
      | none => exact iff_of_false nofun (by simp)
      | some record => cases hsub : record.sub <;> simp [hsub]

/-- The record of the pair is that of the entry. -/
theorem fits_of_uses {s : (String × String) × LogLine} (huses : Uses s) :
    fits records s.2 = backs (records s.1) s.2 := by
  obtain ⟨hjti, hservice⟩ := huses
  unfold fits
  rw [hjti]
  simp only [hservice]

theorem verdict_eq_true_iff : verdict records dsLogs = true ↔
    ∀ s ∈ seenPairs dsLogs, fits records s.2 = true := by
  unfold verdict
  rw [List.all_eq_true]
  refine forall_congr' fun s => forall_congr' fun hs => ?_
  rw [fits_of_uses (mem_seenPairs hs).2]

theorem represented_of_verdict (h : verdict records dsLogs = true) : Represented records dsLogs := by
  intro e he jti hjti
  obtain ⟨s, hs, hpair⟩ := exists_mem_seenPairs he hjti
  obtain ⟨hmem, huses⟩ := mem_seenPairs hs
  refine ⟨s.2, hmem, ?_, ?_, verdict_eq_true_iff.mp h s hs⟩
  · rw [huses.1, hpair]
  · rw [huses.2, hpair]

theorem verdict_of_fits (h : ∀ e ∈ dsLogs, fits records e = true) : verdict records dsLogs = true :=
  verdict_eq_true_iff.mpr fun s hs => h s.2 (mem_seenPairs hs).1

/-- **The entries that fit, before all others**: where every pair has one, they are the ones that stand
for the pairs. -/
theorem verdict_fitting_first (h : Represented records dsLogs) :
    verdict records (dsLogs.filter (fits records ·) ++ dsLogs.filter (!fits records ·)) = true := by
  rw [verdict_eq_true_iff]
  intro s hs
  unfold seenPairs at hs
  rw [List.foldl_append] at hs
  rcases mem_foldl_addSeen_cases hs with hfirst | ⟨hnew, hmem, huses⟩
  · exact (List.mem_filter.mp (mem_seenPairs hfirst).1).2
  · -- The pair has an entry that fits, which is among the first.
    obtain ⟨e, he, hjti, hservice, hfits⟩ := h s.2 (List.mem_filter.mp hmem).1 _ huses.1
    obtain ⟨s', hs', hpair⟩ := exists_mem_seenPairs (List.mem_filter.mpr ⟨he, hfits⟩) hjti
    rw [hservice, huses.2] at hpair
    exact absurd hpair (hnew s' hs')

theorem uniform_perm (hperm : dsLogs.Perm dsLogs') (h : Uniform records dsLogs) :
    Uniform records dsLogs' := by
  intro hrep e he
  refine h ?_ e (hperm.mem_iff.mpr he)
  intro e₁ he₁ jti hjti
  obtain ⟨e₂, he₂, hrest⟩ := hrep e₁ (hperm.mem_iff.mp he₁) jti hjti
  exact ⟨e₂, hperm.mem_iff.mpr he₂, hrest⟩

theorem verdict_iff_of_uniform (h : Uniform records dsLogs) :
    verdict records dsLogs = true ↔ ∀ e ∈ dsLogs, fits records e = true :=
  ⟨fun hverdict => h (represented_of_verdict hverdict), verdict_of_fits⟩

/-- **When the entry that stands for a pair makes no difference**: exactly when no pair of entries that
    fit and entries that do not is hidden by the first ones. -/
theorem judged_iff_uniform : Judged records dsLogs ↔ Uniform records dsLogs := by
  unfold Judged
  simp only [← fits_eq_true_iff]
  constructor
  · rintro ⟨hiff, hperm⟩ hrep
    have hsame := hperm _ (List.filter_append_perm (fits records ·) dsLogs).symm
    rw [verdict_fitting_first hrep] at hsame
    exact hiff.mp hsame.symm
  · intro h
    refine ⟨verdict_iff_of_uniform h, ?_⟩
    intro dsLogs' hperm
    rw [Bool.eq_iff_iff, verdict_iff_of_uniform h, verdict_iff_of_uniform (uniform_perm hperm h)]
    simp only [hperm.mem_iff]

end Verdict

/-- Two uses of a token that was issued to `u`, and the users that they are logged for. -/
def mixedStore (sub sub' : String) : Loki where
  lines := [exchangeLine, answeredEntry "order-service" 20 sub "t" "201",
    answeredEntry "order-service" 30 sub' "t" "201"]
  fails := fun _ => false

/-- **A use by another user is not reported** if it is not the first one. -/
theorem mixedStore_accepted :
    check2 (mixedStore "u" "v") 300 0 100 = true ∧ check2 (mixedStore "v" "u") 300 0 100 = false ∧
      ¬ Judged ((mixedStore "u" "v").records 300 0 100)
      (queryLoki (mixedStore "u" "v") .exchanged 0 100) := by
  have haccepted : check2 (mixedStore "u" "v") 300 0 100 = true := by decide +kernel
  refine ⟨haccepted, by decide +kernel, ?_⟩
  rintro ⟨hiff, -⟩
  simp only [← fits_eq_true_iff] at hiff
  rw [check2_eq_verdict] at haccepted
  have hfits : fits ((mixedStore "u" "v").records 300 0 100)
      (answeredEntry "order-service" 30 "v" "t" "201") = false := by
    decide +kernel
  have hall := hiff.mp haccepted (answeredEntry "order-service" 30 "v" "t" "201") (by decide +kernel)
  rw [hfits] at hall
  cases hall

end Gekko.Audit
