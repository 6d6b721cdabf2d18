import Gekko.Delegation.Audited


/-! # `Gekko.Delegation.Bypass` — what CHECK2 reports

A client may have Keycloak issue a token for a service without any exchange. The service lets it in,
since its signature, its audience and its time are right, and so do those that this service calls on its
behalf, with tokens that are exchanged for it in good order. What is missing is the one event at the
beginning.

`bypasses_reported` says that CHECK2 finds exactly this, in the midst of all the other requests and
whatever the caches hand out again: under the heading of those without a record are the tokens that are
none of an exchange and were let in, and not those further down the chain of a bypass, which do have a
record. Somebody who sends the headers that Inventory Service logs can put more into the report, under
both headings. They can take nothing out of it.
-/

namespace Gekko.Audit

/-! ## The two headings -/

section Report

variable (records : String × String → Option Record) (dsLogs : List LogLine)

/-- `no_record`. -/
def noRecord : List ((String × String) × LogLine) := (seenPairs dsLogs).filter fun s => (records s.1).isNone

/-- `sub_mismatch`. -/
def subMismatch : List ((String × String) × LogLine) :=
  (seenPairs dsLogs).filter fun s => ((records s.1).bind Record.sub).any fun sub => s.2.get "sub" != some sub

variable {records dsLogs}

/-- CHECK2 is content if there is nothing to report. -/
theorem verdict_eq_true_iff_report :
    verdict records dsLogs = true ↔ noRecord records dsLogs = [] ∧ subMismatch records dsLogs = [] := by
  unfold verdict noRecord subMismatch
  rw [List.all_eq_true, List.filter_eq_nil_iff, List.filter_eq_nil_iff, ← forall₂_and]
  refine forall₂_congr fun s _ => ?_
  unfold backs
  cases records s.1 with
  | none => simp
  | some record => cases hsub : record.sub <;> simp [hsub]

end Report

end Gekko.Audit

namespace Gekko.Delegation

open Machine
open Audit (LogLine Query Loki noRecord subMismatch)

/-- The line is in the window, and not one of a refused token. -/
def Access.Within (access : Access) (startNs endNs : Int) : Prop :=
  access.status ≠ 401 ∧ startNs ≤ access.tsNs ∧ access.tsNs ≤ endNs

/-- The service has let in a token that is none of an exchange, and has a line with it in the window. -/
def World.Bypassed (w : World) (startNs endNs : Int) (service : Service) (jti : String) : Prop :=
  (∃ r ∈ w.requests, r.token ∈ w.granted ∧ r.service = service ∧ r.token.jti = jti) ∧
    ∃ access ∈ w.log, access.Within startNs endNs ∧ access.service = service ∧ access.jti = jti

/-- Somebody has had the service log this token id. -/
def World.Forged (w : World) (startNs endNs : Int) (service : Service) (jti : String) : Prop :=
  ∃ access ∈ w.forged, access.Within startNs endNs ∧ access.service = service ∧ access.jti = jti

/-- The store has the lines of the run, all of them. -/
structure Kept (lines : List LogLine) (w : World) : Prop extends Records lines w where
  kept : ∀ access ∈ w.log, ∃ e ∈ lines, Query.accesses.selects e = true ∧ access.LoggedAs e

section Report

variable {leeway : Service → Int} {lookbackSeconds duration startNs endNs : Int}
  {w : World} {as : List Action} {loki : Loki} {jti name : String} {e : LogLine} {t : Token}

/-- What CHECK2 looks at is in the window. -/
theorem within_of_loggedAs {access : Access} (hlogged : access.LoggedAs e)
    (he : e ∈ Audit.queryLoki loki .exchanged startNs endNs) : access.Within startNs endNs := by
  obtain ⟨-, hts, -, -, hstatus⟩ := hlogged
  obtain ⟨-, hselects, hfrom, hto⟩ := Audit.mem_queryLoki he
  have hanswered : e.get "status" ≠ some "401" := bne_iff_ne.mp (Bool.and_eq_true _ _ ▸ hselects : _ ∧ _).2
  rw [hts] at hfrom hto
  exact ⟨fun hrefused => hanswered (hstatus.mpr hrefused), hfrom, hto⟩

/-- A service that lets in such a token is a backend. -/
theorem backend_of_granted (hw : Sound as w) {r : Request} (hr : r ∈ w.requests) (ht : r.token ∈ w.granted) :
    r.service ≠ .frontend := by
  intro hfrontend
  obtain ⟨-, haudience⟩ := hw.issuance.grants r.token ht
  apply haudience
  exact hw.audience_frontend hr hfrontend

/-- There is no record of such a token. -/
theorem records_of_granted (hw : Sound as w) (hrecords : Records loki.lines w) (ht : t ∈ w.granted) :
    loki.records lookbackSeconds startNs endNs (t.jti, name) = none := by
  rw [Option.eq_none_iff_forall_ne_some]
  intro record hrecord
  obtain ⟨line, hline, hshown, -⟩ := Audit.exists_line_of_parse hrecord
  obtain ⟨hmem, hevent, -, -⟩ := Audit.mem_queryLoki hline
  rcases hrecords.events line hmem hevent with hnone | ⟨x, hx, hlogged⟩
  · rw [hshown] at hnone
    cases hnone
  · have hid : x.value.jti = t.jti := hlogged.of_shown hshown
    exact hw.issuance.jti_ne_of_granted hx ht hid

/-- The entry of a bypass is one that CHECK2 looks at. -/
theorem exists_entry_of_bypassed (hw : Sound as w) (hkept : Kept loki.lines w)
    (hanswers : loki.fails .exchanged = false)
    (hlimit : (loki.matching .exchanged startNs endNs).length < Audit.queryLimit) {service : Service}
    (h : w.Bypassed startNs endNs service jti) : ∃ e ∈ Audit.queryLoki loki .exchanged startNs endNs,
      Audit.jti? e = some jti ∧ e.service = service.name := by
  obtain ⟨⟨r, hr, hgranted, rfl, rfl⟩, access, haccess, ⟨hstatus, hfrom, hto⟩, hsame, hjti⟩ := h
  obtain ⟨e, he, hselects, hservice, hts, -, hget, hanswer⟩ := hkept.kept access haccess
  rw [hsame] at hservice
  refine ⟨e, Audit.mem_queryLoki_of_answers hanswers hlimit he ?_ ?_ ?_, ?_, hservice⟩
  · have htype : e.get "type" = some "access_log" := eq_of_beq (Bool.and_eq_true _ _ ▸ hselects : _ ∧ _).2
    have hbackend := backend_of_granted hw hr hgranted
    have hmem : Audit.exchangedTokenServices.contains e.service = true := by
      rw [hservice]
      revert hbackend
      cases r.service <;> decide +kernel
    have hother : e.get "status" ≠ some "401" := fun h => hstatus (hanswer.mp h)
    show (Audit.accessLog Audit.exchangedTokenServices e && e.get "status" != some "401") = true
    unfold Audit.accessLog
    rw [hmem, htype, bne_iff_ne.mpr hother]
    rfl
  · rw [hts]
    exact hfrom
  · rw [hts]
    exact hto
  · unfold Audit.jti?
    rw [hget, hjti]
    exact Option.filter_eq_some_iff.mpr ⟨rfl, decide_eq_true (hw.issuance.grants r.token hgranted).1⟩

/-- What a report about an entry comes from. -/
theorem blame_of_entry (hw : Sound as w) (hdated : Dated leeway (lookbackSeconds * 10 ^ 9) duration w)
    (hrecords : Records loki.lines w) (hanswers : loki.fails .exchanges = false)
    (hlimit : (loki.matching .exchanges (startNs - lookbackSeconds * 10 ^ 9) endNs).length < Audit.queryLimit)
    (he : e ∈ Audit.queryLoki loki .exchanged startNs endNs) (hjti : Audit.jti? e = some jti) :
    (∃ service, service.name = e.service ∧ w.Forged startNs endNs service jti) ∨
      (∃ service, service.name = e.service ∧ w.Bypassed startNs endNs service jti) ∨
      ∃ record, loki.records lookbackSeconds startNs endNs (jti, e.service) = some record ∧
        ∀ sub, record.sub = some sub → e.get "sub" = some sub := by
  have hid : ∀ {access : Access}, access.LoggedAs e → access.jti = jti := by
    rintro access ⟨-, -, -, hget, -⟩
    unfold Audit.jti? at hjti
    exact Option.some.inj (hget.symm.trans (Option.filter_eq_some_iff.mp hjti).1)
  rcases vouched_of_entry hw hdated hrecords hanswers hlimit he hjti with
    ⟨access, hforged, hlogged⟩ | ⟨r, hr, hgranted, hname, hrjti⟩ | hvouched
  · exact Or.inl ⟨access.service, hlogged.1.symm, access, hforged, within_of_loggedAs hlogged he,
                  rfl, hid hlogged⟩
  · -- The line is in the log, since the entry is in the store.
    obtain ⟨hmem, hselects, -, -⟩ := Audit.mem_queryLoki he
    have hlog : Audit.accessLog Audit.exchangedTokenServices e = true := (Bool.and_eq_true _ _ ▸ hselects).1
    obtain ⟨haccess, -⟩ := accesses_of_accessLog hlog (by decide +kernel)
    obtain ⟨access, hmem', hlogged⟩ := hrecords.accesses e hmem haccess
    have hservice : access.service = r.service := name_injective (hlogged.1.symm.trans hname.symm)
    exact Or.inr (Or.inl ⟨r.service, hname, ⟨r, hr, hgranted, rfl, hrjti⟩, access, hmem',
      within_of_loggedAs hlogged he, hservice, hid hlogged⟩)
  · exact Or.inr (Or.inr hvouched)

/-- **The report of CHECK2.** In every run: each bypass of the window is reported as a token without a
    record; whatever else is reported so is a forged line; and a record of another user is reported for
    forged lines only. -/
theorem bypasses_reported {now : Int} (hrun : run (step leeway) (World.start now) as = some w)
    (htimely : Along (step leeway) (Timely leeway (lookbackSeconds * 10 ^ 9) duration) (World.start now) as)
    (hkept : Kept loki.lines w) (startNs endNs : Int)
    (hanswers : loki.fails .exchanged = false ∧ loki.fails .exchanges = false)
    (hlimit : (loki.matching .exchanged startNs endNs).length < Audit.queryLimit ∧
      (loki.matching .exchanges (startNs - lookbackSeconds * 10 ^ 9) endNs).length < Audit.queryLimit) :
    let records := loki.records lookbackSeconds startNs endNs
    let dsLogs := Audit.queryLoki loki .exchanged startNs endNs
    (∀ service jti, w.Bypassed startNs endNs service jti →
        (jti, service.name) ∈ (noRecord records dsLogs).map (·.1)) ∧
      (∀ jti name, (jti, name) ∈ (noRecord records dsLogs).map (·.1) → ∃ service, service.name = name ∧
        (w.Bypassed startNs endNs service jti ∨ w.Forged startNs endNs service jti)) ∧
      (∀ jti name, (jti, name) ∈ (subMismatch records dsLogs).map (·.1) → ∃ service, service.name = name ∧
        w.Forged startNs endNs service jti) ∧
      (w.forged = [] → (Audit.check2 loki lookbackSeconds startNs endNs = false ↔
        ∃ service jti, w.Bypassed startNs endNs service jti)) := by
  have hw := sound_run hrun
  have hdated := dated_run hrun htimely
  intro records dsLogs
  have hreported : ∀ service jti, w.Bypassed startNs endNs service jti →
      (jti, service.name) ∈ (noRecord records dsLogs).map (·.1) := by
    intro service jti hbypassed
    obtain ⟨e, he, hjti, hname⟩ := exists_entry_of_bypassed hw hkept hanswers.1 hlimit.1 hbypassed
    obtain ⟨s, hs, hpair⟩ := Audit.exists_mem_seenPairs he hjti
    rw [hname] at hpair
    obtain ⟨⟨r, -, hgranted, -, rfl⟩, -⟩ := hbypassed
    refine List.mem_map.mpr ⟨s, List.mem_filter.mpr ⟨hs, ?_⟩, hpair⟩
    rw [hpair]
    exact Option.isNone_iff_eq_none.mpr (records_of_granted hw hkept.toRecords hgranted)
  have hblamed : ∀ jti name, (jti, name) ∈ (noRecord records dsLogs).map (·.1) →
      ∃ service, service.name = name ∧
      (w.Bypassed startNs endNs service jti ∨ w.Forged startNs endNs service jti) := by
    intro jti name hmem
    obtain ⟨⟨pair, e⟩, hs, rfl⟩ := List.mem_map.mp hmem
    obtain ⟨hseen, hnone⟩ := List.mem_filter.mp hs
    obtain ⟨he, hjti, hname⟩ := Audit.mem_seenPairs hseen
    have hname : e.service = name := hname
    rcases blame_of_entry hw hdated hkept.toRecords hanswers.2 hlimit.2 he hjti with
      ⟨service, hservice, hforged⟩ | ⟨service, hservice, hbypassed⟩ | ⟨record, hrecord, -⟩
    · exact ⟨service, hservice.trans hname, Or.inr hforged⟩
    · exact ⟨service, hservice.trans hname, Or.inl hbypassed⟩
    · have hsome : records (jti, name) = some record := hname ▸ hrecord
      rw [hsome] at hnone
      cases hnone
  have hmismatch : ∀ jti name, (jti, name) ∈ (subMismatch records dsLogs).map (·.1) →
      ∃ service, service.name = name ∧
      w.Forged startNs endNs service jti := by
    intro jti name hmem
    obtain ⟨⟨pair, e⟩, hs, rfl⟩ := List.mem_map.mp hmem
    obtain ⟨hseen, hany⟩ := List.mem_filter.mp hs
    obtain ⟨he, hjti, hname⟩ := Audit.mem_seenPairs hseen
    have hname : e.service = name := hname
    obtain ⟨sub, hsub, hne⟩ := (Option.any_eq_true _ _).mp hany
    obtain ⟨record, hrecord, hrecordSub⟩ := Option.bind_eq_some_iff.mp hsub
    rcases blame_of_entry hw hdated hkept.toRecords hanswers.2 hlimit.2 he hjti with
      ⟨service, hservice, hforged⟩ | ⟨service, hservice, ⟨r, -, hgranted, -, hrjti⟩, -⟩
        | ⟨record', hrecord', hfits⟩
    · exact ⟨service, hservice.trans hname, hforged⟩
    · -- A token that is none of an exchange has no record.
      have hnone : records (r.token.jti, name) = none := records_of_granted hw hkept.toRecords hgranted
      rw [hrjti, hrecord] at hnone
      cases hnone
    · have hrecord' : records (jti, name) = some record' := hname ▸ hrecord'
      have hsame : record' = record := Option.some.inj (hrecord'.symm.trans hrecord)
      exact absurd (hfits sub (hsame ▸ hrecordSub)) (bne_iff_ne.mp hne)
  refine ⟨hreported, hblamed, hmismatch, fun hforged => ?_⟩
  have hnobody : ∀ service jti, ¬ w.Forged startNs endNs service jti := by
    rintro service jti ⟨access, haccess, -⟩
    rw [hforged] at haccess
    cases haccess
  rw [Audit.check2_eq_verdict, ← Bool.not_eq_true, Audit.verdict_eq_true_iff_report]
  constructor
  · intro hreport
    have hone : ∃ s, s ∈ noRecord records dsLogs ∨ s ∈ subMismatch records dsLogs := by
      by_contra hno
      rw [not_exists] at hno
      apply hreport
      constructor
      · exact List.eq_nil_iff_forall_not_mem.mpr fun s hs => hno s (Or.inl hs)
      · exact List.eq_nil_iff_forall_not_mem.mpr fun s hs => hno s (Or.inr hs)
    obtain ⟨s, hs | hs⟩ := hone
    · obtain ⟨service, -, hcause⟩ := hblamed s.1.1 s.1.2 (List.mem_map_of_mem hs)
      exact ⟨service, s.1.1, hcause.resolve_right (hnobody _ _)⟩
    · obtain ⟨service, -, hcause⟩ := hmismatch s.1.1 s.1.2 (List.mem_map_of_mem hs)
      exact absurd hcause (hnobody _ _)
  · rintro ⟨service, jti, hbypassed⟩ ⟨hnil, -⟩
    have hmem := hreported service jti hbypassed
    have hnil : noRecord records dsLogs = [] := hnil
    rw [hnil] at hmem
    cases hmem

end Report

/-! ## The bypass of the demo -/

/-- After a request of a user, Order Service's client has a token for Inventory Service issued to
    itself, and is turned away for lack of a role. -/
def demoRun : List Action :=
  shortRun ++ [.grant .inventoryService "b" "service-account" 60,
    .present .inventoryService ⟨"b", "service-account", some .inventoryService, 60000000020⟩,
      .tick 10, .finish 2 403]

def demoStore : Loki where
  lines := shortStore.lines ++ [Audit.answeredEntry "inventory-service" 30 "service-account" "b" "403"]
  fails := fun _ => false

theorem demoRun_state : (run (step fun _ => 0) (World.start 0) demoRun).map
    (fun w => (w.log, w.exchanges.issues, w.logins)) =
    some
      ([⟨.orderService, 20, 201, "u", "t"⟩, ⟨.frontend, 20, 201, "u", "j"⟩,
          ⟨.inventoryService, 30, 403, "service-account", "b"⟩],
        [⟨⟨.frontend, 0, "s", ⟨"j", "u", none, 300000000000⟩, .orderService⟩,
          ⟨"t", "u", some .orderService, 60000000010⟩, ⟨.frontend, 60⟩, 10⟩],
        [⟨"s", ⟨"j", "u", none, 300000000000⟩, 0⟩]) := by
  decide +kernel

theorem demoRun_bypass : (run (step fun _ => 0) (World.start 0) demoRun).map
    (fun w => (w.granted, w.requests[2]?, w.forged)) =
    some
      ([⟨"b", "service-account", some .inventoryService, 60000000020⟩],
        some ⟨.inventoryService, ⟨"b", "service-account", some .inventoryService, 60000000020⟩,
              "", none, 20⟩, []) := by
  decide +kernel

theorem demoStore_kept {w : World} (hrun : run (step fun _ => 0) (World.start 0) demoRun = some w) :
    Kept demoStore.lines w := by
  have hstate := demoRun_state
  rw [hrun, Option.map_some, Option.some.injEq, Prod.mk.injEq, Prod.mk.injEq] at hstate
  obtain ⟨hlog, hissues, hlogins⟩ := hstate
  have hlogged : ∀ (access : Access) (status : String), access.LoggedAs
      (Audit.answeredEntry access.service.name access.tsNs access.sub access.jti status) ↔
        (status = "401" ↔ access.status = 401) := by
    intro access status
    constructor
    · rintro ⟨-, -, -, -, hstatus⟩
      rw [← hstatus]
      exact (Option.some_inj (a := status) (b := "401")).symm
    · intro hstatus
      refine ⟨rfl, rfl, rfl, rfl, ?_⟩
      rw [← hstatus]
      exact Option.some_inj (a := status) (b := "401")
  have hfirst := (hlogged ⟨.orderService, 20, 201, "u", "t"⟩ "201").mpr (by decide +kernel)
  have hsecond := (hlogged ⟨.frontend, 20, 201, "u", "j"⟩ "201").mpr (by decide +kernel)
  have hthird := (hlogged ⟨.inventoryService, 30, 403, "service-account", "b"⟩ "403").mpr (by decide +kernel)
  constructor
  · constructor
    · rw [hlog]
      have hselected : ∀ e ∈ demoStore.lines, Query.accesses.selects e = true →
          e = Audit.answeredEntry "order-service" 20 "u" "t" "201" ∨
            e = Audit.answeredEntry "frontend" 20 "u" "j" "201" ∨
              e = Audit.answeredEntry "inventory-service" 30 "service-account" "b" "403" := by
        decide +kernel
      intro e he hselects
      rcases hselected e he hselects with rfl | rfl | rfl
      · exact ⟨_, List.mem_cons_self, hfirst⟩
      · exact ⟨_, List.mem_cons_of_mem _ List.mem_cons_self, hsecond⟩
      · exact ⟨_, List.mem_cons_of_mem _ (List.mem_cons_of_mem _ List.mem_cons_self), hthird⟩
    · rw [hissues]
      have hselected : ∀ e ∈ demoStore.lines, Query.exchanges.selects e = true → e = Audit.exchangeLine := by
        decide +kernel
      intro e he hselects
      rw [hselected e he hselects]
      exact Or.inr ⟨_, List.mem_cons_self, Audit.exchangeLine_logged⟩
    · rw [hissues]
      intro x hx
      rw [List.mem_singleton.mp hx]
      exact ⟨Audit.exchangeLine, by decide +kernel, by decide +kernel, Audit.exchangeLine_logged, rfl⟩
    · rw [hlogins]
      intro l hl
      rw [List.mem_singleton.mp hl]
      exact ⟨Audit.loginLine 0 "u", by decide +kernel, by decide +kernel, by decide +kernel, rfl⟩
  · rw [hlog]
    intro access haccess
    rcases List.mem_cons.mp haccess with rfl | haccess
    · exact ⟨_, by decide +kernel, by decide +kernel, hfirst⟩
    rcases List.mem_cons.mp haccess with rfl | haccess
    · exact ⟨_, by decide +kernel, by decide +kernel, hsecond⟩
    · rw [List.mem_singleton.mp haccess]
      exact ⟨_, by decide +kernel, by decide +kernel, hthird⟩

/-- The token of the bypass is in the report. -/
theorem demoRun_reported : ("b", "inventory-service") ∈ (noRecord (demoStore.records 300 0 100)
      (Audit.queryLoki demoStore .exchanged 0 100)).map (·.1) ∧
    Audit.check2 demoStore 300 0 100 = false := by
  obtain ⟨w, hrun, hstate⟩ := Option.map_eq_some_iff.mp demoRun_state
  have hbypass := demoRun_bypass
  rw [hrun, Option.map_some, Option.some.injEq, Prod.mk.injEq, Prod.mk.injEq] at hbypass
  obtain ⟨hgranted, hlast, hforged⟩ := hbypass
  obtain ⟨hreported, -, -, hcheck2⟩ := @bypasses_reported (fun _ => 0) 300 20 w demoRun demoStore 0 hrun
    (by decide +kernel) (demoStore_kept hrun) 0 100 ⟨rfl, rfl⟩ ⟨by decide +kernel, by decide +kernel⟩
  have hbypassed : w.Bypassed 0 100 .inventoryService "b" := by
    constructor
    · refine ⟨_, List.mem_of_getElem? hlast, ?_, rfl, rfl⟩
      rw [hgranted]
      exact List.mem_cons_self
    · refine ⟨⟨.inventoryService, 30, 403, "service-account", "b"⟩, ?_,
              ⟨by decide, by decide, by decide⟩, rfl, rfl⟩
      rw [show w.log = _ from congrArg Prod.fst hstate]
      decide +kernel
  exact ⟨hreported _ _ hbypassed, (hcheck2 hforged).mpr ⟨_, _, hbypassed⟩⟩

/-- A made-up line alone makes CHECK2 fail. -/
example : Audit.check2 ⟨[Audit.answeredEntry "inventory-service" 0 "u" "x" "404"],
                        fun _ => false⟩ 300 0 100 = false := by
  decide +kernel

end Gekko.Delegation
