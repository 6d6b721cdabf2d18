import Gekko.Audit.LogLines
import Gekko.Audit.Reuse
import Gekko.Delegation.Chain


/-! # `Gekko.Delegation.Audited` — the audit of a run

The audit script reads the access logs of the five services and Keycloak's events, and knows nothing
else of what the services have done. Here the logs are those of a run of `Gekko.Delegation.World`.

CHECK1 and CHECK2 then have nothing to report, in any window. For CHECK2 this takes what
`EXCHANGE_LOOKBACK_SECONDS` has to make up for: an entry is written when a request has been answered,
its token may have been let in until the end of its lifetime and the leeway that a library gives on top,
and the event lies at the beginning of that lifetime. A window that begins before the first login has
nothing to report for CHECK3 either. All this goes for tokens in the wrong hands just as well: what the
checks can find is a service that lets in a token that is not for it, a token that is none of an
exchange, and a line that somebody has made up. The runs without any of these are those without an
alarm.
-/

namespace Gekko.Delegation

open Machine
open Audit (LogLine Query Loki)

/-- Tokens live and requests take no longer than the lookback makes up for: `duration` bounds the time
    from when a request comes in to when it is logged. -/
def Timely (leeway : Service → Int) (lookback duration : Int) (w : World) : Action → Prop
  | .issue i _ expiresIn =>
      ∀ c ∈ w.exchanges.calls[i]?, expiresIn * second + leeway c.request.audience + duration ≤ lookback
  | .finish n _ => ∀ r ∈ w.requests[n]?, w.exchanges.now ≤ r.receivedAt + duration
  | _ => True

instance (leeway : Service → Int) (lookback duration : Int) (w : World) (a : Action) :
    Decidable (Timely leeway lookback duration w a) := by
  unfold Timely
  cases a <;> infer_instance

/-! ## When things have happened -/

/-- Somebody of this name has logged in by then. -/
def World.LoggedIn (w : World) (sub : String) (time : Int) : Prop :=
  ∃ l ∈ w.logins, l.token.sub = sub ∧ l.time ≤ time

/-- Somebody of this name has logged in by then, or a client has had a token issued without a login. -/
def World.Known (w : World) (sub : String) (time : Int) : Prop :=
  w.LoggedIn sub time ∨ ∃ t ∈ w.granted, t.sub = sub

/-- The token was issued for the service, and it was good at this time. -/
def World.Good (w : World) (leeway : Service → Int) (service : Service) (token : Token) (time : Int) : Prop :=
  ∃ x ∈ w.exchanges.issues, x.value = token ∧ x.issuedAt ≤ time ∧ time < token.expiresAt + leeway service

/-- The line names no token, or that of a request that was answered in time, or what somebody has sent. -/
def World.Written (w : World) (duration : Int) (access : Access) : Prop :=
  (∃ b, access.service.anonymous = some b ∧ access.sub = b ∧ access.jti = b) ∨
    (∃ r ∈ w.requests, access.service = r.service ∧ access.sub = r.token.sub ∧ access.jti = r.token.jti ∧
      r.receivedAt ≤ access.tsNs ∧ access.tsNs ≤ r.receivedAt + duration) ∨
    access ∈ w.forged

structure Dated (leeway : Service → Int) (lookback duration : Int) (w : World) : Prop where
  logins : ∀ l ∈ w.logins, l.time ≤ w.exchanges.now
  issues : ∀ x ∈ w.exchanges.issues, x.issuedAt ≤ w.exchanges.now ∧ w.Known x.value.sub x.issuedAt ∧
    x.value.expiresAt + leeway x.request.audience + duration ≤ x.issuedAt + lookback
  requests : ∀ r ∈ w.requests, r.receivedAt ≤ w.exchanges.now ∧ w.Known r.token.sub r.receivedAt ∧
    (r.service ≠ .frontend → r.token ∈ w.granted ∨ w.Good leeway r.service r.token r.receivedAt)
  log : ∀ access ∈ w.log, w.Written duration access

section Dates

variable {leeway : Service → Int} {lookback duration : Int} {w w' : World} {as : List Action} {a : Action}

theorem World.LoggedIn.mono {sub : String} {time : Int} (h : w.LoggedIn sub time) (hgrows : Grows w w') :
    w'.LoggedIn sub time := by
  obtain ⟨l, hl, hrest⟩ := h
  exact ⟨l, hgrows.logins l hl, hrest⟩

theorem World.LoggedIn.later {sub : String} {time time' : Int} (h : w.LoggedIn sub time)
    (hle : time ≤ time') :
    w.LoggedIn sub time' := by
  obtain ⟨l, hl, hsub, htime⟩ := h
  exact ⟨l, hl, hsub, htime.trans hle⟩

theorem World.Known.later {sub : String} {time time' : Int} (h : w.Known sub time) (hle : time ≤ time') :
    w.Known sub time' := h.imp (fun hlogin => hlogin.later hle) id

theorem World.Known.mono {sub : String} {time : Int} (h : w.Known sub time) (hgrows : Grows w w') :
    w'.Known sub time := by
  refine h.imp (fun hlogin => hlogin.mono hgrows) ?_
  rintro ⟨t, ht, hsub⟩
  exact ⟨t, hgrows.granted t ht, hsub⟩

theorem World.Good.mono {service : Service} {token : Token} {time : Int}
    (h : w.Good leeway service token time)
    (hgrows : Grows w w') : w'.Good leeway service token time := by
  obtain ⟨x, hx, hrest⟩ := h
  exact ⟨x, hgrows.issues x hx, hrest⟩

theorem World.Written.mono {access : Access} (h : w.Written duration access) (hgrows : Grows w w') :
    w'.Written duration access := by
  refine h.imp id (Or.imp ?_ (hgrows.forged access))
  rintro ⟨r, hr, hrest⟩
  obtain ⟨n, hn⟩ := List.mem_iff_getElem?.mp hr
  exact ⟨r, List.mem_of_getElem? (hgrows.requests n r hn), hrest⟩

/-- Time does not run backwards. -/
theorem Stepped.now_le (h : Stepped leeway w a w') : w.exchanges.now ≤ w'.exchanges.now := by
  rcases h.exchanges with heq | ⟨b, hb, -⟩
  · rw [heq]
  · rcases TimedCache.step_moved hb with ⟨elapsed, -, heq⟩ | ⟨x, -, heq⟩ | ⟨i, c, u, phase, -, hmoved, heq⟩
    · rw [heq]
      show w.exchanges.now ≤ w.exchanges.now + elapsed
      omega
    · rw [heq]
    · rw [heq]
      have hnow : u.now = w.exchanges.now := by
        cases hmoved <;> rfl
      exact hnow.ge

/-- What is let in at a backend was issued for it, and is good, unless it is none of an exchange. -/
theorem good_of_verifies (hw : Sound as w) (hdated : Dated leeway lookback duration w) {service : Service}
    {token : Token} (h : w.verifies leeway service token = true) :
    (token ∈ w.granted ∨ w.Good leeway service token w.exchanges.now) ∧
    w.Known token.sub w.exchanges.now := by
  obtain ⟨hissued, haudience, htime⟩ := verifies_iff.mp h
  rcases mem_issued.mp hissued with ⟨l, hl, rfl⟩ | ⟨x, hx, rfl⟩ | hgranted
  · -- The token of a login is for no backend.
    rw [hw.issuance.untargeted l hl] at haudience
    cases haudience
  · obtain ⟨hle, hknown, -⟩ := hdated.issues x hx
    exact ⟨Or.inr ⟨x, hx, rfl, hle, htime⟩, hknown.later hle⟩
  · exact ⟨Or.inl hgranted, Or.inr ⟨token, hgranted, rfl⟩⟩

/-- A request that is let in. -/
theorem dated_of_admits (hw : Sound as w) (hdated : Dated leeway lookback duration w) {r : Request}
    (h : w.Admits leeway a r) : r.receivedAt ≤ w.exchanges.now ∧ w.Known r.token.sub r.receivedAt ∧
      (r.service ≠ .frontend → r.token ∈ w.granted ∨ w.Good leeway r.service r.token r.receivedAt) := by
  cases h with
  | browsed session status token hsession =>
      obtain ⟨l, hl, -, rfl⟩ := hw.issuance.sessions session token hsession
      exact ⟨le_rfl, Or.inl ⟨l, hl, rfl, hdated.logins l hl⟩, fun hservice => absurd rfl hservice⟩
  | delivered i c token hc hphase hverifies =>
      obtain ⟨hgood, hknown⟩ := good_of_verifies hw hdated hverifies
      exact ⟨le_rfl, hknown, fun _ => hgood⟩
  | presented service token hservice hverifies =>
      obtain ⟨hgood, hknown⟩ := good_of_verifies hw hdated hverifies
      exact ⟨le_rfl, hknown, fun _ => hgood⟩

/-- A line that is written. -/
theorem written_of_tells (hdated : Dated leeway lookback duration w) {access : Access} (h : w.Tells a access)
    (htimely : Timely leeway lookback duration w a) : w.Written duration access := by
  cases h with
  | finished n r status hr =>
      have hmem := List.mem_of_getElem? hr
      exact Or.inr (Or.inl ⟨r, hmem, rfl, rfl, rfl, (hdated.requests r hmem).1, htimely r hr⟩)
  | blank a service status b hb => exact Or.inl ⟨b, hb, rfl, rfl⟩

/-- **Step lemma.** -/
theorem dated_step (hw : Sound as w) (hdated : Dated leeway lookback duration w)
    (htimely : Timely leeway lookback duration w a) (h : Stepped leeway w a w') :
    Dated leeway lookback duration w' where
  logins := by
    have hold : ∀ l ∈ w.logins, l.time ≤ w'.exchanges.now := fun l hl => (hdated.logins l hl).trans h.now_le
    rcases h.logins with heq | ⟨_, _, _, _, -, -, -, heq⟩
    · rw [heq]
      exact hold
    · rw [heq]
      exact Pool.forall_mem_append_singleton hold h.now_le
  issues := by
    have hold : ∀ x ∈ w.exchanges.issues, x.issuedAt ≤ w'.exchanges.now ∧ w'.Known x.value.sub x.issuedAt ∧
        x.value.expiresAt + leeway x.request.audience + duration ≤ x.issuedAt + lookback := by
      intro x hx
      obtain ⟨hle, hknown, hspan⟩ := hdated.issues x hx
      exact ⟨hle.trans h.now_le, hknown.mono h.grows, hspan⟩
    rcases h.issues with heq | ⟨i, jti, expiresIn, c, rfl, hc, -, heq⟩
    · rw [heq]
      exact hold
    · rw [heq]
      refine Pool.forall_mem_append_singleton hold ⟨h.now_le, ?_, ?_⟩
      · -- The user of the subject token was known when the request came in.
        obtain ⟨r, hr, -, -, -, hsubject⟩ := hw.request_of_made (hw.made.calls c (List.mem_of_getElem? hc))
        obtain ⟨hreceived, hknown, -⟩ := hdated.requests r hr
        rw [← hsubject] at hknown
        exact (hknown.later hreceived).mono h.grows
      · have hspan := htimely c hc
        show w.exchanges.now + expiresIn * second + leeway c.request.audience + duration ≤
            w.exchanges.now + lookback
        omega
  requests := by
    have hstays : ∀ r : Request, (r.service ≠ .frontend → r.token ∈ w.granted ∨
        w.Good leeway r.service r.token r.receivedAt) →
        r.service ≠ .frontend → r.token ∈ w'.granted ∨ w'.Good leeway r.service r.token r.receivedAt :=
      fun r hr hservice => (hr hservice).imp (h.grows.granted _) fun hgood => hgood.mono h.grows
    have hold : ∀ r ∈ w.requests, r.receivedAt ≤ w'.exchanges.now ∧ w'.Known r.token.sub r.receivedAt ∧
        (r.service ≠ .frontend → r.token ∈ w'.granted ∨ w'.Good leeway r.service r.token r.receivedAt) := by
      intro r hr
      obtain ⟨hle, hknown, hgood⟩ := hdated.requests r hr
      exact ⟨hle.trans h.now_le, hknown.mono h.grows, hstays r hgood⟩
    rcases h.requests with heq | ⟨r, heq, hadmits⟩
    · rw [heq]
      exact hold
    · rw [heq]
      obtain ⟨hle, hknown, hgood⟩ := dated_of_admits hw hdated hadmits
      exact Pool.forall_mem_append_singleton hold ⟨hle.trans h.now_le, hknown.mono h.grows, hstays r hgood⟩
  log := by
    have hold : ∀ access ∈ w.log, w'.Written duration access :=
      fun access haccess => (hdated.log access haccess).mono h.grows
    rcases h.log with heq | ⟨access, heq, htells | hforged⟩
    · rw [heq]
      exact hold
    · rw [heq]
      exact Pool.forall_mem_append_singleton hold ((written_of_tells hdated htells htimely).mono h.grows)
    · rw [heq]
      exact Pool.forall_mem_append_singleton hold (Or.inr (Or.inr hforged))

theorem dated_start (now : Int) : Dated leeway lookback duration (World.start now) where
  logins := by
    intro l hl
    cases hl
  issues := by
    intro x hx
    cases hx
  requests := by
    intro r hr
    cases hr
  log := by
    intro access haccess
    cases haccess

theorem dated_run {now : Int} (hrun : run (step leeway) (World.start now) as = some w)
    (htimely : Along (step leeway) (Timely leeway lookback duration) (World.start now) as) :
    Dated leeway lookback duration w := by
  have hboth : (∃ bs, Sound bs w) ∧ Dated leeway lookback duration w := by
    refine run_invariant_along (I := fun w => (∃ bs, Sound bs w) ∧ Dated leeway lookback duration w) ?_
      ⟨⟨[], sound_start now⟩, dated_start now⟩ htimely hrun
    rintro u a v ⟨⟨bs, hu⟩, hdated⟩ htime h
    have hstepped := stepped_of_step h
    exact ⟨⟨_, sound_step hu hstepped⟩, dated_step hu hdated htime hstepped⟩
  exact hboth.2

end Dates

/-! ## The log store -/

/-- The line of an access log, as the script reads it. -/
def Access.LoggedAs (access : Access) (e : LogLine) : Prop :=
  e.service = access.service.name ∧ e.tsNs = access.tsNs ∧ e.get "sub" = some access.sub ∧
    e.get "jti" = some access.jti ∧ (e.get "status" = some "401" ↔ access.status = 401)

/-- What Keycloak logs of an exchange. -/
def exchangeOf (x : TimedCache.Issue Exchange Token Lifetime) : Audit.Exchange :=
  ⟨x.value.jti, x.request.audience.name, x.request.subject.sub⟩

/-- The lines of the store are those of the run, as far as the script asks for them. -/
structure Records (lines : List LogLine) (w : World) : Prop where
  accesses : ∀ e ∈ lines, Query.accesses.selects e = true → ∃ access ∈ w.log, access.LoggedAs e
  /-- A line with the text `TOKEN_EXCHANGE` names no token, or is that of an exchange. -/
  events : ∀ e ∈ lines, Query.exchanges.selects e = true → e.shown = none ∨
    ∃ x ∈ w.exchanges.issues, (exchangeOf x).LoggedAs e
  exchanges : ∀ x ∈ w.exchanges.issues, ∃ e ∈ lines, Query.exchanges.selects e = true ∧
    (exchangeOf x).LoggedAs e ∧ e.tsNs = x.issuedAt
  logins : ∀ l ∈ w.logins, ∃ e ∈ lines, Query.logins.selects e = true ∧ Audit.uid? e = some l.token.sub ∧
    e.tsNs = l.time

/-- The prints of the services about requests are those of the run. -/
def PrintsLog (prints : Service → List (Audit.Printed × Int)) (w : World) : Prop :=
  ∀ service, ∀ p ∈ prints service, p.1.told.type = some "access_log" →
    ∃ access ∈ w.log, access.service = service ∧ access.tsNs = p.2 ∧ p.1.told.sub = some access.sub ∧
      p.1.told.jti = some access.jti ∧ (p.1.told.status = some "401" ↔ access.status = 401)

/-- What is collected of the outputs of the services has no other accesses than those of the run. -/
theorem accesses_of_stdout {spring : Audit.Structured} (hspring : spring.Plain) {w : World}
    {prints : Service → List (Audit.Printed × Int)} (hprints : PrintsLog prints w)
    {service : Service} {e : LogLine} (he : e ∈ Audit.collect service.name ((prints service).map (·.2))
      (Audit.stdout spring ((prints service).map (·.1))))
    (hselects : Query.accesses.selects e = true) : ∃ access ∈ w.log, access.LoggedAs e := by
  rw [Audit.collect_eq hspring] at he
  obtain ⟨p, hp, rfl⟩ := List.mem_map.mp he
  have htold := @Audit.told_text spring service.name p.2 hspring p.1
  have htype : p.1.told.type = some "access_log" := by
    rw [← htold]
    exact eq_of_beq (Bool.and_eq_true _ _ ▸ hselects : _ ∧ _).2
  obtain ⟨access, haccess, hservice, hts, hsub, hjti, hstatus⟩ := hprints service p hp htype
  refine ⟨access, haccess, congrArg Service.name hservice.symm, hts.symm, ?_, ?_, ?_⟩
  · rw [← hsub, ← htold]
    rfl
  · rw [← hjti, ← htold]
    rfl
  · rw [← hstatus, ← htold]
    rfl

section Store

variable {leeway : Service → Int} {lookback duration : Int} {w : World} {as : List Action}
  {lines : List LogLine} {e e' : LogLine} {jti : String}

theorem anonymous_blank {service : Service} {b : String} (h : service.anonymous = some b) :
    b = "-" ∨ b = "" := by
  cases service <;> cases h
  · exact Or.inl rfl
  · exact Or.inr rfl
  · exact Or.inl rfl

/-- An entry with a token id is that of a request with this token, or it is forged. -/
theorem request_of_jti (hdated : Dated leeway lookback duration w) (hrecords : Records lines w)
    (he : e ∈ lines) (hselects : Query.accesses.selects e = true) (hjti : Audit.jti? e = some jti) :
    (∃ access ∈ w.forged, access.LoggedAs e) ∨
      ∃ r ∈ w.requests, e.service = r.service.name ∧ r.token.jti = jti ∧ e.get "sub" = some r.token.sub ∧
        r.receivedAt ≤ e.tsNs ∧ e.tsNs ≤ r.receivedAt + duration := by
  obtain ⟨access, haccess, hlogged⟩ := hrecords.accesses e he hselects
  have ⟨hservice, hts, hsub, hid, _⟩ := hlogged
  unfold Audit.jti? at hjti
  obtain ⟨hget, hreal⟩ := Option.filter_eq_some_iff.mp hjti
  have hsame : access.jti = jti := Option.some.inj (hid.symm.trans hget)
  rcases hdated.log access haccess with
    ⟨b, hb, -, hblank⟩ | ⟨r, hr, hrservice, hrsub, hrjti, hfrom, hto⟩ | hforged
  · -- A blank is not taken for a token id.
    have hne := of_decide_eq_true hreal
    rw [← hsame, hblank] at hne
    rcases anonymous_blank hb with rfl | rfl
    · exact absurd rfl hne.1
    · exact absurd rfl hne.2
  · rw [hts]
    exact Or.inr ⟨r, hr, hservice.trans (congrArg Service.name hrservice), hrjti.symm.trans hsame,
      hrsub ▸ hsub, hfrom, hto⟩
  · exact Or.inl ⟨access, hforged, hlogged⟩

/-- Nobody has sent a made-up line. -/
theorem not_forged (hforged : w.forged = []) : ¬ ∃ access ∈ w.forged, access.LoggedAs e := by
  rintro ⟨access, haccess, -⟩
  rw [hforged] at haccess
  cases haccess

theorem name_injective {service service' : Service} (h : service.name = service'.name) :
    service = service' := by
  cases service <;> cases service' <;> first | rfl | (revert h; decide +kernel)

/-- The services that a query asks for are among the five. -/
theorem accesses_of_accessLog {services : List String} (h : Audit.accessLog services e = true)
    (hsub : services ⊆ Audit.userFacingServices ++ Audit.downstreamServices) :
    Query.accesses.selects e = true ∧ e.service ∈ services := by
  unfold Audit.accessLog at h
  rw [Bool.and_eq_true] at h
  have hmem : e.service ∈ services := List.contains_iff_mem.mp h.1
  refine ⟨?_, hmem⟩
  show Audit.accessLog _ e = true
  unfold Audit.accessLog
  rw [Bool.and_eq_true]
  exact ⟨List.contains_iff_mem.mpr (hsub hmem), h.2⟩

/-- **CHECK1** compares token ids of different services. -/
theorem check1_of_run (hw : Sound as w) (hdated : Dated leeway lookback duration w) (hforged : w.forged = [])
    {loki : Loki} (hrecords : Records loki.lines w) (startNs endNs : Int) :
    Audit.check1 loki startNs endNs = true := by
  unfold Audit.check1 Audit.bypassed
  rw [List.isEmpty_iff, List.filter_eq_nil_iff]
  intro jti hjti hcontains
  obtain ⟨e, he, hid⟩ := List.mem_filterMap.mp hjti
  obtain ⟨e', he', hid'⟩ := List.mem_filterMap.mp (List.contains_iff_mem.mp hcontains)
  obtain ⟨hmem, hselects, -⟩ := Audit.mem_queryLoki he
  obtain ⟨hmem', hselects', -⟩ := Audit.mem_queryLoki he'
  obtain ⟨haccess, hservice⟩ := accesses_of_accessLog hselects (by decide +kernel)
  obtain ⟨haccess', hservice'⟩ := accesses_of_accessLog hselects' (by decide +kernel)
  obtain ⟨r, hr, hname, hrjti, -⟩ :=
    (request_of_jti hdated hrecords hmem haccess hid).resolve_left (not_forged hforged)
  obtain ⟨r', hr', hname', hrjti', -⟩ :=
    (request_of_jti hdated hrecords hmem' haccess' hid').resolve_left (not_forged hforged)
  obtain ⟨hsame, -⟩ := hw.service_of_jti hr hr' (hrjti.trans hrjti'.symm)
  rw [hname] at hservice
  rw [hname', ← hsame] at hservice'
  revert hservice hservice'
  cases r.service <;> decide +kernel

/-- What can be behind an entry that CHECK2 looks at: a forged line, a token that is none of an
    exchange, or one of an exchange. -/
theorem cases_of_entry (hw : Sound as w) (hdated : Dated leeway lookback duration w)
    (hrecords : Records lines w) (he : e ∈ lines) (hselects : Query.exchanged.selects e = true)
    (hjti : Audit.jti? e = some jti) : (∃ access ∈ w.forged, access.LoggedAs e) ∨
      (∃ r ∈ w.requests, r.token ∈ w.granted ∧ r.service.name = e.service ∧ r.token.jti = jti) ∨
      ∃ x ∈ w.exchanges.issues, exchangeOf x = ⟨jti, e.service, x.value.sub⟩ ∧
        e.get "sub" = some x.value.sub ∧ e.tsNs - lookback ≤ x.issuedAt ∧ x.issuedAt ≤ e.tsNs := by
  have hlog : Audit.accessLog Audit.exchangedTokenServices e = true := (Bool.and_eq_true _ _ ▸ hselects).1
  obtain ⟨haccess, hservice⟩ := accesses_of_accessLog hlog (by decide +kernel)
  refine (request_of_jti hdated hrecords he haccess hjti).imp id ?_
  rintro ⟨r, hr, hname, hrjti, hsub, hfrom, hto⟩
  have hbackend : r.service ≠ .frontend := by
    intro hfrontend
    rw [hname, hfrontend] at hservice
    revert hservice
    decide +kernel
  rcases (hdated.requests r hr).2.2 hbackend with hgranted | ⟨x, hx, hvalue, hissued, htime⟩
  · exact Or.inl ⟨r, hr, hgranted, hname.symm, hrjti⟩
  · obtain ⟨haudience, hissuedSub⟩ := hw.issuance.granted x hx
    have hfor : x.request.audience = r.service := by
      rw [hvalue, ((hw.letIn r hr).backend hbackend).2] at haudience
      exact (Option.some.inj haudience).symm
    have hspan := (hdated.issues x hx).2.2
    refine Or.inr ⟨x, hx, ?_, ?_, ?_, hissued.trans hfrom⟩
    · unfold exchangeOf
      rw [hvalue, hrjti, hfor, hname, ← hissuedSub, hvalue]
    · rw [hvalue]
      exact hsub
    · rw [hvalue, hfor] at hspan
      omega

section Vouching

variable {lookbackSeconds startNs endNs : Int} {loki : Loki}

/-- **What the records say of an entry**: if it is neither forged nor one of a token without an
    exchange, then there is a record for it, and one for the right user. -/
theorem vouched_of_entry (hw : Sound as w) (hdated : Dated leeway (lookbackSeconds * 10 ^ 9) duration w)
    (hrecords : Records loki.lines w) (hanswers : loki.fails .exchanges = false)
    (hlimit : (loki.matching .exchanges (startNs - lookbackSeconds * 10 ^ 9) endNs).length < Audit.queryLimit)
    (he : e ∈ Audit.queryLoki loki .exchanged startNs endNs) (hjti : Audit.jti? e = some jti) :
    (∃ access ∈ w.forged, access.LoggedAs e) ∨
      (∃ r ∈ w.requests, r.token ∈ w.granted ∧ r.service.name = e.service ∧ r.token.jti = jti) ∨
      ∃ record, loki.records lookbackSeconds startNs endNs (jti, e.service) = some record ∧
        ∀ sub, record.sub = some sub → e.get "sub" = some sub := by
  obtain ⟨hmem, hselects, hstart, hend⟩ := Audit.mem_queryLoki he
  refine (cases_of_entry hw hdated hrecords hmem hselects hjti).imp id (Or.imp id ?_)
  rintro ⟨x, hx, hexchange, hsub, hlookback, hbefore⟩
  obtain ⟨line, hline, hevent, hlogged, hts⟩ := hrecords.exchanges x hx
  have hne : jti ≠ "" := Audit.jti?_ne_empty hjti
  have hshown : line.shown = some (jti, e.service) := by
    rw [hexchange] at hlogged
    exact hlogged.shown_eq hne (Audit.service_ne_empty hselects)
  -- The event lies in the window of the events.
  have hreturned : line ∈ Audit.queryLoki loki .exchanges (startNs - lookbackSeconds * 10 ^ 9) endNs :=
    Audit.mem_queryLoki_of_answers hanswers hlimit hline hevent (by omega) (by omega)
  obtain ⟨record, hrecord⟩ :=
    Option.isSome_iff_exists.mp (Audit.isSome_parse_iff.mpr ⟨line, hreturned, hshown⟩)
  refine ⟨record, hrecord, fun sub hrecordSub => ?_⟩
  -- Whatever line the record was made from, it is one of the same exchange.
  obtain ⟨line', hline', hshown', hmade⟩ := Audit.exists_line_of_parse hrecord
  obtain ⟨hmem', hevent', -, -⟩ := Audit.mem_queryLoki hline'
  rcases hrecords.events line' hmem' hevent' with hnone | ⟨x', hx', hlogged'⟩
  · rw [hshown'] at hnone
    cases hnone
  · have hid : x'.value.jti = jti := hlogged'.of_shown hshown'
    have hxid : x.value.jti = jti := congrArg Audit.Exchange.tokenId hexchange
    have hsame : x' = x := hw.issuance.issue_of_jti hx' hx (hid.trans hxid.symm)
    rw [hsame, hexchange] at hlogged'
    have hrec := hlogged'.record_sub
    rw [hmade, hrecordSub] at hrec
    rw [hsub]
    split at hrec
    · cases hrec
    · exact hrec.symm

/-- **CHECK2** finds a record for every entry, and for the right user. -/
theorem check2_of_run (hw : Sound as w) (hdated : Dated leeway (lookbackSeconds * 10 ^ 9) duration w)
    (hgranted : w.granted = []) (hforged : w.forged = []) (hrecords : Records loki.lines w)
    (hanswers : loki.fails .exchanges = false)
    (hlimit : (loki.matching .exchanges (startNs - lookbackSeconds * 10 ^ 9) endNs).length <
      Audit.queryLimit) :
    Audit.check2 loki lookbackSeconds startNs endNs = true := by
  rw [Audit.check2_eq_verdict]
  refine Audit.verdict_of_fits fun e he => Audit.fits_eq_true_iff.mpr fun jti hjti => ?_
  rcases vouched_of_entry hw hdated hrecords hanswers hlimit he hjti with hmade | ⟨r, -, hr, -⟩ | hvouched
  · exact absurd hmade (not_forged hforged)
  · rw [hgranted] at hr
    cases hr
  · exact hvouched

end Vouching

/-- The user of an entry has logged in by then. -/
theorem loggedIn_of_entry (hgranted : w.granted = []) (hforged : w.forged = [])
    (hdated : Dated leeway lookback duration w) (hrecords : Records lines w) {sub : String}
    (he : e ∈ lines) (hselects : Query.accesses.selects e = true) (hsub : Audit.sub? e = some sub) :
    w.LoggedIn sub e.tsNs := by
  obtain ⟨access, haccess, -, hts, hget, -, -⟩ := hrecords.accesses e he hselects
  unfold Audit.sub? at hsub
  obtain ⟨hget', hreal⟩ := Option.filter_eq_some_iff.mp hsub
  have hsame : access.sub = sub := Option.some.inj (hget.symm.trans hget')
  rcases hdated.log access haccess with ⟨b, hb, hblank, -⟩ | ⟨r, hr, -, hrsub, -, hfrom, -⟩ | hmade
  · have hne := of_decide_eq_true hreal
    rw [← hsame, hblank] at hne
    rcases anonymous_blank hb with rfl | rfl
    · exact absurd rfl hne.2
    · exact absurd rfl hne.1
  · rcases (hdated.requests r hr).2.1 with ⟨l, hl, hlsub, hlogin⟩ | ⟨t, ht, -⟩
    · refine ⟨l, hl, ?_, ?_⟩
      · rw [hlsub, ← hrsub, hsame]
      · rw [hts]
        exact hlogin.trans hfrom
    · rw [hgranted] at ht
      cases ht
  · rw [hforged] at hmade
    cases hmade

/-- **CHECK3**, for a window that begins before the first login. -/
theorem check3_of_run (hgranted : w.granted = []) (hforged : w.forged = [])
    (hdated : Dated leeway lookback duration w) {loki : Loki} (hrecords : Records loki.lines w)
    {startNs endNs : Int} (hstart : ∀ l ∈ w.logins, startNs ≤ l.time) (hanswers : loki.fails .logins = false)
    (hlimit : (loki.matching .logins startNs endNs).length < Audit.queryLimit) :
    Audit.check3 loki startNs endNs = true := by
  unfold Audit.check3
  rw [Bool.not_eq_true', List.any_eq_false]
  intro sub _
  rw [Bool.not_eq_true, Audit.isHardViolation_eq_false_iff]
  intro access haccess login hlogin
  -- The first access of a user is some entry, and there is a login of theirs no later.
  obtain ⟨e, he, hsub, hle⟩ := Audit.earliest_le_iff.mp ⟨access, haccess, le_rfl⟩
  obtain ⟨hmem, hselects, -, hend⟩ := Audit.mem_queryLoki he
  obtain ⟨l, hl, hlsub, hltime⟩ := loggedIn_of_entry hgranted hforged hdated hrecords hmem hselects hsub
  obtain ⟨line, hline, hlselects, huid, hts⟩ := hrecords.logins l hl
  have hfrom := hstart l hl
  have hreturned : line ∈ Audit.queryLoki loki .logins startNs endNs :=
    Audit.mem_queryLoki_of_answers hanswers hlimit hline hlselects (by omega) (by omega)
  obtain ⟨first, hfirst, hfirstLe⟩ := Audit.earliest_le_iff.mpr
    ⟨line, hreturned, (hlsub ▸ huid : Audit.uid? line = some sub), le_rfl⟩
  have hsame : first = login := Option.mem_unique hfirst hlogin
  omega

end Store

/-- **No false alarm.** Whatever the users, the services and those in between have done, as long as
    every token for a service is one of an exchange and nobody sends the headers that Inventory Service
    logs: CHECK1 and CHECK2 report nothing in any window, and a window that begins before the first
    login ends with status 0. -/
theorem no_alarm_of_run {leeway : Service → Int} {lookbackSeconds duration now : Int}
    {as : List Action} {w : World} (hrun : run (step leeway) (World.start now) as = some w)
    (htimely : Along (step leeway) (Timely leeway (lookbackSeconds * 10 ^ 9) duration) (World.start now) as)
    (hgranted : w.granted = []) (hforged : w.forged = []) {loki : Loki} (hrecords : Records loki.lines w)
    (startNs endNs : Int) (hanswers : loki.fails .exchanges = false ∧ loki.fails .logins = false)
    (hlimit : (loki.matching .exchanges (startNs - lookbackSeconds * 10 ^ 9) endNs).length <
      Audit.queryLimit ∧
      (loki.matching .logins startNs endNs).length < Audit.queryLimit) :
    Audit.check1 loki startNs endNs = true ∧ Audit.check2 loki lookbackSeconds startNs endNs = true ∧
      ((∀ l ∈ w.logins, startNs ≤ l.time) → Audit.exitStatus loki lookbackSeconds startNs endNs = 0) := by
  have hw := sound_run hrun
  have hdated := dated_run hrun htimely
  have hcheck1 := check1_of_run hw hdated hforged hrecords startNs endNs
  have hcheck2 := check2_of_run hw hdated hgranted hforged hrecords hanswers.1 hlimit.1
  refine ⟨hcheck1, hcheck2, fun hstart => ?_⟩
  have hcheck3 := check3_of_run hgranted hforged hdated hrecords hstart hanswers.2 hlimit.2
  unfold Audit.exitStatus
  rw [hcheck1, hcheck2, hcheck3]
  rfl

/-! ## The audit of a short run -/

/-- A user logs in and has one request sent on to Order Service. -/
def shortRun : List Action :=
  [.login "s" "j" "u" 300, .browse "s" 401, .call 0 .orderService, .advance (.look 0),
   .advance (.decide 0), .tick 10, .issue 0 "t" 60, .advance (.stamp 0), .advance (.put 0), .deliver 0,
   .tick 10, .finish 1 201, .finish 0 201]

/-- What Keycloak and the two services log of it. -/
def shortStore : Loki where
  lines := [Audit.loginLine 0 "u", Audit.exchangeLine, Audit.answeredEntry "order-service" 20 "u" "t" "201",
    Audit.answeredEntry "frontend" 20 "u" "j" "201"]
  fails := fun _ => false

theorem shortRun_state : (run (step fun _ => 0) (World.start 0) shortRun).map
    (fun w => (w.log, w.exchanges.issues, w.logins)) =
    some
      ([⟨.orderService, 20, 201, "u", "t"⟩, ⟨.frontend, 20, 201, "u", "j"⟩],
        [⟨⟨.frontend, 0, "s", ⟨"j", "u", none, 300000000000⟩, .orderService⟩,
          ⟨"t", "u", some .orderService, 60000000010⟩, ⟨.frontend, 60⟩, 10⟩],
        [⟨"s", ⟨"j", "u", none, 300000000000⟩, 0⟩]) := by
  decide +kernel

theorem shortRun_honest :
    (run (step fun _ => 0) (World.start 0) shortRun).map (fun w => (w.granted, w.forged)) =
      some ([], []) := by
  decide +kernel

theorem shortStore_records {w : World} (hrun : run (step fun _ => 0) (World.start 0) shortRun = some w) :
    Records shortStore.lines w := by
  have hstate := shortRun_state
  rw [hrun, Option.map_some, Option.some.injEq, Prod.mk.injEq, Prod.mk.injEq] at hstate
  obtain ⟨hlog, hissues, hlogins⟩ := hstate
  constructor
  · rw [hlog]
    have hselected : ∀ e ∈ shortStore.lines, Query.accesses.selects e = true →
        e = Audit.answeredEntry "order-service" 20 "u" "t" "201" ∨
          e = Audit.answeredEntry "frontend" 20 "u" "j" "201" := by
      decide +kernel
    intro e he hselects
    rcases hselected e he hselects with rfl | rfl
    · exact ⟨_, List.mem_cons_self, rfl, rfl, by decide +kernel, by decide +kernel, by decide +kernel⟩
    · exact ⟨_, List.mem_cons_of_mem _ List.mem_cons_self, rfl, rfl,
             by decide +kernel, by decide +kernel, by decide +kernel⟩
  · rw [hissues]
    have hselected : ∀ e ∈ shortStore.lines, Query.exchanges.selects e = true → e = Audit.exchangeLine := by
      decide +kernel
    intro e he hselects
    rw [hselected e he hselects]
    exact Or.inr ⟨_, List.mem_cons_self, Audit.exchangeLine_logged⟩
  · rw [hissues]
    intro x hx
    rw [List.mem_singleton.mp hx]
    exact ⟨Audit.exchangeLine, by decide +kernel, by decide +kernel, Audit.exchangeLine_logged, rfl⟩
  · rw [hlogins]
    intro l hl
    rw [List.mem_singleton.mp hl]
    exact ⟨Audit.loginLine 0 "u", by decide +kernel, by decide +kernel, by decide +kernel, rfl⟩

theorem shortRun_no_alarm : Audit.check1 shortStore 0 100 = true ∧ Audit.check2 shortStore 300 0 100 = true ∧
    Audit.exitStatus shortStore 300 0 100 = 0 := by
  obtain ⟨w, hrun, hstate⟩ := Option.map_eq_some_iff.mp shortRun_state
  have hhonest := shortRun_honest
  rw [hrun, Option.map_some, Option.some.injEq] at hhonest
  obtain ⟨hcheck1, hcheck2, hstatus⟩ :=
    @no_alarm_of_run (fun _ => 0) 300 20 0 shortRun w hrun (by decide +kernel)
    (congrArg Prod.fst hhonest) (congrArg Prod.snd hhonest) shortStore (shortStore_records hrun) 0 100
      ⟨rfl, rfl⟩ ⟨by decide +kernel, by decide +kernel⟩
  refine ⟨hcheck1, hcheck2, hstatus ?_⟩
  rw [show w.logins = _ from congrArg (fun p => p.2.2) hstate]
  decide +kernel

end Gekko.Delegation
