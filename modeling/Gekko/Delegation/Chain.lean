import Gekko.Delegation.World
import Gekko.Lib.Ancestry


/-! # `Gekko.Delegation.Chain` — on whose behalf a service is called

A service sees a token and nothing of the requests before it. What the token is worth rests on how it
came about: it was issued for this very service, in an exchange of the token of the request that has led
here, by the service that this one came to. Followed to its end, the chain leads to a session of the
frontend, or to somebody who had come by a token and showed it to the one service that it is for. The
user is the same all the way.

That needs an argument at the caches, where a token is handed to a request other than the one that it
was issued to. Both have the same key, and `same_of_key` says what that is worth: a session has one
token, and a `jti` names one.
-/

namespace Gekko.Delegation

open Machine
open Ancestry (Descends)

/-- The handler of the request `q` has exchanged its token for that of the request `r`, which is sent to
    a service that it does call. -/
def World.Delegates (w : World) (q r : Request) : Prop :=
  ∃ x ∈ w.exchanges.issues, x.value = r.token ∧ x.request.client = q.service ∧ x.request.subject = q.token ∧
    x.request.audience = r.service ∧ r.service ∈ q.service.audiences

/-- The request is one of a session of the frontend. -/
def World.Opened (w : World) (r : Request) : Prop :=
  r.service = .frontend ∧ ∃ l ∈ w.logins, l.session = r.session ∧ l.token = r.token

/-! ## What stays -/

section Growth

/-- What a step can only add to. -/
structure Grows (w w' : World) : Prop where
  requests : ∀ (n : Nat) (r : Request), w.requests[n]? = some r → w'.requests[n]? = some r
  issues : ∀ x ∈ w.exchanges.issues, x ∈ w'.exchanges.issues
  logins : ∀ l ∈ w.logins, l ∈ w'.logins
  granted : ∀ t ∈ w.granted, t ∈ w'.granted
  forged : ∀ access ∈ w.forged, access ∈ w'.forged

variable {leeway : Service → Int} {w w' : World} {a : Action} {q r : Request} {x : Exchange} {t : Token}

theorem Stepped.grows (h : Stepped leeway w a w') : Grows w w' where
  requests := by
    intro n r hr
    rcases h.requests with heq | ⟨r', heq, -⟩
    · rw [heq]
      exact hr
    · rw [heq]
      exact Pool.getElem?_append_of_some hr
  issues := by
    intro x hx
    rcases h.issues with heq | ⟨_, _, _, _, -, -, -, heq⟩
    · rw [heq]
      exact hx
    · rw [heq]
      exact List.mem_append_left _ hx
  logins := by
    intro l hl
    rcases h.logins with heq | ⟨_, _, _, _, -, -, -, heq⟩
    · rw [heq]
      exact hl
    · rw [heq]
      exact List.mem_append_left _ hl
  granted := by
    intro t ht
    rcases h.granted with heq | ⟨_, _, _, _, -, -, -, heq⟩
    · rw [heq]
      exact ht
    · rw [heq]
      exact List.mem_append_left _ ht
  forged := by
    intro access haccess
    rcases h.forged with heq | ⟨_, _, _, -, heq⟩
    · rw [heq]
      exact haccess
    · rw [heq]
      exact List.mem_append_left _ haccess

theorem mem_issued : t ∈ w.issued ↔
    (∃ l ∈ w.logins, l.token = t) ∨ (∃ x ∈ w.exchanges.issues, x.value = t) ∨ t ∈ w.granted := by
  unfold World.issued
  rw [List.mem_append, List.mem_append, List.mem_map, List.mem_map, or_assoc]

theorem Grows.issued (h : Grows w w') (ht : t ∈ w.issued) : t ∈ w'.issued := by
  rcases mem_issued.mp ht with ⟨l, hl, rfl⟩ | ⟨x, hx, rfl⟩ | ht
  · exact mem_issued.mpr (Or.inl ⟨l, h.logins l hl, rfl⟩)
  · exact mem_issued.mpr (Or.inr (Or.inl ⟨x, h.issues x hx, rfl⟩))
  · exact mem_issued.mpr (Or.inr (Or.inr (h.granted t ht)))

theorem Grows.made (h : Grows w w') (hx : w.Made x) : w'.Made x := by
  obtain ⟨r, hr, hrest⟩ := hx
  exact ⟨r, h.requests _ r hr, hrest⟩

theorem Grows.delegates (h : Grows w w') (hqr : w.Delegates q r) : w'.Delegates q r := by
  obtain ⟨x, hx, hrest⟩ := hqr
  exact ⟨x, h.issues x hx, hrest⟩

theorem Grows.opened (h : Grows w w') (hr : w.Opened r) : w'.Opened r := by
  obtain ⟨hservice, l, hl, hrest⟩ := hr
  exact ⟨hservice, l, h.logins l hl, hrest⟩

end Growth

/-! ## What Keycloak has issued -/

/-- Every `jti` and every session id has been given out once, and tokens are what they were asked for. -/
structure Issuance (w : World) : Prop where
  jtis : (w.issued.map Token.jti).Nodup
  opened : (w.logins.map Login.session).Nodup
  untargeted : ∀ l ∈ w.logins, l.token.audience = none
  granted : ∀ x ∈ w.exchanges.issues, x.value.audience = some x.request.audience ∧
    x.value.sub = x.request.subject.sub
  grants : ∀ t ∈ w.granted, (t.jti ≠ "-" ∧ t.jti ≠ "") ∧ t.audience ≠ none
  sessions : ∀ session token, w.sessions session = some token →
    ∃ l ∈ w.logins, l.session = session ∧ l.token = token

section Issuance

variable {leeway : Service → Int} {w w' : World} {a : Action} {t t' : Token}

theorem Issuance.token_of_jti (h : Issuance w) (ht : t ∈ w.issued) (ht' : t' ∈ w.issued)
    (hjti : t.jti = t'.jti) :
    t = t' := List.inj_on_of_nodup_map h.jtis ht ht' hjti

theorem Issuance.login_of_session (h : Issuance w) {l l' : Login} (hl : l ∈ w.logins) (hl' : l' ∈ w.logins)
    (hsession : l.session = l'.session) : l = l' := List.inj_on_of_nodup_map h.opened hl hl' hsession

/-- A `jti` names one exchange. -/
theorem Issuance.issue_of_jti (h : Issuance w) {x x' : TimedCache.Issue Exchange Token Lifetime}
    (hx : x ∈ w.exchanges.issues) (hx' : x' ∈ w.exchanges.issues)
    (hjti : x.value.jti = x'.value.jti) : x = x' := by
  have hnodup : (w.exchanges.issues.map fun x => x.value.jti).Nodup := by
    have happ := h.jtis
    unfold World.issued at happ
    rw [List.map_append, List.map_append, List.map_map, List.map_map] at happ
    exact happ.of_append_left.of_append_right
  exact List.inj_on_of_nodup_map hnodup hx hx' hjti

/-- A token of an exchange has no `jti` of one without. -/
theorem Issuance.jti_ne_of_granted (h : Issuance w) {x : TimedCache.Issue Exchange Token Lifetime}
    (hx : x ∈ w.exchanges.issues) (ht : t ∈ w.granted) : x.value.jti ≠ t.jti := by
  have happ := h.jtis
  unfold World.issued at happ
  rw [List.map_append] at happ
  intro hjti
  refine List.disjoint_of_nodup_append happ (a := t.jti) ?_ (List.mem_map_of_mem ht)
  rw [← hjti]
  exact List.mem_map_of_mem (List.mem_append_right _ (List.mem_map_of_mem hx))

/-- A fresh `jti` at the end of what has been issued. -/
theorem nodup_jtis_append (h : (w.issued.map Token.jti).Nodup) {l : List Token}
    (hperm : l.Perm (t :: w.issued))
    (hfresh : ∀ t' ∈ w.issued, t'.jti ≠ t.jti) : (l.map Token.jti).Nodup := by
  refine (hperm.map Token.jti).nodup_iff.mpr ?_
  rw [List.map_cons, List.nodup_cons]
  refine ⟨?_, h⟩
  rintro hmem
  obtain ⟨t', ht', hjti⟩ := List.mem_map.mp hmem
  exact hfresh t' ht' hjti

theorem issuance_start (now : Int) : Issuance (World.start now) where
  jtis := List.nodup_nil
  opened := List.nodup_nil
  untargeted := by
    intro l hl
    cases hl
  granted := by
    intro x hx
    cases hx
  grants := by
    intro t ht
    cases ht
  sessions := by
    intro session token htoken
    cases htoken

/-- What a step adds to the issued tokens is one token with a `jti` that none of them has. -/
theorem Stepped.issued (h : Stepped leeway w a w') : w'.issued = w.issued ∨
    ∃ t, w'.issued.Perm (t :: w.issued) ∧ ∀ t' ∈ w.issued, t'.jti ≠ t.jti := by
  have hissued : ∀ v : World,
      v.issued = v.logins.map Login.token ++ v.exchanges.issues.map TimedCache.Issue.value ++
        v.granted := fun _ => rfl
  -- No action is of two of the three kinds.
  rcases h.issues with hissues | ⟨i, jti, expiresIn, c, rfl, -, hfresh, hissues⟩
  · rcases h.logins with hlogins | ⟨session, jti, sub, expiresIn, rfl, -, hfresh, hlogins⟩
    · rcases h.granted with hgranted | ⟨service, jti, sub, expiresIn, -, hfresh, -, hgranted⟩
      · left
        rw [hissued w', hissues, hlogins, hgranted, hissued w]
      · right
        refine ⟨⟨jti, sub, some service, w.exchanges.now + expiresIn * second⟩, ?_, hfresh⟩
        rw [hissued w', hissues, hlogins, hgranted, ← List.append_assoc, hissued w]
        exact List.perm_append_singleton _ _
    · have hgranted : w'.granted = w.granted := h.granted.resolve_right fun ⟨_, _, _, _, ha, _⟩ => by cases ha
      right
      refine ⟨⟨jti, sub, none, w.exchanges.now + expiresIn * second⟩, ?_, hfresh⟩
      rw [hissued w', hissues, hlogins, hgranted, hissued w, List.map_append, List.map_singleton,
        List.append_assoc, List.append_assoc, List.append_assoc]
      exact List.perm_middle
  · have hlogins : w'.logins = w.logins := h.logins.resolve_right fun ⟨_, _, _, _, ha, _⟩ => by cases ha
    have hgranted : w'.granted = w.granted := h.granted.resolve_right fun ⟨_, _, _, _, ha, _⟩ => by cases ha
    right
    refine ⟨⟨jti, c.request.subject.sub, some c.request.audience,
             w.exchanges.now + expiresIn * second⟩, ?_, hfresh⟩
    rw [hissued w', hissues, hlogins, hgranted, hissued w, List.map_append, List.map_singleton,
      ← List.append_assoc, List.append_assoc _ [_] w.granted]
    exact List.perm_middle

/-- **Step lemma.** -/
theorem issuance_step (hw : Issuance w) (h : Stepped leeway w a w') : Issuance w' where
  jtis := by
    rcases h.issued with heq | ⟨t, hperm, hfresh⟩
    · rw [heq]
      exact hw.jtis
    · exact nodup_jtis_append hw.jtis hperm hfresh
  opened := by
    rcases h.logins with heq | ⟨session, jti, sub, expiresIn, -, hsession, -, heq⟩
    · rw [heq]
      exact hw.opened
    · rw [heq, List.map_append, List.map_singleton]
      refine (List.perm_append_singleton _ _).nodup_iff.mpr (List.nodup_cons.mpr ⟨?_, hw.opened⟩)
      intro hmem
      obtain ⟨l, hl, hsame⟩ := List.mem_map.mp hmem
      exact hsession l hl hsame
  untargeted := by
    rcases h.logins with heq | ⟨_, _, _, _, -, -, -, heq⟩
    · rw [heq]
      exact hw.untargeted
    · rw [heq]
      exact Pool.forall_mem_append_singleton hw.untargeted rfl
  granted := by
    rcases h.issues with heq | ⟨_, _, _, _, -, -, -, heq⟩
    · rw [heq]
      exact hw.granted
    · rw [heq]
      exact Pool.forall_mem_append_singleton hw.granted ⟨rfl, rfl⟩
  grants := by
    rcases h.granted with heq | ⟨service, jti, sub, expiresIn, -, -, hjti, heq⟩
    · rw [heq]
      exact hw.grants
    · rw [heq]
      exact Pool.forall_mem_append_singleton hw.grants ⟨hjti, Option.some_ne_none service⟩
  sessions := by
    intro session token htoken
    rcases h.sessions session token htoken with hold | ⟨l, hl, -, hsession, hl'⟩
    · obtain ⟨l, hl, hrest⟩ := hw.sessions session token hold
      exact ⟨l, h.grows.logins l hl, hrest⟩
    · exact ⟨l, hl, hsession, hl'⟩

end Issuance

/-! ## What has been let in -/

/-- What a request has to say for itself, after the actions `as`. -/
structure World.LetIn (w : World) (as : List Action) (r : Request) : Prop where
  frontend : r.service = .frontend → r.cause = none ∧ w.Opened r
  backend : r.service ≠ .frontend → r.token ∈ w.issued ∧ r.token.audience = some r.service
  cause : ∀ j, r.cause = some j → ∃ q, w.requests[j]? = some q ∧ w.Delegates q r
  shown : r.cause = none → r.service ≠ .frontend → .present r.service r.token ∈ as

/-- The invariant. -/
structure Sound (as : List Action) (w : World) : Prop where
  issuance : Issuance w
  sourced : TimedCache.Sourced Exchange.key w.exchanges
  made : TimedCache.RequestsIn w.Made w.exchanges
  letIn : ∀ r ∈ w.requests, w.LetIn as r
  ordered : Ancestry.Ordered Request.cause w.requests

section Soundness

variable {leeway : Service → Int} {w w' : World} {as : List Action} {a : Action}
  {r : Request} {x y : Exchange}

theorem frontend_not_mem_audiences (service : Service) : .frontend ∉ service.audiences := by
  cases service <;> decide

theorem verifies_iff {service : Service} {token : Token} : w.verifies leeway service token = true ↔
    token ∈ w.issued ∧ token.audience = some service ∧
    w.exchanges.now < token.expiresAt + leeway service := by
  unfold World.verifies
  rw [Bool.and_eq_true, Bool.and_eq_true, List.contains_iff_mem, beq_iff_eq, decide_eq_true_eq, and_assoc]

theorem World.LetIn.mono {bs : List Action} (hr : w.LetIn as r) (h : Grows w w') (hsub : as ⊆ bs) :
    w'.LetIn bs r where
  frontend := fun hservice => (hr.frontend hservice).imp id h.opened
  backend := fun hservice => (hr.backend hservice).imp h.issued id
  cause := by
    intro j hj
    obtain ⟨q, hq, hdelegates⟩ := hr.cause j hj
    exact ⟨q, h.requests j q hq, h.delegates hdelegates⟩
  shown := fun hcause hservice => hsub (hr.shown hcause hservice)

/-- The token of a request is one of Keycloak's. -/
theorem World.LetIn.issued (hr : w.LetIn as r) : r.token ∈ w.issued := by
  by_cases hservice : r.service = .frontend
  · obtain ⟨-, -, l, hl, -, htoken⟩ := hr.frontend hservice
    exact mem_issued.mpr (Or.inl ⟨l, hl, htoken⟩)
  · exact (hr.backend hservice).1

/-- The request behind an exchange. -/
theorem Sound.request_of_made (hw : Sound as w) (hx : w.Made x) :
    ∃ r ∈ w.requests, w.LetIn as r ∧ x.client = r.service ∧ x.session = r.session ∧ x.subject = r.token := by
  obtain ⟨r, hr, hclient, hsession, hsubject, -⟩ := hx
  have hmem := List.mem_of_getElem? hr
  exact ⟨r, hmem, hw.letIn r hmem, hclient, hsession, hsubject⟩

/-- **What a key says.** Two exchanges with the same key are for the same audience, and of the same token. -/
theorem same_of_key (hw : Sound as w) (hx : w.Made x) (hy : w.Made y) (hkey : x.key = y.key) :
    x.client = y.client ∧ x.subject = y.subject ∧ x.audience = y.audience := by
  obtain ⟨r, -, hr, hrclient, hrsession, hrsubject⟩ := hw.request_of_made hx
  obtain ⟨q, -, hq, hqclient, hqsession, hqsubject⟩ := hw.request_of_made hy
  unfold Exchange.key at hkey
  cases hxc : x.client <;> cases hyc : y.client <;>
    simp only [hxc, hyc, Key.ofSession.injEq, Key.ofSubject.injEq, Key.uncached.injEq, reduceCtorEq] at hkey
  case frontend.frontend =>
    -- One session, so one login, so one token.
    obtain ⟨-, -, l, hl, hlsession, hltoken⟩ := hr.frontend (hrclient.symm.trans hxc)
    obtain ⟨-, -, l', hl', hlsession', hltoken'⟩ := hq.frontend (hqclient.symm.trans hyc)
    have hsession : l.session = l'.session := by
      rw [hlsession, hlsession', ← hrsession, ← hqsession]
      exact hkey.1
    have hlogin := hw.issuance.login_of_session hl hl' hsession
    refine ⟨rfl, ?_, hkey.2⟩
    rw [hrsubject, hqsubject, ← hltoken, ← hltoken', hlogin]
  case orderService.orderService =>
    refine ⟨rfl, ?_, hkey.2⟩
    have hjti : r.token.jti = q.token.jti := by
      rw [← hrsubject, ← hqsubject]
      exact hkey.1
    rw [hrsubject, hqsubject]
    exact hw.issuance.token_of_jti hr.issued hq.issued hjti
  all_goals
    -- No cache: the two exchanges are of one request.
    obtain ⟨r', hr', hclient, -, hsubject, -⟩ := hx
    obtain ⟨q', hq', hclient', -, hsubject', -⟩ := hy
    rw [hkey.1, hq'] at hr'
    cases hr'
    exact ⟨hxc.symm.trans (hclient.trans (hclient'.symm.trans hyc)), hsubject.trans hsubject'.symm, hkey.2⟩

/-- The token that a call returns comes from an exchange of the token of its own request. -/
theorem delegates_of_returned (hw : Sound as w) {c : TimedCache.Call Exchange Token Lifetime} {token : Token}
    (hc : c ∈ w.exchanges.calls) (hphase : c.phase = .returned token) :
    ∃ q, w.requests[c.request.request]? = some q ∧
      w.Delegates q ⟨c.request.audience, token, "", some c.request.request, w.exchanges.now⟩ := by
  have hvalue : c.phase.value? = some token := by
    rw [hphase]
    rfl
  obtain ⟨x, hx, hxvalue, hkey⟩ := hw.sourced.calls c hc token hvalue
  obtain ⟨hclient, hsubject, haudience⟩ := same_of_key hw (hw.made.issues x hx) (hw.made.calls c hc) hkey
  obtain ⟨q, hq, hqclient, -, hqsubject, hqaudience⟩ := hw.made.calls c hc
  exact ⟨q, hq, x, hx, hxvalue, hclient.trans hqclient, hsubject.trans hqsubject, haudience, hqaudience⟩

/-- **Who is let in.** -/
theorem letIn_of_admits (hw : Sound as w) (h : w.Admits leeway a r) : w.LetIn (as ++ [a]) r := by
  cases h with
  | browsed session status token hsession =>
      obtain ⟨l, hl, hlsession, hltoken⟩ := hw.issuance.sessions session token hsession
      exact
        { frontend := fun _ => ⟨rfl, rfl, l, hl, hlsession, hltoken⟩
          backend := fun hservice => absurd rfl hservice
          cause := nofun
          shown := fun _ hservice => absurd rfl hservice }
  | delivered i c token hc hphase hverifies =>
      obtain ⟨hissued, haudience, -⟩ := verifies_iff.mp hverifies
      have hmem := List.mem_of_getElem? hc
      obtain ⟨q, hq, hdelegates⟩ := delegates_of_returned hw hmem hphase
      obtain ⟨_, _, -, -, -, -, hcalled⟩ := hdelegates
      refine
        { frontend := fun hservice => ?_
          backend := fun _ => ⟨hissued, haudience⟩
          cause := fun j hj => ?_
          shown := nofun }
      · exact absurd (hservice ▸ hcalled) (frontend_not_mem_audiences _)
      · cases hj
        exact delegates_of_returned hw hmem hphase
  | presented service token hservice hverifies =>
      obtain ⟨hissued, haudience, -⟩ := verifies_iff.mp hverifies
      exact
        { frontend := fun hfrontend => absurd hfrontend hservice
          backend := fun _ => ⟨hissued, haudience⟩
          cause := nofun
          shown := fun _ _ => List.mem_append_right _ List.mem_cons_self }

/-- The calls of the exchange clients after a step. -/
theorem exchanges_step (hw : Sound as w) (h : Stepped leeway w a w') :
    TimedCache.Sourced Exchange.key w'.exchanges ∧ TimedCache.RequestsIn w'.Made w'.exchanges := by
  have hmade : TimedCache.RequestsIn w'.Made w.exchanges :=
    ⟨fun c hc => h.grows.made (hw.made.calls c hc), fun x hx => h.grows.made (hw.made.issues x hx)⟩
  rcases h.exchanges with heq | ⟨b, hb, hcall⟩
  · rw [heq]
    exact ⟨hw.sourced, hmade⟩
  · exact ⟨TimedCache.sourced_step hw.sourced hb,
      TimedCache.requestsIn_step hmade (fun x hx => h.grows.made (hcall x hx)) hb⟩

/-- **Step lemma.** -/
theorem sound_step (hw : Sound as w) (h : Stepped leeway w a w') : Sound (as ++ [a]) w' := by
  obtain ⟨hsourced, hmade⟩ := exchanges_step hw h
  have hold : ∀ r ∈ w.requests, w'.LetIn (as ++ [a]) r :=
    fun r hr => (hw.letIn r hr).mono h.grows (List.subset_append_left _ _)
  refine ⟨issuance_step hw.issuance h, hsourced, hmade, ?_, ?_⟩
  · rcases h.requests with heq | ⟨r, heq, hadmits⟩
    · rw [heq]
      exact hold
    · rw [heq]
      exact Pool.forall_mem_append_singleton hold
        ((letIn_of_admits hw hadmits).mono h.grows (List.Subset.refl _))
  · rcases h.requests with heq | ⟨r, heq, hadmits⟩
    · rw [heq]
      exact hw.ordered
    · rw [heq]
      refine Ancestry.ordered_append hw.ordered fun j hj => ?_
      obtain ⟨q, hq, -⟩ := (letIn_of_admits hw hadmits).cause j hj
      exact (List.getElem?_eq_some_iff.mp hq).1

theorem sound_start (now : Int) : Sound [] (World.start now) where
  issuance := issuance_start now
  sourced := TimedCache.sourced_start now
  made := by
    constructor
    · intro c hc
      cases hc
    · intro x hx
      cases hx
  letIn := by
    intro r hr
    cases hr
  ordered := by
    intro n r hr
    cases hr

theorem sound_run {now : Int} (hrun : run (step leeway) (World.start now) as = some w) : Sound as w :=
  run_history (sound_start now) (fun _ _ _ _ _ hw h => sound_step hw (stepped_of_step h)) hrun

end Soundness

/-! ## The chain -/

/-- What holds of the requests that have been let in, after the actions `as`. -/
structure Delegated (as : List Action) (w : World) : Prop where
  /-- Each backend is shown a token that is for it alone. -/
  audience : ∀ r ∈ w.requests, r.service ≠ .frontend → r.token.audience = some r.service
  /-- The handler that has sent a request has exchanged the token that it was called with itself. -/
  link : ∀ r ∈ w.requests, ∀ j, r.cause = some j → ∃ q, w.requests[j]? = some q ∧ w.Delegates q r
  /-- The chain starts in a session, or with somebody who shows a token; and all of it is for one user. -/
  origin : ∀ (n : Nat) (r : Request), w.requests[n]? = some r →
      ∃ k root, Descends Request.cause w.requests n k ∧
    w.requests[k]? = some root ∧ root.token.sub = r.token.sub ∧
    (w.Opened root ∨ .present root.service root.token ∈ as)

section Chain

variable {leeway : Service → Int} {w : World} {as : List Action} {q r : Request}

/-- An exchange keeps the user. -/
theorem Issuance.sub_of_delegates (hw : Issuance w) (h : w.Delegates q r) : r.token.sub = q.token.sub := by
  obtain ⟨x, hx, hvalue, -, hsubject, -⟩ := h
  rw [← hvalue, (hw.granted x hx).2, hsubject]

theorem Sound.delegated (hw : Sound as w) : Delegated as w := by
  refine ⟨fun r hr hservice => ((hw.letIn r hr).backend hservice).2, fun r hr => (hw.letIn r hr).cause, ?_⟩
  intro n r hr
  obtain ⟨k, root, hdescends, hroot, hnone⟩ := Ancestry.exists_root hw.ordered hr
  have hletIn := hw.letIn root (List.mem_of_getElem? hroot)
  refine ⟨k, root, hdescends, hroot, ?_, ?_⟩
  · -- The user is handed on from each request to those that its handler sends.
    refine (hdescends.inherit (P := fun r => r.token.sub = root.token.sub) ?_ hroot rfl hr).symm
    intro i j x y hx hcause hy hsub
    obtain ⟨q, hq, hdelegates⟩ := (hw.letIn x (List.mem_of_getElem? hx)).cause j hcause
    rw [hy] at hq
    cases hq
    exact (hw.issuance.sub_of_delegates hdelegates).trans hsub
  · by_cases hservice : root.service = .frontend
    · exact Or.inl (hletIn.frontend hservice).2
    · exact Or.inr (hletIn.shown hnone hservice)

/-- **On whose behalf.** In every run of any number of sessions, requests and exchanges, whatever the
    caches hand out and whatever tokens others have come by. -/
theorem delegated_of_run {now : Int} (hrun : run (step leeway) (World.start now) as = some w) :
    Delegated as w :=
  (sound_run hrun).delegated

/-- The token of a session is for no backend. -/
theorem Sound.audience_frontend (hw : Sound as w) (hr : r ∈ w.requests) (hservice : r.service = .frontend) :
    r.token.audience = none := by
  obtain ⟨-, -, l, hl, -, hl'⟩ := (hw.letIn r hr).frontend hservice
  rw [← hl']
  exact hw.issuance.untargeted l hl

theorem Sound.service_of_jti (hw : Sound as w) (hq : q ∈ w.requests) (hr : r ∈ w.requests)
    (hjti : q.token.jti = r.token.jti) : q.service = r.service ∧ q.token = r.token := by
  have htoken := hw.issuance.token_of_jti (hw.letIn q hq).issued (hw.letIn r hr).issued hjti
  refine ⟨?_, htoken⟩
  by_cases hqs : q.service = .frontend
  · by_cases hrs : r.service = .frontend
    · rw [hqs, hrs]
    · have haudience := ((hw.letIn r hr).backend hrs).2
      rw [← htoken, hw.audience_frontend hq hqs] at haudience
      cases haudience
  · have haudience := ((hw.letIn q hq).backend hqs).2
    by_cases hrs : r.service = .frontend
    · rw [htoken, hw.audience_frontend hr hrs] at haudience
      cases haudience
    · rw [htoken, ((hw.letIn r hr).backend hrs).2] at haudience
      exact (Option.some.inj haudience).symm

/-- **A token opens one door.** However it gets about, no second service lets it in. -/
theorem confined_of_run {now : Int} (hrun : run (step leeway) (World.start now) as = some w)
    (hq : q ∈ w.requests)
    (hr : r ∈ w.requests) (hjti : q.token.jti = r.token.jti) : q.service = r.service ∧ q.token = r.token :=
  (sound_run hrun).service_of_jti hq hr hjti

end Chain

/-! ## A stolen token -/

/-- Alice's request goes on to Order Service and Inventory Service. Mallory, who has come by the token
    for Inventory Service, shows it there and to Warehouse Service. A second request of Alice's is
    served from both caches. -/
def stolen : List Action :=
  [.login "s" "j0" "alice" 300, .browse "s" 401, .call 0 .orderService, .advance (.look 0),
   .advance (.decide 0), .issue 0 "j1" 300, .advance (.stamp 0), .advance (.put 0), .deliver 0,
   .call 1 .inventoryService, .advance (.look 1), .advance (.decide 1), .issue 1 "j2" 60,
   .advance (.stamp 1), .advance (.put 1), .deliver 1,
   .present .inventoryService ⟨"j2", "alice", some .inventoryService, 60 * second⟩,
   .present .warehouseService ⟨"j2", "alice", some .inventoryService, 60 * second⟩, .browse "s" 401,
   .call 4 .orderService, .advance (.look 2), .advance (.decide 2), .deliver 2,
   .call 5 .inventoryService, .advance (.look 3), .advance (.decide 3), .deliver 3]

/-- What comes of it: Mallory gets into Inventory Service in Alice's name, and into Warehouse Service
not at all. -/
theorem stolen_requests : (run (step fun _ => 0) (World.start 0) stolen).map
    (fun w => w.requests.map fun r => (r.service, r.token.jti, r.cause)) =
    some [(.frontend, "j0", none), (.orderService, "j1", some 0), (.inventoryService, "j2", some 1),
      (.inventoryService, "j2", none), (.frontend, "j0", none), (.orderService, "j1", some 4),
      (.inventoryService, "j2", some 5)] := by
  decide +kernel

theorem stolen_delegated : ∃ w, run (step fun _ => 0) (World.start 0) stolen = some w ∧
    w.requests.length = 7 ∧ Delegated stolen w := by
  obtain ⟨w, hrun, hw⟩ := Option.map_eq_some_iff.mp stolen_requests
  refine ⟨w, hrun, ?_, delegated_of_run hrun⟩
  rw [← List.length_map, hw]
  rfl

/-- The token that Mallory shows was let in before and is let in after, at the same place. -/
theorem stolen_confined :
    ∃ w q r, run (step fun _ => 0) (World.start 0) stolen = some w ∧ w.requests[3]? = some q ∧
      w.requests[6]? = some r ∧ q.token.jti = r.token.jti ∧ q.service = r.service ∧
      q.token = r.token := by
  have hobs : (run (step fun _ => 0) (World.start 0) stolen).map
      (fun w => (w.requests[3]?.map fun q => q.token.jti, w.requests[6]?.map fun r => r.token.jti)) =
      some (some "j2", some "j2") := by
    decide +kernel
  obtain ⟨w, hrun, hw⟩ := Option.map_eq_some_iff.mp hobs
  obtain ⟨q, hq, hqjti⟩ := Option.map_eq_some_iff.mp (congrArg Prod.fst hw)
  obtain ⟨r, hr, hrjti⟩ := Option.map_eq_some_iff.mp (congrArg Prod.snd hw)
  have hjti : q.token.jti = r.token.jti := hqjti.trans hrjti.symm
  exact ⟨w, q, r, hrun, hq, hr, hjti, confined_of_run hrun (List.mem_of_getElem? hq)
         (List.mem_of_getElem? hr) hjti⟩

end Gekko.Delegation
