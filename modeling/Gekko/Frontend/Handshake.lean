import Gekko.Frontend.Login
import Gekko.Lib.Form


/-! # `Gekko.Frontend.Handshake` — the authorization code, from the login page to the session

`/api/login` sends a browser to Keycloak with a query that has the `state` and the challenge of a fresh
verifier in it. A user logs in there, and Keycloak makes up a code for what it has read of that query.
Some browser comes back to `/api/callback` with a code and a `state`, in whatever combination, and the
frontend's server redeems the code with the verifier of the login that has the `state`. Keycloak
compares (`Keycloak.redeems`).

Here the queries and bodies are the bytes that are sent, and Keycloak reads them. Anybody can send a
browser to Keycloak with a query of their own, and open the callback with any code and `state`.
`code_bound` is what the challenge is for: a code that was made up for the query of one login is of no
use with the `state` of another one.
-/

namespace Gekko.Frontend

open Machine

/-- A code of Keycloak's, with the user who has logged in and the query of the authorization request. -/
structure Code where
  code : String
  user : String
  query : List UInt8
  deriving DecidableEq, Repr

/-- What Keycloak has read of the query. -/
def Code.params (k : Code) : List (String × String) := Form.parse k.query

/-- The verifier goes with the challenge of the authorization request, which may have had none. -/
def Code.admits (k : Code) (challenge : String → String) (codeVerifier : Option String) : Bool :=
  match Form.value? "code_challenge" k.params with
  | none => true
  | some codeChallenge => codeVerifier.map challenge == some codeChallenge

/-- Keycloak's token endpoint, as the frontend relies on it. -/
structure Keycloak (challenge : String → String) where
  /-- The code that tokens are granted for, from the body of the request. -/
  redeemed : (codes : List Code) → (body : List UInt8) → Option Code
  /-- Only the code in the body is redeemed, when it is one of Keycloak's own, and only with the
      verifier that goes with it. -/
  redeems : ∀ {codes : List Code} {body : List UInt8} {k : Code}, redeemed codes body = some k →
    k ∈ codes ∧ Form.value? "code" (Form.parse body) = some k.code ∧
      k.admits challenge (Form.value? "code_verifier" (Form.parse body)) = true

/-- The configuration, the challenge of a verifier, which is the hash that `generatePkcePair` computes,
and Keycloak. -/
structure Setup where
  publicOrigin : String
  clientSecret : String
  challenge : String → String
  keycloak : Keycloak challenge

namespace Setup

variable (p : Setup)

def redirectUri : String := p.publicOrigin ++ "/api/callback"

/-- The parameters that `/api/login` sets on the URL of the authorization endpoint. -/
def authorizeParams (state codeVerifier : String) : List (String × String) :=
  [("client_id", "frontend"), ("response_type", "code"), ("scope", "openid roles"),
   ("redirect_uri", p.redirectUri), ("state", state), ("code_challenge", p.challenge codeVerifier),
   ("code_challenge_method", "S256")]

/-- The query of that URL. -/
def authorizeQuery (state codeVerifier : String) : List UInt8 :=
  Form.serialize Form.urlencoded (p.authorizeParams state codeVerifier)

/-- The parameters with which `/api/callback` redeems a code. -/
def tokenParams (code codeVerifier : String) : List (String × String) :=
  [("grant_type", "authorization_code"), ("client_id", "frontend"), ("client_secret", p.clientSecret),
   ("code", code), ("redirect_uri", p.redirectUri), ("code_verifier", codeVerifier)]

/-- The body of that request. -/
def tokenBody (code codeVerifier : String) : List UInt8 :=
  Form.serialize Form.urlencoded (p.tokenParams code codeVerifier)

end Setup

/-! ## The machine -/

variable {β : Type}

structure Handshake (β : Type) where
  login : LoginState β
  codes : List Code

def Handshake.start : Handshake β := ⟨LoginState.start, []⟩

/-- Keycloak's answer to a callback. -/
def Handshake.answer (w : Handshake β) (p : Setup) (code codeVerifier : String) : Option Code :=
  p.keycloak.redeemed w.codes (p.tokenBody code codeVerifier)

inductive HandshakeAction (β : Type) where
  /-- A user logs in at Keycloak, at the end of an authorization request with this query. -/
  | authorize (user code : String) (query : List UInt8)
  | bff (a : LoginAction β)
  deriving DecidableEq

/-- `randomBytes(32)` returns nothing twice; and the access token is one of the user that the code was
given to. -/
def Setup.allows (p : Setup) (w : Handshake β) : LoginAction β → Bool
  | .login _ codeVerifier _ _ => w.login.logins.all fun l => l.codeVerifier != codeVerifier
  | .grant i _ payload _ _ =>
      ((w.login.callbacks[i]?).bind fun c => w.answer p c.code c.pending.codeVerifier).any fun k =>
        payload.preferredUsername == some k.user
  | _ => true

/-- One step. Keycloak makes up no code twice. -/
def handshakeStep [DecidableEq β] (p : Setup) (w : Handshake β) : HandshakeAction β → Option (Handshake β)
  | .authorize user code query =>
      if Form.value? "client_id" (Form.parse query) = some "frontend" ∧ ∀ k ∈ w.codes, k.code ≠ code then
        some { w with codes := w.codes ++ [⟨code, user, query⟩] }
      else none
  | .bff a =>
      if p.allows w a then
        (loginStep (fun code codeVerifier => (w.answer p code codeVerifier).isSome) w.login a).map
          fun login => { w with login := login }
      else none

/-! ## What is read -/

section Reading

variable {p : Setup} {codes : List Code} {k : Code} {code codeVerifier state : String}

theorem params_of_authorizeQuery (hk : k.query = p.authorizeQuery state codeVerifier) :
    k.params = p.authorizeParams state codeVerifier := by
  unfold Code.params
  rw [hk]
  exact Form.parse_serialize Form.urlencoded_clean _

/-- **What the token endpoint makes of a callback**, whatever is in the code. -/
theorem redeemed_tokenBody (h : p.keycloak.redeemed codes (p.tokenBody code codeVerifier) = some k) :
    k ∈ codes ∧ k.code = code ∧ k.admits p.challenge (some codeVerifier) = true := by
  have hform : Form.parse (p.tokenBody code codeVerifier) = p.tokenParams code codeVerifier :=
    Form.parse_serialize Form.urlencoded_clean _
  obtain ⟨hmem, hcode, hadmits⟩ := p.keycloak.redeems h
  rw [hform] at hcode hadmits
  exact ⟨hmem, (Option.some.inj hcode).symm, hadmits⟩

/-- A code for the query of a login takes the verifier with that login's challenge. -/
theorem challenge_of_admits (hk : k.query = p.authorizeQuery state codeVerifier) {codeVerifier' : String}
    (h : k.admits p.challenge (some codeVerifier') = true) :
    p.challenge codeVerifier' = p.challenge codeVerifier := by
  have hchallenge : Form.value? "code_challenge" k.params = some (p.challenge codeVerifier) := by
    rw [params_of_authorizeQuery hk]
    rfl
  unfold Code.admits at h
  rw [hchallenge] at h
  exact Option.some.inj (eq_of_beq h)

end Reading

/-! ## What a step of the server does to its sessions -/

section Steps

variable [DecidableEq β] {redeems redeems' : String → String → Bool} {s s' : LoginState β} {a : LoginAction β}

theorem LoginStepped.mono
    (hle : ∀ code codeVerifier, redeems code codeVerifier = true → redeems' code codeVerifier = true)
    (h : LoginStepped redeems s s') : LoginStepped redeems' s s' := by
  cases h with
  | ignored => exact .ignored
  | started browser codeVerifier state now hfresh => exact .started browser codeVerifier state now hfresh
  | dropped state => exact .dropped state
  | consumed c hpending htime hphase => exact .consumed c hpending htime hphase
  | failed i c status hc => exact .failed i c status hc
  | granted i c tokens payload sessionId now hc hredeems =>
      exact .granted i c tokens payload sessionId now hc (hle _ _ hredeems)

theorem loginStep_grant {i : Nat} {tokens : TokenResponse} {payload : TokenPayload}
    {sessionId : String} {now : Int}
    (h : loginStep redeems s (.grant i tokens payload sessionId now) = some s') :
    ∃ c, s.callbacks[i]? = some c ∧ s.bff.sessions sessionId = none ∧
      s' = s.loggedIn i c tokens payload sessionId now := by
  simp only [loginStep] at h
  split at h
  · rename_i c hc
    split at h
    · rename_i hgrant
      cases h
      exact ⟨c, hc, hgrant.2.2, rfl⟩
    · cases h
  · cases h

/-- Only a login request adds to the logins. -/
theorem logins_of_loginStep (h : loginStep redeems s a = some s') :
    s'.logins = s.logins ∨
      ∃ browser codeVerifier state now, a = .login browser codeVerifier state now ∧
        s'.logins = s.logins ++ [⟨browser, state, codeVerifier, now⟩] := by
  cases a with
  | login browser codeVerifier state now =>
      simp only [loginStep] at h
      split at h
      · cases h
        exact .inr ⟨browser, codeVerifier, state, now, rfl, rfl⟩
      · cases h
  | callback browser code state now =>
      refine .inl ?_
      simp only [loginStep] at h
      split at h
      · split at h <;> cases h <;> rfl
      · cases h
        rfl
  | fail i status =>
      refine .inl ?_
      simp only [loginStep] at h
      split at h
      · split at h <;> cases h
        rfl
      · cases h
  | grant i tokens payload sessionId now =>
      obtain ⟨c, -, -, rfl⟩ := loginStep_grant h
      exact .inl rfl

/-- Only a grant makes a session, or a callback that has one. -/
theorem sessions_of_loginStep (h : loginStep redeems s a = some s')
    (ha : ∀ i tokens payload sessionId now, a ≠ .grant i tokens payload sessionId now) :
    s'.bff.sessions = s.bff.sessions ∧
      ∀ c ∈ s'.callbacks, c ∈ s.callbacks ∨ ∀ sessionId, c.phase ≠ .loggedIn sessionId := by
  cases a with
  | login browser codeVerifier state now =>
      simp only [loginStep] at h
      split at h
      · cases h
        exact ⟨rfl, fun c hc => .inl hc⟩
      · cases h
  | callback browser code state now =>
      simp only [loginStep] at h
      split at h
      · rename_i code state _ hstate
        have hne : state ≠ "" := by
          have hkept := (Option.filter_eq_some_iff.mp hstate).2
          simpa using hkept
        rw [consumePendingLogin_eq hne] at h
        cases hentry : (s.bff.pendingLogins state).filter
            fun entry => ¬ pendingLoginTtl < now - entry.createdAt with
        | none =>
            simp only [hentry] at h
            cases h
            exact ⟨rfl, fun c hc => .inl hc⟩
        | some pending =>
            simp only [hentry] at h
            cases h
            refine ⟨rfl, Pool.forall_mem_append_singleton (fun c hc => .inl hc) ?_⟩
            exact .inr fun sessionId hphase => by cases hphase
      · cases h
        exact ⟨rfl, fun c hc => .inl hc⟩
  | fail i status =>
      simp only [loginStep] at h
      split at h
      · split at h
        · cases h
          exact ⟨rfl, Pool.forall_mem_set (fun c hc => .inl hc) (.inr fun sessionId hphase =>
            by cases hphase)⟩
        · cases h
      · cases h
  | grant i tokens payload sessionId now => exact absurd rfl (ha i tokens payload sessionId now)

end Steps

/-! ## The invariant -/

/-- The session of a callback is one of the user whom its code was given to. -/
def Handshake.Backed (w : Handshake β) (p : Setup) (c : Callback β) : Prop :=
  ∀ sessionId, c.phase = .loggedIn sessionId →
    ∃ k ∈ w.codes, k.code = c.code ∧ k.admits p.challenge (some c.pending.codeVerifier) = true ∧
      ∃ session, w.login.bff.sessions sessionId = some session ∧ session.username = some k.user

structure Bound (p : Setup) (w : Handshake β) : Prop where
  traced : Traced (fun _ _ => true) w.login
  verifiers : ∀ l ∈ w.login.logins, ∀ l' ∈ w.login.logins, l.codeVerifier = l'.codeVerifier → l = l'
  backed : ∀ c ∈ w.login.callbacks, w.Backed p c

section Invariant

variable {p : Setup} {w w' : Handshake β} {a : HandshakeAction β}

theorem bound_start : Bound p (Handshake.start : Handshake β) where
  traced := traced_start
  verifiers := nofun
  backed := nofun

/-- What backs a callback stays: codes are not forgotten, and no session is written over. -/
theorem Handshake.Backed.keep {c : Callback β} (h : w.Backed p c) (hcodes : ∀ k ∈ w.codes, k ∈ w'.codes)
    (hsessions : ∀ id session, w.login.bff.sessions id = some session →
      w'.login.bff.sessions id = some session) :
    w'.Backed p c := by
  intro sessionId hlogged
  obtain ⟨k, hk, hcode, hadmits, session, hsession, huser⟩ := h sessionId hlogged
  exact ⟨k, hcodes k hk, hcode, hadmits, session, hsessions _ _ hsession, huser⟩

variable [DecidableEq β]

theorem bound_grant {i : Nat} {tokens : TokenResponse} {payload : TokenPayload}
    {sessionId : String} {now : Int} {login : LoginState β} (h : Bound p w)
    (hallows : p.allows w (.grant i tokens payload sessionId now) = true)
    (hstep : loginStep (fun code codeVerifier => (w.answer p code codeVerifier).isSome) w.login
      (.grant i tokens payload sessionId now) = some login) :
    ∀ c ∈ login.callbacks, Handshake.Backed { w with login := login } p c := by
  obtain ⟨c, hc, hfresh, rfl⟩ := loginStep_grant hstep
  have hsessions : ∀ id session, w.login.bff.sessions id = some session →
      (w.login.loggedIn i c tokens payload sessionId now).bff.sessions id = some session := by
    intro id session hid
    have hne : id ≠ sessionId := by
      rintro rfl
      rw [hfresh] at hid
      cases hid
    exact (Function.update_of_ne hne _ _).trans hid
  refine Pool.forall_mem_set (fun d hd => (h.backed d hd).keep (fun _ hk => hk) hsessions) ?_
  -- The session of the callback that is answered.
  rintro sessionId' hlogged
  cases hlogged
  simp only [Setup.allows, hc, Option.bind_some] at hallows
  obtain ⟨k, hk, huser⟩ := (Option.any_eq_true _ _).mp hallows
  obtain ⟨hmem, hcode, hadmits⟩ := redeemed_tokenBody hk
  exact ⟨k, hmem, hcode, hadmits, _, Function.update_self .., eq_of_beq huser⟩

theorem bound_step (h : Bound p w) (hstep : handshakeStep p w a = some w') : Bound p w' := by
  cases a with
  | authorize user code query =>
      simp only [handshakeStep] at hstep
      split at hstep
      · cases hstep
        exact ⟨h.traced, h.verifiers,
          fun c hc => (h.backed c hc).keep (fun k hk => List.mem_append_left _ hk) fun _ _ hid => hid⟩
      · cases hstep
  | bff a =>
      simp only [handshakeStep] at hstep
      split at hstep
      · rename_i hallows
        obtain ⟨login, hlogin, rfl⟩ := Option.map_eq_some_iff.mp hstep
        have htraced := traced_stepped h.traced ((stepped_of_loginStep hlogin).mono fun _ _ _ => rfl)
        have hverifiers : ∀ l ∈ login.logins, ∀ l' ∈ login.logins, l.codeVerifier =
            l'.codeVerifier → l = l' := by
          rcases logins_of_loginStep hlogin with hsame | ⟨browser, codeVerifier, state, now, rfl, happend⟩
          · rw [hsame]
            exact h.verifiers
          · -- The verifier of a new login is a new one.
            have hnew : ∀ l ∈ w.login.logins, l.codeVerifier ≠ codeVerifier := by
              intro l hl heq
              have hne := List.all_eq_true.mp hallows l hl
              rw [heq, bne_self_eq_false] at hne
              cases hne
            rw [happend]
            intro l hl l' hl' heq
            rcases List.mem_append.mp hl with hl | hl
            · rcases List.mem_append.mp hl' with hl' | hl'
              · exact h.verifiers l hl l' hl' heq
              · rw [List.mem_singleton.mp hl'] at heq
                exact absurd heq (hnew l hl)
            · rcases List.mem_append.mp hl' with hl' | hl'
              · rw [List.mem_singleton.mp hl] at heq
                exact absurd heq.symm (hnew l' hl')
              · rw [List.mem_singleton.mp hl, List.mem_singleton.mp hl']
        refine ⟨htraced, hverifiers, ?_⟩
        by_cases hgrant : ∃ i tokens payload sessionId now, a = .grant i tokens payload sessionId now
        · obtain ⟨i, tokens, payload, sessionId, now, rfl⟩ := hgrant
          exact bound_grant h hallows hlogin
        · push Not at hgrant
          obtain ⟨hsessions, hcallbacks⟩ := sessions_of_loginStep hlogin hgrant
          intro c hc
          rcases hcallbacks c hc with hold | hnone
          · refine (h.backed c hold).keep (fun _ hk => hk) fun id session hid => ?_
            show login.bff.sessions id = some session
            rw [hsessions]
            exact hid
          · intro sessionId hlogged
            exact absurd hlogged (hnone sessionId)
      · cases hstep

/-- **A code is bound to its login.** When a callback has set a session cookie, the session is one of
    the user to whom Keycloak gave the code; and if that was at the end of the redirect of a login, it
    is the login whose `state` the callback has consumed. The verifiers of the run are to have different
    hashes. -/
theorem code_bound {as : List (HandshakeAction β)} (hrun : run (handshakeStep p) Handshake.start as = some w)
    (hchallenge : ∀ l ∈ w.login.logins, ∀ l' ∈ w.login.logins,
      p.challenge l.codeVerifier = p.challenge l'.codeVerifier → l.codeVerifier = l'.codeVerifier)
    {c : Callback β} (hc : c ∈ w.login.callbacks) {sessionId : String}
    (hlogged : c.phase = .loggedIn sessionId) :
    ∃ k ∈ w.codes, k.code = c.code ∧
      (∃ session, w.login.bff.sessions sessionId = some session ∧ session.username = some k.user) ∧
      ∀ l ∈ w.login.logins, k.query = p.authorizeQuery l.state l.codeVerifier →
        l.state = c.state ∧ c.consumedAt - l.startedAt ≤ pendingLoginTtl := by
  have hbound : Bound p w := run_invariant (fun _ _ _ h hstep => bound_step h hstep) bound_start hrun
  obtain ⟨k, hk, hcode, hadmits, hsession⟩ := hbound.backed c hc sessionId hlogged
  refine ⟨k, hk, hcode, hsession, fun l hl hquery => ?_⟩
  obtain ⟨⟨l', hl', hstate, hverifier, hstarted⟩, htime⟩ := hbound.traced.callback c hc
  have hsame : l = l' := by
    apply hbound.verifiers l hl l' hl'
    apply hchallenge l hl l' hl'
    rw [hverifier]
    exact (challenge_of_admits hquery hadmits).symm
  rw [hsame, hstarted]
  exact ⟨hstate, htime⟩

end Invariant

/-! ## Two logins -/

/-- The verifiers of `mallory`'s login and of `alice`'s. -/
def mallorysVerifier : String := "JpVxUEp0nqQm8a3wYvQH5m3jZ2sRk6sT9dXcVbNaLoE"

def alicesVerifier : String := "dBjftJeZ4CVP-mB92K27uhbUJU1p1r_wW1gFWFOEjXk"

/-- The hashes of the two. -/
def sampleChallenge (codeVerifier : String) : String :=
  if codeVerifier = alicesVerifier then "E9Melhoa2OwvFrEMTJguCHaoeK1t8URWbuGJSstw-cM"
  else if codeVerifier = mallorysVerifier then "134ABIN4rw60NCnyDdbzMye5i31rqcYCsh-KPkrl8t8"
  else ""

/-- A token endpoint that looks at the client and at the redirection URI as well. -/
def sampleKeycloak : Keycloak sampleChallenge where
  redeemed codes body :=
    let form := Form.parse body
    if Form.value? "grant_type" form = some "authorization_code" ∧
      Form.value? "client_id" form = some "frontend" ∧
        Form.value? "client_secret" form = some "frontend-secret" then
      (codes.find? fun k => Form.value? "code" form = some k.code).filter fun k =>
        Form.value? "redirect_uri" k.params == Form.value? "redirect_uri" form &&
          k.admits sampleChallenge (Form.value? "code_verifier" form)
    else none
  redeems := by
    intro codes body k h
    simp only at h
    split at h
    · obtain ⟨hfind, hchecks⟩ := Option.filter_eq_some_iff.mp h
      have hcode := List.find?_some hfind
      exact ⟨List.mem_of_find?_eq_some hfind, of_decide_eq_true hcode,
             (Bool.and_eq_true _ _ ▸ hchecks : _ ∧ _).2⟩
    · cases h

def sampleSetup : Setup := ⟨"http://localhost:3000", "frontend-secret", sampleChallenge, sampleKeycloak⟩

/-- Both start a login, and `alice` gets a code that has some of a form's punctuation in it. -/
def aliceLogsIn : List (HandshakeAction String) :=
  [.bff (.login "mallory's" mallorysVerifier "state-1" 0),
   .bff (.login "alice's" alicesVerifier "state-2" 10),
    .authorize "alice" "c&1=+%" (sampleSetup.authorizeQuery "state-2" alicesVerifier),
    .bff (.callback "alice's" (some "c&1=+%") (some "state-2") 60000),
    .bff (.grant 0 ⟨"token", none, none⟩ ⟨some "alice", some ["sales"]⟩ "session" 60500)]

theorem aliceLogsIn_state : (run (handshakeStep sampleSetup) Handshake.start aliceLogsIn).map
      (fun w => (w.login.logins, w.login.callbacks)) =
    some
      ([⟨"mallory's", "state-1", mallorysVerifier, 0⟩, ⟨"alice's", "state-2", alicesVerifier, 10⟩],
        [⟨"alice's", "c&1=+%", "state-2", ⟨alicesVerifier, 10⟩, 60000, .loggedIn "session"⟩]) := by
  decide +kernel

theorem alice_bound : ∃ w c, run (handshakeStep sampleSetup) Handshake.start aliceLogsIn = some w ∧
    c ∈ w.login.callbacks ∧
    ∃ k ∈ w.codes, k.code = c.code ∧
      (∃ session, w.login.bff.sessions "session" = some session ∧ session.username = some k.user) ∧
      ∀ l ∈ w.login.logins, k.query = sampleSetup.authorizeQuery l.state l.codeVerifier →
        l.state = c.state ∧ c.consumedAt - l.startedAt ≤ pendingLoginTtl := by
  obtain ⟨w, hrun, hstate⟩ := Option.map_eq_some_iff.mp aliceLogsIn_state
  obtain ⟨hlogins, hcallbacks⟩ := Prod.mk.inj hstate
  have hchallenge : ∀ l ∈ w.login.logins, ∀ l' ∈ w.login.logins,
      sampleSetup.challenge l.codeVerifier = sampleSetup.challenge l'.codeVerifier →
        l.codeVerifier = l'.codeVerifier := by
    rw [hlogins]
    decide +kernel
  have hc : _ ∈ w.login.callbacks := hcallbacks ▸ List.mem_cons_self
  exact ⟨w, _, hrun, hc, code_bound hrun hchallenge hc rfl⟩

end Gekko.Frontend
