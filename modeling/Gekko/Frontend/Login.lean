import Mathlib.Logic.Function.Basic
import Gekko.Lib.Machine
import Gekko.Lib.Pool
import Gekko.Warehouse.Stock


/-! # `Gekko.Frontend.Login` — `/api/login` and `/api/callback`

The frontend's server keeps the logins under way in a map keyed by the OAuth `state`, and the sessions
in a map keyed by the id in the session cookie. `/api/login` enters a pending login; `/api/callback`
consumes the one with the `state` of its query, redeems the code at the token endpoint with that login's
verifier, and sets the cookie for a new session. Nothing ties a pending login to the browser that
started it.

The machine interleaves the requests of any number of browsers. A callback runs without a pause up to
its request to the token endpoint, and again from the answer to the cookie. `cookie_from_login` is what
the `state` does guarantee: each session comes from one login of the last five minutes, and no login
gives two.
-/

namespace Gekko.Frontend

/-- A login under way. Times are in milliseconds. -/
structure PendingLogin where
  codeVerifier : String
  createdAt : Int
  deriving DecidableEq, Repr

/-- `PENDING_LOGIN_TTL_MS`. -/
def pendingLoginTtl : Int := 5 * 60 * 1000

structure Session where
  username : Option String
  roles : List String
  accessToken : String
  refreshToken : Option String
  idToken : Option String
  createdAt : Int
  deriving DecidableEq, Repr

/-- The body of a successful answer of the token endpoint. -/
structure TokenResponse where
  accessToken : String
  refreshToken : Option String
  idToken : Option String
  deriving DecidableEq, Repr

/-- What the callback reads from the verified access token. -/
structure TokenPayload where
  preferredUsername : Option String
  /-- `realm_access?.roles`. -/
  roles : Option (List String)
  deriving DecidableEq, Repr

/-- The two maps in the memory of the server. -/
structure Bff where
  pendingLogins : String → Option PendingLogin
  sessions : String → Option Session

namespace Bff

def empty : Bff := ⟨fun _ => none, fun _ => none⟩

/-- `startPendingLogin`, where `randomUUID()` returns `state`. -/
def startPendingLogin (bff : Bff) (codeVerifier state : String) (now : Int) : Bff :=
  { bff with pendingLogins := Function.update bff.pendingLogins state (some ⟨codeVerifier, now⟩) }

/-- `consumePendingLogin`. The entry is gone afterwards, also when it has expired. -/
def consumePendingLogin (bff : Bff) (state : String) (now : Int) : Option PendingLogin × Bff :=
  if state = "" then (none, bff)
  else
    ((bff.pendingLogins state).filter fun entry => ¬ pendingLoginTtl < now - entry.createdAt,
      { bff with pendingLogins := Function.update bff.pendingLogins state none })

/-- `createSession`, where `randomUUID()` returns `sessionId`. -/
def createSession (bff : Bff) (tokens : TokenResponse) (payload : TokenPayload) (sessionId : String)
    (now : Int) : Bff :=
  let session : Session :=
    { username := payload.preferredUsername
      roles := payload.roles.getD []
      accessToken := tokens.accessToken
      refreshToken := tokens.refreshToken
      idToken := tokens.idToken
      createdAt := now }
  { bff with sessions := Function.update bff.sessions sessionId (some session) }

/-- `getBffSession`. -/
def getBffSession (bff : Bff) (sessionId : Option String) : Option Session :=
  (sessionId.filter fun id => id ≠ "").bind bff.sessions

end Bff

/-! ## The machine -/

variable {β : Type}

/-- A `GET /api/login` that has been answered. -/
structure Login (β : Type) where
  browser : β
  state : String
  codeVerifier : String
  startedAt : Int
  deriving DecidableEq

inductive CallbackPhase where
  /-- The request to the token endpoint is under way. -/
  | exchanging
  | failed (status : Status)
  /-- The session cookie is set. -/
  | loggedIn (sessionId : String)
  deriving DecidableEq, Repr

/-- A `GET /api/callback` that has consumed a pending login. -/
structure Callback (β : Type) where
  browser : β
  code : String
  state : String
  pending : PendingLogin
  consumedAt : Int
  phase : CallbackPhase
  deriving DecidableEq

structure LoginState (β : Type) where
  bff : Bff
  callbacks : List (Callback β)
  /-- The login requests so far. -/
  logins : List (Login β)
  /-- The session cookie of each browser. -/
  cookies : β → Option String

inductive LoginAction (β : Type) where
  | login (browser : β) (codeVerifier state : String) (now : Int)
  /-- A callback request arrives, with what is in its query. -/
  | callback (browser : β) (code state : Option String) (now : Int)
  /-- The token endpoint rejects the code, or something on the way to the session throws. -/
  | fail (i : Nat) (status : Status)
  /-- The token endpoint grants tokens, and the access token verifies. -/
  | grant (i : Nat) (tokens : TokenResponse) (payload : TokenPayload) (sessionId : String) (now : Int)
  deriving DecidableEq

namespace LoginState

def start : LoginState β := ⟨Bff.empty, [], [], fun _ => none⟩

/-- Callback `c` ends with a cookie for the session `sessionId`. -/
def loggedIn [DecidableEq β] (s : LoginState β) (i : Nat) (c : Callback β) (tokens : TokenResponse)
    (payload : TokenPayload) (sessionId : String) (now : Int) : LoginState β :=
  { s with
    bff := s.bff.createSession tokens payload sessionId now
    callbacks := s.callbacks.set i { c with phase := .loggedIn sessionId }
    cookies := Function.update s.cookies c.browser (some sessionId) }

end LoginState

/-- One step. `redeems code verifier` is what Keycloak asks of a code; `randomUUID()` returns no value
twice. -/
def loginStep [DecidableEq β] (redeems : String → String → Bool) (s : LoginState β) :
    LoginAction β → Option (LoginState β)
  | .login browser codeVerifier state now =>
      if state ≠ "" ∧ ∀ l ∈ s.logins, l.state ≠ state then
        some
          { s with
            bff := s.bff.startPendingLogin codeVerifier state now
            logins := s.logins ++ [⟨browser, state, codeVerifier, now⟩] }
      else none
  | .callback browser code state now =>
      match code.filter (fun c => c ≠ ""), state.filter (fun st => st ≠ "") with
      | some code, some state =>
          match s.bff.consumePendingLogin state now with
          | (none, bff) => some { s with bff := bff }
          | (some pending, bff) =>
              some { s with bff := bff, callbacks := s.callbacks ++ [⟨browser, code,
                state, pending, now, .exchanging⟩] }
      | _, _ => some s
  | .fail i status =>
      match s.callbacks[i]? with
      | some c =>
          if c.phase = .exchanging ∧ 400 ≤ status then
            some { s with callbacks := s.callbacks.set i { c with phase := .failed status } }
          else none
      | none => none
  | .grant i tokens payload sessionId now =>
      match s.callbacks[i]? with
      | some c =>
          if c.phase = .exchanging ∧ redeems c.code c.pending.codeVerifier ∧
            s.bff.sessions sessionId = none then
            some (s.loggedIn i c tokens payload sessionId now)
          else none
      | none => none

/-! ## What a step can do -/

section Steps

variable [DecidableEq β] {redeems : String → String → Bool} {s s' : LoginState β}

/-- The pending login of `state` is gone. -/
def Bff.without (bff : Bff) (state : String) : Bff :=
  { bff with pendingLogins := Function.update bff.pendingLogins state none }

theorem Bff.pendingLogins_without {bff : Bff} {state st : String} {p : PendingLogin} :
    (bff.without state).pendingLogins st = some p ↔ st ≠ state ∧ bff.pendingLogins st = some p := by
  unfold Bff.without
  by_cases hst : st = state
  · subst hst
    simp
  · simp [hst]

theorem Bff.pendingLogins_without_self (bff : Bff) (state : String) :
    (bff.without state).pendingLogins state = none := by
  unfold Bff.without
  exact Function.update_self ..

/-- What is gone stays so. -/
theorem Bff.pendingLogins_without_of_none {bff : Bff} {state st : String} (h : bff.pendingLogins st = none) :
    (bff.without state).pendingLogins st = none := by
  rw [Option.eq_none_iff_forall_ne_some]
  intro p hp
  rw [Bff.pendingLogins_without, h] at hp
  cases hp.2

/-- The ways a step can change the state. -/
inductive LoginStepped (redeems : String → String → Bool) (s : LoginState β) : LoginState β → Prop where
  | ignored : LoginStepped redeems s s
  | started (browser : β) (codeVerifier state : String) (now : Int)
      (hfresh : ∀ l ∈ s.logins, l.state ≠ state) :
      LoginStepped redeems s
        { s with
          bff := s.bff.startPendingLogin codeVerifier state now
          logins := s.logins ++ [⟨browser, state, codeVerifier, now⟩] }
  | dropped (state : String) : LoginStepped redeems s { s with bff := s.bff.without state }
  | consumed (c : Callback β) (hpending : s.bff.pendingLogins c.state = some c.pending)
      (htime : c.consumedAt - c.pending.createdAt ≤ pendingLoginTtl) (hphase : c.phase = .exchanging) :
      LoginStepped redeems s { s with bff := s.bff.without c.state, callbacks := s.callbacks ++ [c] }
  | failed (i : Nat) (c : Callback β) (status : Status) (hc : s.callbacks[i]? = some c) :
      LoginStepped redeems s { s with callbacks := s.callbacks.set i { c with phase := .failed status } }
  | granted (i : Nat) (c : Callback β) (tokens : TokenResponse) (payload : TokenPayload) (sessionId : String)
      (now : Int) (hc : s.callbacks[i]? = some c) (hredeems : redeems c.code c.pending.codeVerifier = true) :
      LoginStepped redeems s (s.loggedIn i c tokens payload sessionId now)

theorem consumePendingLogin_eq {bff : Bff} {state : String} {now : Int} (hne : state ≠ "") :
    bff.consumePendingLogin state now =
      ((bff.pendingLogins state).filter fun entry => ¬ pendingLoginTtl < now - entry.createdAt,
        bff.without state) := if_neg hne

/-- **Inversion of a step.** -/
theorem stepped_of_loginStep {a : LoginAction β} (h : loginStep redeems s a = some s') :
    LoginStepped redeems s s' := by
  cases a with
  | login browser codeVerifier state now =>
      simp only [loginStep] at h
      split at h
      · rename_i hfresh
        cases h
        exact .started browser codeVerifier state now hfresh.2
      · cases h
  | callback browser code state now =>
      simp only [loginStep] at h
      split at h
      · rename_i code state _ hstate
        -- The query was filtered, so `consumePendingLogin` does look into the map.
        have hne : state ≠ "" := by
          have hkept := (Option.filter_eq_some_iff.mp hstate).2
          simpa using hkept
        rw [consumePendingLogin_eq hne] at h
        cases hentry : (s.bff.pendingLogins state).filter
            fun entry => ¬ pendingLoginTtl < now - entry.createdAt with
        | none =>
            simp only [hentry] at h
            cases h
            exact .dropped state
        | some pending =>
            simp only [hentry] at h
            cases h
            obtain ⟨hpending, htime⟩ := Option.filter_eq_some_iff.mp hentry
            exact .consumed ⟨browser, code, state, pending, now, .exchanging⟩ hpending
              (not_lt.mp (of_decide_eq_true htime)) rfl
      · cases h
        exact .ignored
  | fail i status =>
      simp only [loginStep] at h
      split at h
      · rename_i c hc
        split at h
        · cases h
          exact .failed i c status hc
        · cases h
      · cases h
  | grant i tokens payload sessionId now =>
      simp only [loginStep] at h
      split at h
      · rename_i c hc
        split at h
        · rename_i hgrant
          cases h
          exact .granted i c tokens payload sessionId now hc hgrant.2.1
        · cases h
      · cases h

end Steps

/-! ## Where a session comes from -/

/-- The login request `l` started the pending login that a callback for `state` finds. -/
def Login.Starts (l : Login β) (state : String) (pending : PendingLogin) : Prop :=
  l.state = state ∧ l.codeVerifier = pending.codeVerifier ∧ l.startedAt = pending.createdAt

/-- What the maps and the callbacks owe to the login requests. -/
structure Traced (redeems : String → String → Bool) (s : LoginState β) : Prop where
  pending : ∀ state pending, s.bff.pendingLogins state = some pending →
    ∃ l ∈ s.logins, l.Starts state pending
  callback : ∀ c ∈ s.callbacks, (∃ l ∈ s.logins, l.Starts c.state c.pending) ∧
    c.consumedAt - c.pending.createdAt ≤ pendingLoginTtl
  /-- What a callback has consumed, no later one finds. -/
  gone : ∀ c ∈ s.callbacks, s.bff.pendingLogins c.state = none
  once : ∀ (i j : Nat) (c c' : Callback β), s.callbacks[i]? = some c → s.callbacks[j]? = some c' →
    c.state = c'.state → i = j
  redeemed : ∀ c ∈ s.callbacks, ∀ sessionId, c.phase = .loggedIn sessionId →
    redeems c.code c.pending.codeVerifier = true

section Invariant

variable {redeems : String → String → Bool} {s s' : LoginState β}

theorem traced_start : Traced redeems (LoginState.start : LoginState β) where
  pending := nofun
  callback := nofun
  gone := nofun
  once := nofun
  redeemed := nofun

/-- A change of phase moves no state about. -/
theorem Traced.set {i : Nat} {c : Callback β} {phase : CallbackPhase} {bff : Bff}
    {cookies : β → Option String}
    (h : Traced redeems s) (hc : s.callbacks[i]? = some c) (hbff : bff.pendingLogins = s.bff.pendingLogins)
    (hphase : ∀ sessionId, phase = .loggedIn sessionId → redeems c.code c.pending.codeVerifier = true) :
    Traced redeems
      { s with bff := bff, callbacks := s.callbacks.set i { c with phase := phase },
               cookies := cookies } where
  pending := by
    intro state pending hpending
    rw [hbff] at hpending
    exact h.pending state pending hpending
  callback := Pool.forall_mem_set h.callback (h.callback c (List.mem_of_getElem? hc))
  gone := by
    rw [hbff]
    exact Pool.forall_mem_set h.gone (h.gone c (List.mem_of_getElem? hc))
  once := by
    -- Every callback of the new list stands where one with the same state stood before.
    have hold : ∀ {j : Nat} {d : Callback β}, (s.callbacks.set i { c with phase := phase })[j]? = some d →
        ∃ e : Callback β, s.callbacks[j]? = some e ∧ e.state = d.state := by
      intro j d hd
      rcases Pool.getElem?_set_cases hd with ⟨rfl, rfl⟩ | ⟨-, hd⟩
      · exact ⟨c, hc, rfl⟩
      · exact ⟨d, hd, rfl⟩
    intro j k d d' hd hd' hstate
    obtain ⟨e, he, heq⟩ := hold hd
    obtain ⟨e', he', heq'⟩ := hold hd'
    exact h.once j k e e' he he' (heq.trans (hstate.trans heq'.symm))
  redeemed := Pool.forall_mem_set h.redeemed hphase

/-- A login request starts a pending login under a state that no callback has. -/
theorem traced_started (h : Traced redeems s) (browser : β) (codeVerifier state : String) (now : Int)
    (hfresh : ∀ l ∈ s.logins, l.state ≠ state) :
    Traced redeems
      { s with
        bff := s.bff.startPendingLogin codeVerifier state now
        logins := s.logins ++ [⟨browser, state, codeVerifier, now⟩] } := by
  have hkeep : ∀ {st p}, (∃ l ∈ s.logins, l.Starts st p) →
      ∃ l ∈ s.logins ++ [⟨browser, state, codeVerifier, now⟩], l.Starts st p := by
    rintro st p ⟨l, hl, hstarts⟩
    exact ⟨l, List.mem_append_left _ hl, hstarts⟩
  -- No callback has the fresh state.
  have hother : ∀ c ∈ s.callbacks, c.state ≠ state := by
    intro c hc heq
    obtain ⟨⟨l, hl, hstarts⟩, -⟩ := h.callback c hc
    exact hfresh l hl (hstarts.1.trans heq)
  constructor
  · intro st p hp
    by_cases hst : st = state
    · subst hst
      simp only [Bff.startPendingLogin, Function.update_self] at hp
      cases hp
      exact ⟨_, List.mem_append_right _ (List.mem_singleton_self _), rfl, rfl, rfl⟩
    · simp only [Bff.startPendingLogin, Function.update_of_ne hst] at hp
      exact hkeep (h.pending st p hp)
  · intro c hc
    obtain ⟨hlogin, htime⟩ := h.callback c hc
    exact ⟨hkeep hlogin, htime⟩
  · intro c hc
    simp only [Bff.startPendingLogin, Function.update_of_ne (hother c hc)]
    exact h.gone c hc
  · exact h.once
  · exact h.redeemed

theorem traced_dropped (h : Traced redeems s) (state : String) :
    Traced redeems { s with bff := s.bff.without state } where
  pending := fun st p hp => h.pending st p (Bff.pendingLogins_without.mp hp).2
  callback := h.callback
  gone := fun c hc => Bff.pendingLogins_without_of_none (h.gone c hc)
  once := h.once
  redeemed := h.redeemed

/-- A callback consumes the pending login of a state that none before it had. -/
theorem traced_consumed {c : Callback β} (h : Traced redeems s)
    (hpending : s.bff.pendingLogins c.state = some c.pending)
    (htime : c.consumedAt - c.pending.createdAt ≤ pendingLoginTtl) (hphase : c.phase = .exchanging) :
    Traced redeems { s with bff := s.bff.without c.state, callbacks := s.callbacks ++ [c] } := by
  have hlogin := h.pending c.state c.pending hpending
  have hdropped := traced_dropped h c.state
  -- An earlier callback with this state would have left nothing to consume.
  have hother : ∀ d ∈ s.callbacks, d.state ≠ c.state := by
    intro d hd heq
    have hgone := h.gone d hd
    rw [heq, hpending] at hgone
    cases hgone
  constructor
  · exact hdropped.pending
  · exact Pool.forall_mem_append_singleton h.callback ⟨hlogin, htime⟩
  · exact Pool.forall_mem_append_singleton hdropped.gone (Bff.pendingLogins_without_self s.bff c.state)
  · intro i j d d' hd hd' hstate
    rcases Pool.getElem?_append_cases hd with ⟨hi, rfl⟩ | hold
    · rcases Pool.getElem?_append_cases hd' with ⟨hj, -⟩ | hold'
      · exact hi.trans hj.symm
      · exact absurd hstate.symm (hother d' (List.mem_of_getElem? hold'))
    · rcases Pool.getElem?_append_cases hd' with ⟨-, rfl⟩ | hold'
      · exact absurd hstate (hother d (List.mem_of_getElem? hold))
      · exact h.once i j d d' hold hold' hstate
  · refine Pool.forall_mem_append_singleton h.redeemed fun sessionId hlogged => ?_
    rw [hphase] at hlogged
    cases hlogged

variable [DecidableEq β]

theorem traced_stepped (h : Traced redeems s) (hstep : LoginStepped redeems s s') : Traced redeems s' := by
  cases hstep with
  | ignored => exact h
  | started browser codeVerifier state now hfresh =>
      exact traced_started h browser codeVerifier state now hfresh
  | dropped state => exact traced_dropped h state
  | consumed c hpending htime hphase => exact traced_consumed h hpending htime hphase
  | failed i c status hc => exact h.set hc rfl nofun
  | granted i c tokens payload sessionId now hc hredeems => exact h.set hc rfl fun _ _ => hredeems

/-- **Every session comes from one login.** When a callback has set a session cookie, the `state` it
    consumed was started by a login request at most five minutes earlier, the code was redeemed with
    that login's verifier, and no other callback has consumed that `state`. Which browser sent the login
    request is not part of it. -/
theorem cookie_from_login {as : List (LoginAction β)}
    (hrun : Machine.run (loginStep redeems) LoginState.start as = some s) {i : Nat} {c : Callback β}
    {sessionId : String} (hc : s.callbacks[i]? = some c) (hlogged : c.phase = .loggedIn sessionId) :
    (∃ l ∈ s.logins, l.state = c.state ∧ c.consumedAt - l.startedAt ≤ pendingLoginTtl ∧
      redeems c.code l.codeVerifier = true) ∧
    ∀ j c', s.callbacks[j]? = some c' → c'.state = c.state → j = i := by
  have htraced : Traced redeems s :=
    Machine.run_invariant (fun _ _ _ h hstep => traced_stepped h (stepped_of_loginStep hstep))
      traced_start hrun
  have hmem := List.mem_of_getElem? hc
  constructor
  · obtain ⟨⟨l, hl, hstate, hverifier, hstarted⟩, htime⟩ := htraced.callback c hmem
    refine ⟨l, hl, hstate, ?_, ?_⟩
    · rw [hstarted]
      exact htime
    · rw [hverifier]
      exact htraced.redeemed c hmem sessionId hlogged
  · intro j c' hc' hstate
    exact htraced.once j i c' c hc' hc hstate

end Invariant

/-! ## Two browsers -/

/-- Keycloak's check of the one code it has given out, to `mallory` for the login with this verifier. -/
def mallorysCode (code codeVerifier : String) : Bool := code == "code" && codeVerifier == "verifier"

/-- The browser `first` starts a login, and the browser `second` opens the callback URL with its code. -/
def loginOf (first second : String) : List (LoginAction String) :=
  [.login first "verifier" "state" 0, .callback second (some "code") (some "state") 60000,
    .grant 0 ⟨"token", none, none⟩ ⟨some "mallory", some ["sales"]⟩ "session" 60500]

/-- A login in one browser, as it is meant. -/
theorem mallory_logs_in : ∃ s c, Machine.run (loginStep mallorysCode) LoginState.start
      (loginOf "mallory's" "mallory's") = some s ∧ s.callbacks[0]? = some c ∧
    (∃ l ∈ s.logins, l.state = c.state ∧ c.consumedAt - l.startedAt ≤ pendingLoginTtl ∧
      mallorysCode c.code l.codeVerifier = true) ∧
    ∀ j c', s.callbacks[j]? = some c' → c'.state = c.state → j = 0 := by
  have hrun : Machine.run (loginStep mallorysCode) LoginState.start
      (loginOf "mallory's" "mallory's") = some _ := rfl
  exact ⟨_, _, hrun, rfl, cookie_from_login hrun rfl rfl⟩

/-- **Login in another browser.** `mallory` starts a login and makes `alice`'s browser open its callback URL:
    `alice`'s browser gets the cookie of a session of `mallory`, and never sent a login request. -/
theorem mallory_logs_alice_in : ∃ s, Machine.run (loginStep mallorysCode) LoginState.start
      (loginOf "mallory's" "alice's") = some s ∧
    s.cookies "alice's" = some "session" ∧
    ((s.bff.getBffSession (some "session")).bind fun session => session.username) = some "mallory" ∧
    ∀ l ∈ s.logins, l.browser ≠ "alice's" := by
  refine ⟨_, rfl, ?_, ?_, ?_⟩
  · decide +kernel
  · decide +kernel
  · decide +kernel

end Gekko.Frontend
