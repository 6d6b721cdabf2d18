import Gekko.Audit.AccessLog
import Gekko.Frontend.TokenExchange


/-! # `Gekko.Delegation.World` — the five services, exchanging tokens

A user's browser talks to the frontend's server, and no token ever reaches it. The server keeps the
token of the login in the session, and has Keycloak exchange it for one that is for the service it is
about to call. That service does the same with what it has received, and so on down the chain. The
frontend keeps what it is given per session and audience, Order Service per `jti` and audience; the
other two services keep nothing.

`step` interleaves all of this: any number of users, sessions and requests, the calls of the four
exchange clients (each one a call of `Gekko.Lib.TimedCache`), Keycloak's answers, the requests that the
handlers send on, and the access logs. `Action.present` is for whoever has come by a token that was
meant for others, and shows it to a service, and `Action.grant` for a client that has Keycloak issue a
token for a service without any exchange, as the bypass of the demo does. `Action.forge` is for a
request to Inventory Service that gets to no handler and has the headers `X-Subject` and `X-Jti`, from
which the access log is written.

Two things about Keycloak's tokens are assumed: each is for one service at most, and each has a `jti`.
What Order Service's cache does with a token that has none is in `Gekko.Ordering.TokenExchange`. A
request leaves one line in the log (`finish`); the second one that Order Service writes when a request
is dispatched again for its error page is left out.
-/

namespace Gekko.Delegation

open Machine

/-- The services, by the names under which they log and by which tokens are for them. -/
inductive Service where
  | frontend
  | orderService
  | inventoryService
  | warehouseService
  | employeeService
  deriving DecidableEq, Repr

def Service.name : Service → String
  | .frontend => "frontend"
  | .orderService => "order-service"
  | .inventoryService => "inventory-service"
  | .warehouseService => "warehouse-service"
  | .employeeService => "employee-service"

/-- The audiences that the handlers of a service ask tokens for. -/
def Service.audiences : Service → List Service
  | .frontend => [.orderService, .employeeService]
  | .orderService => [.inventoryService]
  | .inventoryService => [.warehouseService]
  | .warehouseService => [.employeeService]
  | .employeeService => []

/-- What a service logs for `sub` and `jti` when it has not verified a token. Two services log no such
    request, and Inventory Service logs what comes in two headers. -/
def Service.anonymous : Service → Option String
  | .frontend => some "-"
  | .orderService => none
  | .inventoryService => some ""
  | .warehouseService => none
  | .employeeService => some "-"

/-- An access token, with what the services and the logs read of it. Times are in nanoseconds. A single
    audience, and a `jti` that is always there, are assumptions about Keycloak. -/
structure Token where
  jti : String
  sub : String
  /-- The service it is for. The token of a login is for none of them. -/
  audience : Option Service
  expiresAt : Int
  deriving DecidableEq, Repr

/-- A call of the exchange client of `client`, by the handler of its request number `request`. -/
structure Exchange where
  client : Service
  request : Nat
  /-- The session that the request came with, at the frontend. -/
  session : String
  subject : Token
  audience : Service
  deriving DecidableEq, Repr

/-- Where the clients keep tokens. -/
inductive Key where
  /-- `session.exchangedTokens`, by the audience. -/
  | ofSession (session : String) (audience : Service)
  /-- `CacheKey` of Order Service. -/
  | ofSubject (jti : String) (audience : Service)
  /-- A client that keeps nothing. -/
  | uncached (request : Nat) (audience : Service)
  deriving DecidableEq, Repr

def Exchange.key (x : Exchange) : Key :=
  match x.client with
  | .frontend => .ofSession x.session x.audience
  | .orderService => .ofSubject x.subject.jti x.audience
  | _ => .uncached x.request x.audience

/-- What Keycloak says of the lifetime of a token, and to whom. -/
structure Lifetime where
  client : Service
  expiresIn : Int
  deriving DecidableEq, Repr

def second : Int := Ordering.second

/-- Until when a client serves what it is given. The clock of the frontend counts milliseconds. -/
def expiry (now : Int) (lifetime : Lifetime) : Int :=
  match lifetime.client with
  | .frontend => Frontend.exchangeExpiry (now / 1000000) lifetime.expiresIn * 1000000
  | .orderService => Ordering.exchangeExpiry now (Int32.ofInt lifetime.expiresIn)
  | _ => now

abbrev Exchanges := TimedCache.State Exchange Key Token Lifetime

abbrev ExchangeAction := TimedCache.Action Exchange Token Lifetime

def exchangeStep : Exchanges → ExchangeAction → Option Exchanges := TimedCache.step Exchange.key expiry

/-! ## The state -/

/-- A login, with the token and the session that came of it. -/
structure Login where
  session : String
  token : Token
  time : Int
  deriving DecidableEq, Repr

/-- A request that a service has let in. -/
structure Request where
  service : Service
  token : Token
  /-- The id in the session cookie, at the frontend. -/
  session : String
  /-- The number of the request whose handler has sent this one. -/
  cause : Option Nat
  receivedAt : Int
  deriving DecidableEq, Repr

/-- A line of an access log. -/
structure Access where
  service : Service
  tsNs : Int
  status : Status
  sub : String
  jti : String
  deriving DecidableEq, Repr

structure World where
  /-- The clock, the exchange clients, and what Keycloak has issued to them. -/
  exchanges : Exchanges
  logins : List Login
  /-- The token of each session. -/
  sessions : String → Option Token
  /-- The tokens for services that are none of an exchange. -/
  granted : List Token
  requests : List Request
  /-- The calls whose handler has sent its request on. -/
  sent : List Nat
  /-- The requests that have been answered. -/
  answered : List Nat
  log : List Access
  /-- The lines whose `sub` and `jti` were sent by somebody. -/
  forged : List Access

inductive Action where
  | tick (elapsed : Nat)
  /-- A user logs in. -/
  | login (session jti sub : String) (expiresIn : Int)
  /-- `GET /api/logout`. -/
  | logout (session : String)
  /-- A client asks Keycloak for a token for a service, with nothing but its credentials. -/
  | grant (service : Service) (jti sub : String) (expiresIn : Int)
  /-- A request with a session cookie reaches the frontend, which answers with `status` if there is no
  such session. -/
  | browse (session : String) (status : Status)
  /-- The handler of a request calls the exchange client. -/
  | call (request : Nat) (audience : Service)
  /-- A step that an exchange client takes by itself. -/
  | advance (a : ExchangeAction)
  /-- Keycloak answers the exchange request of call `i`. -/
  | issue (i : Nat) (jti : String) (expiresIn : Int)
  /-- The request that the handler behind call `i` sends with its token arrives. -/
  | deliver (i : Nat)
  /-- Somebody shows a token to a service. -/
  | present (service : Service) (token : Token)
  /-- A request is answered and logged. -/
  | finish (request : Nat) (status : Status)
  /-- A request to Inventory Service brings its own `X-Subject` and `X-Jti`, and is answered in front of
  the handlers. -/
  | forge (sub jti : String) (status : Status)

namespace World

def start (now : Int) : World := ⟨TimedCache.start now, [], fun _ => none, [], [], [], [], [], []⟩

/-- What Keycloak has signed. -/
def issued (w : World) : List Token :=
  w.logins.map Login.token ++ w.exchanges.issues.map TimedCache.Issue.value ++ w.granted

/-- What a service asks of a token: the signature, the audience and the time, with the leeway that its
library gives. -/
def verifies (w : World) (leeway : Service → Int) (service : Service) (token : Token) : Bool :=
  w.issued.contains token && token.audience == some service &&
    decide (w.exchanges.now < token.expiresAt + leeway service)

/-- A request with a token comes in. Without one that verifies, the answer is 401. -/
def receive (w : World) (leeway : Service → Int) (service : Service) (token : Token)
    (cause : Option Nat) : World :=
  if w.verifies leeway service token then
    { w with requests := w.requests ++ [⟨service, token, "", cause, w.exchanges.now⟩] }
  else
    match service.anonymous with
    | some blank => { w with log := w.log ++ [⟨service, w.exchanges.now, 401, blank, blank⟩] }
    | none => w

end World

/-- One step. Keycloak uses no `jti` twice, keeps the user of a token that it exchanges, and gives the
    new one the audience that it is asked for; `randomUUID()` returns no value twice. The `jti` of a
    granted token is none that a log takes for a blank. -/
def step (leeway : Service → Int) (w : World) : Action → Option World
  | .tick elapsed =>
      some { w with exchanges := { w.exchanges with now := w.exchanges.now + elapsed } }
  | .login session jti sub expiresIn =>
      if session ≠ "" ∧ (∀ l ∈ w.logins, l.session ≠ session) ∧ ∀ t ∈ w.issued, t.jti ≠ jti then
        let token : Token := ⟨jti, sub, none, w.exchanges.now + expiresIn * second⟩
        some
          { w with
            logins := w.logins ++ [⟨session, token, w.exchanges.now⟩]
            sessions := Function.update w.sessions session (some token) }
      else none
  | .logout session => some { w with sessions := Function.update w.sessions session none }
  | .grant service jti sub expiresIn =>
      if (∀ t ∈ w.issued, t.jti ≠ jti) ∧ jti ≠ "-" ∧ jti ≠ "" then
        some { w with
          granted := w.granted ++ [⟨jti, sub, some service, w.exchanges.now + expiresIn * second⟩] }
      else none
  | .browse session status =>
      match w.sessions session with
      | some token => some { w with requests := w.requests ++ [⟨.frontend, token,
          session, none, w.exchanges.now⟩] }
      | none => some { w with log := w.log ++ [⟨.frontend, w.exchanges.now, status, "-", "-"⟩] }
  | .call n audience =>
      match w.requests[n]? with
      | some r =>
          if audience ∈ r.service.audiences ∧ n ∉ w.answered then
            (exchangeStep w.exchanges (.call ⟨r.service, n, r.session, r.token, audience⟩)).map
              fun exchanges => { w with exchanges := exchanges }
          else none
      | none => none
  | .advance a =>
      match a with
      | .look _ | .decide _ | .stamp _ | .put _ | .fail _ =>
          (exchangeStep w.exchanges a).map fun exchanges => { w with exchanges := exchanges }
      | _ => none
  | .issue i jti expiresIn =>
      match w.exchanges.calls[i]? with
      | some c =>
          if ∀ t ∈ w.issued, t.jti ≠ jti then
            let token : Token :=
              ⟨jti, c.request.subject.sub, some c.request.audience, w.exchanges.now + expiresIn * second⟩
            (exchangeStep w.exchanges (.issue i token ⟨c.request.client, expiresIn⟩)).map fun exchanges =>
              { w with exchanges := exchanges }
          else none
      | none => none
  | .deliver i =>
      match w.exchanges.calls[i]? with
      | some c =>
          match c.phase with
          | .returned token =>
              if i ∉ w.sent then
                some
                  { w.receive leeway c.request.audience token (some c.request.request) with
                      sent := i :: w.sent }
              else none
          | _ => none
      | none => none
  | .present service token =>
      if service ≠ .frontend then some (w.receive leeway service token none) else none
  | .finish n status =>
      match w.requests[n]? with
      | some r =>
          if n ∉ w.answered then
            some
              { w with
                answered := n :: w.answered
                log := w.log ++ [⟨r.service, w.exchanges.now, status, r.token.sub, r.token.jti⟩] }
          else none
      | none => none
  | .forge sub jti status =>
      let access : Access := ⟨.inventoryService, w.exchanges.now, status, sub, jti⟩
      some { w with log := w.log ++ [access], forged := w.forged ++ [access] }

/-! ## What a step can do -/

/-- The exchange is one that the handler of a request may ask for. -/
def World.Made (w : World) (x : Exchange) : Prop :=
  ∃ r, w.requests[x.request]? = some r ∧ x.client = r.service ∧ x.session = r.session ∧ x.subject = r.token ∧
    x.audience ∈ r.service.audiences

/-- The requests that an action lets in. -/
inductive World.Admits (w : World) (leeway : Service → Int) : Action → Request → Prop where
  | browsed (session : String) (status : Status) (token : Token)
      (hsession : w.sessions session = some token) :
      w.Admits leeway (.browse session status) ⟨.frontend, token, session, none, w.exchanges.now⟩
  | delivered (i : Nat) (c : TimedCache.Call Exchange Token Lifetime) (token : Token)
      (hc : w.exchanges.calls[i]? = some c) (hphase : c.phase = .returned token)
      (hverifies : w.verifies leeway c.request.audience token = true) :
      w.Admits leeway (.deliver i) ⟨c.request.audience, token, "", some c.request.request, w.exchanges.now⟩
  | presented (service : Service) (token : Token) (hservice : service ≠ .frontend)
      (hverifies : w.verifies leeway service token = true) :
      w.Admits leeway (.present service token) ⟨service, token, "", none, w.exchanges.now⟩

/-- The lines that an action logs, apart from the forged ones. -/
inductive World.Tells (w : World) : Action → Access → Prop where
  | finished (n : Nat) (r : Request) (status : Status) (hr : w.requests[n]? = some r) :
      w.Tells (.finish n status) ⟨r.service, w.exchanges.now, status, r.token.sub, r.token.jti⟩
  | blank (a : Action) (service : Service) (status : Status) (b : String) (hb : service.anonymous = some b) :
      w.Tells a ⟨service, w.exchanges.now, status, b, b⟩

/-- The ways a step can change each part of the state. -/
structure Stepped (leeway : Service → Int) (w : World) (a : Action) (w' : World) : Prop where
  exchanges : w'.exchanges = w.exchanges ∨
    ∃ b, exchangeStep w.exchanges b = some w'.exchanges ∧ ∀ x, b = .call x → w.Made x
  issues : w'.exchanges.issues = w.exchanges.issues ∨
    ∃ i jti expiresIn c, a = .issue i jti expiresIn ∧ w.exchanges.calls[i]? = some c ∧
      (∀ t ∈ w.issued, t.jti ≠ jti) ∧
      w'.exchanges.issues = w.exchanges.issues ++
        [⟨c.request, ⟨jti, c.request.subject.sub, some c.request.audience,
                      w.exchanges.now + expiresIn * second⟩,
          ⟨c.request.client, expiresIn⟩, w.exchanges.now⟩]
  logins : w'.logins = w.logins ∨
    ∃ session jti sub expiresIn, a = .login session jti sub expiresIn ∧
        (∀ l ∈ w.logins, l.session ≠ session) ∧
      (∀ t ∈ w.issued, t.jti ≠ jti) ∧
      w'.logins = w.logins ++
        [⟨session, ⟨jti, sub, none, w.exchanges.now + expiresIn * second⟩, w.exchanges.now⟩]
  sessions : ∀ session token, w'.sessions session = some token → w.sessions session = some token ∨
    ∃ l ∈ w'.logins, (∀ l' ∈ w.logins, l'.session ≠ session) ∧ l.session = session ∧ l.token = token
  granted : w'.granted = w.granted ∨
    ∃ service jti sub expiresIn, a = .grant service jti sub expiresIn ∧ (∀ t ∈ w.issued, t.jti ≠ jti) ∧
      (jti ≠ "-" ∧ jti ≠ "") ∧
      w'.granted = w.granted ++ [⟨jti, sub, some service, w.exchanges.now + expiresIn * second⟩]
  requests : w'.requests = w.requests ∨ ∃ r, w'.requests = w.requests ++ [r] ∧ w.Admits leeway a r
  log : w'.log = w.log ∨ ∃ access, w'.log = w.log ++ [access] ∧ (w.Tells a access ∨ access ∈ w'.forged)
  forged : w'.forged = w.forged ∨ ∃ sub jti status, a = .forge sub jti status ∧
    w'.forged = w.forged ++ [⟨.inventoryService, w.exchanges.now, status, sub, jti⟩]

/-- A part of the state that a step leaves alone. -/
theorem Stepped.refl (leeway : Service → Int) (w : World) (a : Action) : Stepped leeway w a w where
  exchanges := Or.inl rfl
  issues := Or.inl rfl
  logins := Or.inl rfl
  sessions := fun _ _ h => Or.inl h
  granted := Or.inl rfl
  requests := Or.inl rfl
  log := Or.inl rfl
  forged := Or.inl rfl

section Steps

variable {leeway : Service → Int} {w w' : World} {a : Action}

/-- Only Keycloak's answers add to what has been issued. -/
theorem issues_of_exchangeStep {e e' : Exchanges} {b : ExchangeAction} (h : exchangeStep e b = some e')
    (hquiet : ∀ i token lifetime, b ≠ .issue i token lifetime) : e'.issues = e.issues := by
  rcases TimedCache.step_moved h with ⟨elapsed, -, rfl⟩ | ⟨x, -, rfl⟩ | ⟨i, c, u, phase, -, hmoved, rfl⟩
  · rfl
  · rfl
  · cases hmoved with
    | issued token lifetime => exact absurd rfl (hquiet i token lifetime)
    | _ => rfl

/-- A step of the exchange clients that issues nothing. -/
theorem stepped_exchanges {e : Exchanges} {b : ExchangeAction} (h : exchangeStep w.exchanges b = some e)
    (hquiet : ∀ i token lifetime, b ≠ .issue i token lifetime) (hmade : ∀ x, b = .call x → w.Made x) :
    Stepped leeway w a { w with exchanges := e } :=
  { Stepped.refl leeway w a with
    exchanges := Or.inr ⟨b, h, hmade⟩
    issues := Or.inl (issues_of_exchangeStep h hquiet) }

/-- A request with a token is let in or refused. -/
theorem stepped_receive {service : Service} {token : Token} {cause : Option Nat} {sent : List Nat}
    (hadmits : w.verifies leeway service token = true →
      w.Admits leeway a ⟨service, token, "", cause, w.exchanges.now⟩) :
    Stepped leeway w a { w.receive leeway service token cause with sent := sent } := by
  unfold World.receive
  by_cases hverifies : w.verifies leeway service token = true
  · rw [if_pos hverifies]
    exact { Stepped.refl leeway w a with requests := Or.inr ⟨_, rfl, hadmits hverifies⟩ }
  · rw [if_neg hverifies]
    cases hblank : service.anonymous with
    | none => exact { Stepped.refl leeway w a with }
    | some b =>
        exact
          { Stepped.refl leeway w a with
            log := Or.inr ⟨_, rfl, Or.inl (.blank a service 401 b hblank)⟩ }

/-- **Inversion of a step.** -/
theorem stepped_of_step (h : step leeway w a = some w') : Stepped leeway w a w' := by
  cases a with
  | tick elapsed =>
      cases h
      exact stepped_exchanges (b := .tick elapsed) rfl nofun nofun
  | login session jti sub expiresIn =>
      simp only [step] at h
      split at h
      · rename_i hfresh
        obtain ⟨-, hsession, hjti⟩ := hfresh
        cases h
        refine
          { Stepped.refl leeway w _ with
            logins := Or.inr ⟨session, jti, sub, expiresIn, rfl, hsession, hjti, rfl⟩
            sessions := ?_ }
        intro session' token htoken
        have hupdate : Function.update w.sessions session
            (some ⟨jti, sub, none, w.exchanges.now + expiresIn * second⟩) session' = some token := htoken
        by_cases heq : session' = session
        · subst heq
          rw [Function.update_self] at hupdate
          exact Or.inr ⟨_, List.mem_append_right _ List.mem_cons_self, hsession, rfl, Option.some.inj hupdate⟩
        · rw [Function.update_of_ne heq] at hupdate
          exact Or.inl hupdate
      · cases h
  | logout session =>
      cases h
      refine { Stepped.refl leeway w _ with sessions := ?_ }
      intro session' token htoken
      have hupdate : Function.update w.sessions session none session' = some token := htoken
      by_cases heq : session' = session
      · subst heq
        rw [Function.update_self] at hupdate
        cases hupdate
      · rw [Function.update_of_ne heq] at hupdate
        exact Or.inl hupdate
  | grant service jti sub expiresIn =>
      simp only [step] at h
      split at h
      · rename_i hfresh
        cases h
        exact
          { Stepped.refl leeway w _ with
            granted := Or.inr ⟨service, jti, sub, expiresIn, rfl, hfresh.1, hfresh.2, rfl⟩ }
      · cases h
  | browse session status =>
      simp only [step] at h
      split at h
      · rename_i token htoken
        cases h
        exact
          { Stepped.refl leeway w _ with
            requests := Or.inr ⟨_, rfl, .browsed session status token htoken⟩ }
      · cases h
        exact
          { Stepped.refl leeway w _ with
            log := Or.inr ⟨_, rfl, Or.inl (.blank _ .frontend status "-" rfl)⟩ }
  | call n audience =>
      simp only [step] at h
      split at h
      · rename_i r hr
        split at h
        · rename_i hguard
          obtain ⟨e, he, rfl⟩ := Option.map_eq_some_iff.mp h
          refine stepped_exchanges he nofun ?_
          rintro x hx
          cases hx
          exact ⟨r, hr, rfl, rfl, rfl, hguard.1⟩
        · cases h
      · cases h
  | advance b =>
      simp only [step] at h
      split at h
      all_goals first
        | (obtain ⟨e, he, rfl⟩ := Option.map_eq_some_iff.mp h
           exact stepped_exchanges he nofun nofun)
        | cases h
  | issue i jti expiresIn =>
      simp only [step] at h
      split at h
      · rename_i c hc
        split at h
        · rename_i hfresh
          obtain ⟨e, he, rfl⟩ := Option.map_eq_some_iff.mp h
          refine
            { Stepped.refl leeway w _ with
              exchanges := Or.inr ⟨_, he, nofun⟩
              issues := Or.inr ⟨i, jti, expiresIn, c, rfl, hc, hfresh, ?_⟩ }
          rcases TimedCache.step_moved he with ⟨_, ha, -⟩ | ⟨_, ha, -⟩ | ⟨j, d, u, phase, hd, hmoved, rfl⟩
          · cases ha
          · cases ha
          · cases hmoved with
            | issued token lifetime =>
                rw [hc] at hd
                cases hd
                rfl
        · cases h
      · cases h
  | deliver i =>
      simp only [step] at h
      split at h
      · rename_i c hc
        split at h
        · rename_i token hphase
          split at h
          · cases h
            exact stepped_receive fun hverifies => .delivered i c token hc hphase hverifies
          · cases h
        · cases h
      · cases h
  | present service token =>
      simp only [step] at h
      split at h
      · rename_i hservice
        cases h
        exact stepped_receive fun hverifies => .presented service token hservice hverifies
      · cases h
  | finish n status =>
      simp only [step] at h
      split at h
      · rename_i r hr
        split at h
        · cases h
          exact { Stepped.refl leeway w _ with log := Or.inr ⟨_, rfl, Or.inl (.finished n r status hr)⟩ }
        · cases h
      · cases h
  | forge sub jti status =>
      cases h
      exact
        { Stepped.refl leeway w _ with
          log := Or.inr ⟨_, rfl, Or.inr (List.mem_append_right _ List.mem_cons_self)⟩
          forged := Or.inr ⟨sub, jti, status, rfl, rfl⟩ }

end Steps

end Gekko.Delegation
