import Gekko.Audit.AccessLog
import Gekko.Employee.Dpop
import Gekko.Frontend.Dpop
import Gekko.Frontend.Login
import Gekko.Inventory.Server
import Gekko.Warehouse.Access


/-! # `Gekko.Audit.Coverage` — which accesses leave a line

The audit sees what the services log. The four services that it reads besides Order Service put the log
and the check of the token in different orders:

* the frontend's server looks the session up by itself, before its handlers run, and logs when the
  response is out;
* Inventory Service logs around the check (`Gekko.Inventory.Server`);
* Warehouse Service logs inside the check, which has put the claims into the request;
* Employee Service logs around its handlers, and the check leaves the identity in `request.state`.

`Access` is an access at one of them; `logsOnce_iff` says when one with a verified token leaves its one line.
-/

namespace Gekko

open Audit (AccessLog Carries LogsOnce Outcome logsOnce_singleton_iff not_logsOnce_nil)

/-! ## The frontend's server -/

namespace Frontend

/-- A request as `server/middleware/access-log.ts` sees it. -/
structure ServerEvent where
  method : String
  /-- `getRequestURL(event).pathname`; `none` when the headers make no URL and it throws. -/
  pathname : Option String
  /-- The headers, by lower-case name. -/
  header : String → Option String
  /-- The session cookie. -/
  sessionId : Option String

/-- `jwtPayload`, where `readJson` decodes and parses a segment. -/
def jwtPayload (readJson : String → Option Json) (token : String) : Json :=
  match token.toList.splitOn '.' with
  | _ :: payload :: _ => (readJson (String.ofList payload)).getD (.obj [])
  | _ => .obj []

/-- `value ?? "-"`. -/
def orDash : Option Json → Json
  | none => .str "-"
  | some .null => .str "-"
  | some value => value

/-- The status that is sent: an error that leaves a handler is answered by the framework. -/
def sentStatus : Outcome → Status
  | .responds status => status
  | .escapes => 500

/-- The lines that the middleware writes, for a request that its handler ends with `outcome`. -/
def accessLog (readJson : String → Option Json) (bff : Bff) (event : ServerEvent) (outcome : Outcome) :
    List AccessLog :=
  if event.header "x-health-check" = some "1" then []
  else
    match event.pathname with
    | none => []
    | some path =>
        let claims :=
          match bff.getBffSession event.sessionId with
          | some session => jwtPayload readJson session.accessToken
          | none => .obj []
        match claims with
        | .null => []
        | claims =>
            [⟨event.method, path, sentStatus outcome, orDash (claims.get? "sub"), orDash (claims.get? "jti")⟩]

/-- The request is not taken for a probe, and it has a URL. -/
def Logs (event : ServerEvent) : Prop :=
  event.header "x-health-check" ≠ some "1" ∧ event.pathname.isSome = true

theorem carries_orDash (method path : String) (status : Status) (token : List (String × Json)) :
    Carries ⟨method, path, status, orDash (Json.get? "sub" (.obj token)),
             orDash (Json.get? "jti" (.obj token))⟩ token := by
  constructor
  · intro sub hsub
    simp [Json.get?, hsub, orDash]
  · intro jti hjti _
    simp [Json.get?, hjti, orDash]
  · intro hnone
    simp [Json.get?, hnone, orDash]

theorem accessLog_logsOnce_iff {readJson : String → Option Json} {bff : Bff} {event : ServerEvent}
    {outcome : Outcome} {session : Session} {token : List (String × Json)}
    (hsession : bff.getBffSession event.sessionId = some session)
    (htoken : jwtPayload readJson session.accessToken = .obj token) :
    LogsOnce (accessLog readJson bff event outcome) token ↔ Logs event := by
  unfold accessLog Logs
  by_cases hprobe : event.header "x-health-check" = some "1"
  · rw [if_pos hprobe]
    exact iff_of_false not_logsOnce_nil fun h => h.1 hprobe
  · rw [if_neg hprobe]
    cases hpath : event.pathname with
    | none => exact iff_of_false not_logsOnce_nil fun h => by cases h.2
    | some path =>
        simp only [hsession, htoken]
        rw [logsOnce_singleton_iff]
        exact iff_of_true (carries_orDash _ _ _ _) ⟨hprobe, rfl⟩

end Frontend

/-! ## Inventory Service -/

namespace Inventory

/-- The handler of the request does not panic, if it is run. -/
def Logs (handlers : Endpoint → List UInt8 → Request → Outcome) (r : Request) (claims : MapClaims) : Prop :=
  ∀ endpoint id, findHandler r.method r.escapedPath = some (.endpoint endpoint id) →
    endpoint.admits claims = true → handlers endpoint id (r.identified claims) ≠ .escapes

theorem carries_claims (r : Request) (status : Status) (claims : MapClaims) :
    Carries (r.logged status (subjectFrom claims) (jtiFrom claims)) claims := by
  constructor
  · intro sub hsub
    simp [Request.logged, subjectFrom, hsub, asString]
  · intro jti hjti hne
    simp [Request.logged, jtiFrom, hjti, asString, hne]
  · intro hnone
    simp [Request.logged, jtiFrom, hnone, asString]

theorem serve_logsOnce_iff {verify : String → Option MapClaims}
    {handlers : Endpoint → List UInt8 → Request → Outcome} {refusal : Request → Status} {r : Request}
    {claims : MapClaims} (hpath : r.path ≠ Utf8.encode "/health")
    (hverified : verified verify r = some claims) :
    LogsOnce (serve verify handlers refusal r).accessLines claims ↔ Logs handlers r claims := by
  obtain ⟨endpoint, id, hfind, ⟨hadmits, hescapes, hlines⟩ | ⟨hanswers, status, hlines⟩⟩ :=
    accessLines_of_verified handlers refusal hpath hverified
  · rw [hlines]
    exact iff_of_false not_logsOnce_nil fun h => h endpoint id hfind hadmits hescapes
  · rw [hlines, logsOnce_singleton_iff]
    refine iff_of_true (carries_claims _ _ _) ?_
    intro endpoint' id' hfind' hadmits'
    rw [hfind] at hfind'
    cases hfind'
    exact hanswers hadmits'

end Inventory

/-! ## Warehouse Service -/

namespace Warehouse

/-- `struct Claims` of `auth.rs`. -/
structure TokenClaims where
  sub : String
  jti : Option String
  preferredUsername : Option String
  /-- `realm_access.roles`. -/
  roles : List String
  deriving DecidableEq, Repr

/-- An `Option<String>` with `serde(default)`. -/
def optionalString : Option Json → Option (Option String)
  | none => some none
  | some .null => some none
  | some (.str s) => some (some s)
  | some _ => none

def stringElement : Json → Option String
  | .str s => some s
  | _ => none

/-- An `Option<RealmAccess>` with `serde(default)`: the roles in it. -/
def realmRoles : Option Json → Option (List String)
  | none => some []
  | some .null => some []
  | some (.obj realmAccess) =>
      match Json.member? "roles" realmAccess with
      | none => some []
      | some (.arr roles) => roles.mapM stringElement
      | some _ => none
  | some (.arr []) => some []
  | some (.arr [.arr roles]) => roles.mapM stringElement
  | some _ => none

/-- serde's reading of the claims, for a token that repeats no name. -/
def TokenClaims.decode (token : List (String × Json)) : Option TokenClaims := do
  let sub ← (Json.member? "sub" token).bind stringElement
  let jti ← optionalString (Json.member? "jti" token)
  let preferredUsername ← optionalString (Json.member? "preferred_username" token)
  let roles ← realmRoles (Json.member? "realm_access" token)
  return { sub, jti, preferredUsername, roles }

/-- `strip_prefix("Bearer ")`. -/
def bearerToken (authorization : String) : Option String :=
  if "Bearer ".toList.isPrefixOf authorization.toList then
    some (String.ofList (authorization.toList.drop "Bearer ".length))
  else none

/-- `access_log_middleware`, around a handler that ends with `outcome`. -/
def accessLogMiddleware (method path : String) (claims : TokenClaims) (outcome : Outcome) : List AccessLog :=
  match outcome with
  | .escapes => []
  | .responds status => [⟨method, path, status, .str claims.sub, .str (claims.jti.getD "-")⟩]

/-- The protected router: `auth_middleware` and, inside it, the log and the handler. `verify` is the
    part of `verify` that checks the signature, the issuer, the audience and the times. -/
def protectedRouter (verify : String → Option (List (String × Json))) (handler : TokenClaims → Outcome)
    (method path : String) (authorization : Option String) : Outcome × List AccessLog :=
  match ((authorization.bind bearerToken).bind verify).bind TokenClaims.decode with
  | none => (.responds 401, [])
  | some claims => (handler claims, accessLogMiddleware method path claims (handler claims))

theorem decode_eq_some {token : List (String × Json)} {claims : TokenClaims}
    (h : TokenClaims.decode token = some claims) :
    Json.member? "sub" token = some (.str claims.sub) ∧
      optionalString (Json.member? "jti" token) = some claims.jti := by
  simp only [TokenClaims.decode, bind, Option.bind_eq_some_iff, pure, Option.some.injEq] at h
  obtain ⟨sub, ⟨value, hsub, hstring⟩, jti, hjti, name, -, roles, -, rfl⟩ := h
  refine ⟨?_, hjti⟩
  cases value <;> simp_all [stringElement]

theorem protectedRouter_logsOnce_iff {verify : String → Option (List (String × Json))}
    {handler : TokenClaims → Outcome} {method path : String} {authorization : Option String}
    {token : List (String × Json)} {claims : TokenClaims}
    (hverify : (authorization.bind bearerToken).bind verify = some token)
    (hclaims : TokenClaims.decode token = some claims) :
    LogsOnce (protectedRouter verify handler method path authorization).2 token ↔
    handler claims ≠ .escapes := by
  obtain ⟨hsub, hjti⟩ := decode_eq_some hclaims
  unfold protectedRouter
  rw [hverify, Option.bind_some, hclaims]
  cases houtcome : handler claims with
  | escapes =>
      simp only [houtcome, accessLogMiddleware]
      exact iff_of_false not_logsOnce_nil fun h => h rfl
  | responds status =>
      simp only [houtcome, accessLogMiddleware, logsOnce_singleton_iff]
      refine iff_of_true ?_ nofun
      -- The line shows `sub` and `jti` as they were decoded, and a missing `jti` as a dash.
      constructor
      · intro sub hsub'
        rw [hsub] at hsub'
        exact (Option.some.inj hsub')
      · intro jti hjti' _
        rw [hjti'] at hjti
        rw [← Option.some.inj hjti]
        rfl
      · intro hnone
        rw [hnone] at hjti
        rw [← Option.some.inj hjti]
        rfl

end Warehouse

/-! ## Employee Service -/

namespace Employee

open Checks
open Dpop (Jose)

/-- `request.state`, as far as it is set. -/
structure RequestState where
  sub : Option Json
  jti : Option Json

/-- What `call_next` makes of a result: an `HTTPException` is a response, any other exception goes on. -/
def callNext : Except PyError Outcome → Outcome
  | .ok outcome => outcome
  | .error (.http status _) => .responds status
  | .error _ => .escapes

section Service

-- `AuthContext.verify`, and `get_employee` with all that it calls.
variable (J : Jose) (starlette : Starlette) (now : Rat)
  (verify : String → Except PyError (List (String × Json)))
  (getEmployee : List (String × Json) → Outcome)

/-- The endpoint: the dependency `get_claims`, then `get_employee`. -/
def endpoint (r : Dpop.Request) (authorization : Option String) : RequestState × Except PyError Outcome :=
  match getClaims J starlette now verify r authorization with
  | .error e => (⟨none, none⟩, .error e)
  | .ok claims =>
      let state : RequestState :=
        { sub := some ((Json.member? "sub" claims).getD (.str "-"))
          jti := some ((Json.member? "jti" claims).getD (.str "-")) }
      (state, .ok (getEmployee claims))

/-- The lines that `access_log_middleware` writes around the endpoint. `urlPath` is `request.url.path`;
    `none` when it raises. -/
def accessLogMiddleware (urlPath : Dpop.Request → Option String) (r : Dpop.Request)
    (authorization : Option String) : List AccessLog :=
  match urlPath r with
  | none => []
  | some path =>
      if path = "/health" then []
      else
        let (state, result) := endpoint J starlette now verify getEmployee r authorization
        match callNext result with
        -- The exception goes through the middleware, past its `print`.
        | .escapes => []
        | .responds status =>
            [⟨r.method, path, status, state.sub.getD (.str "-"), state.jti.getD (.str "-")⟩]

end Service

/-- The token has no name that a line could show. -/
def Nameless (token : List (String × Json)) : Prop :=
  (∀ sub, Json.member? "sub" token = some (.str sub) → sub = "-") ∧
    ∀ jti, Json.member? "jti" token = some (.str jti) → jti ≠ "" → jti = "-"

/-- The URL is not that of the probe; the proof passes and no exception leaves `get_employee`, or the
    proof is turned away and there is no name to be lost. -/
def Logs (J : Jose) (starlette : Starlette) (now : Rat) (getEmployee : List (String × Json) → Outcome)
    (urlPath : Dpop.Request → Option String) (r : Dpop.Request) (token : String)
    (claims : List (String × Json)) : Prop :=
  (∃ path, urlPath r = some path ∧ path ≠ "/health") ∧
    ((validateDpop J starlette now r claims token = .ok () ∧ getEmployee claims ≠ .escapes) ∨
      ((∃ status detail, validateDpop J starlette now r claims token = .error (.http status detail)) ∧
       Nameless claims))

theorem carries_getD (method path : String) (status : Status) (token : List (String × Json)) :
    Carries ⟨method, path, status, (Json.member? "sub" token).getD (.str "-"),
      (Json.member? "jti" token).getD (.str "-")⟩ token := by
  constructor
  · intro sub hsub
    simp [hsub]
  · intro jti hjti _
    simp [hjti]
  · intro hnone
    simp [hnone]

theorem carries_dashes_iff {method path : String} {status : Status} {token : List (String × Json)} :
    Carries ⟨method, path, status, .str "-", .str "-"⟩ token ↔ Nameless token := by
  constructor
  · rintro ⟨hsub, hjti, -⟩
    constructor
    · intro sub h
      exact (Json.str.inj (hsub sub h)).symm
    · intro jti h hne
      exact (Json.str.inj (hjti jti h hne)).symm
  · rintro ⟨hsub, hjti⟩
    constructor
    · intro sub h
      rw [hsub sub h]
    · intro jti h hne
      rw [hjti jti h hne]
    · intro _
      rfl

/-- `get_claims` behind the check of the token. -/
theorem getClaims_of_verified {J : Jose} {starlette : Starlette} {now : Rat}
    {verify : String → Except PyError (List (String × Json))} {r : Dpop.Request}
    {authorization : Option String} {scheme token : String} {claims : List (String × Json)}
    (hpartition : partition (authorization.getD "") = (scheme, token))
    (hscheme : scheme = "Bearer" ∨ scheme = "DPoP")
    (htoken : token ≠ "") (hverify : verify token = .ok claims) :
    getClaims J starlette now verify r authorization =
      (validateDpop J starlette now r claims token).map fun _ => claims := by
  have hcheck : check ((scheme = "Bearer" ∨ scheme = "DPoP") ∧ token ≠ "")
      (PyError.http 401 "missing bearer token") = .ok () := check_eq_ok.mpr ⟨hscheme, htoken⟩
  unfold getClaims
  rw [hpartition]
  simp only [hcheck, hverify]
  cases hdpop : validateDpop J starlette now r claims token with
  | ok u => simp [bind, Except.bind, hdpop, Except.map, pure, Except.pure]
  | error e => simp [bind, Except.bind, hdpop, Except.map]

theorem not_logs_of_uncaught {e : PyError} {p q : Prop} (h : ∀ status detail, e ≠ .http status detail) :
    ¬ (((Except.error e : Except PyError Unit) = .ok () ∧ p) ∨
      ((∃ status detail, (Except.error e : Except PyError Unit) = .error (.http status detail)) ∧ q)) := by
  rintro (⟨hok, -⟩ | ⟨⟨status, detail, herror⟩, -⟩)
  · cases hok
  · exact h status detail (Except.error.inj herror)

theorem accessLogMiddleware_logsOnce_iff {J : Jose} {starlette : Starlette} {now : Rat}
    {verify : String → Except PyError (List (String × Json))} {getEmployee : List (String × Json) → Outcome}
    {urlPath : Dpop.Request → Option String} {r : Dpop.Request} {authorization : Option String}
    {scheme token : String} {claims : List (String × Json)}
    (hpartition : partition (authorization.getD "") = (scheme, token))
    (hscheme : scheme = "Bearer" ∨ scheme = "DPoP")
    (htoken : token ≠ "") (hverify : verify token = .ok claims) :
    LogsOnce (accessLogMiddleware J starlette now verify getEmployee urlPath r authorization) claims ↔
      Logs J starlette now getEmployee urlPath r token claims := by
  unfold accessLogMiddleware Logs endpoint
  rw [getClaims_of_verified hpartition hscheme htoken hverify]
  cases hpath : urlPath r with
  | none =>
      refine iff_of_false not_logsOnce_nil ?_
      rintro ⟨⟨path, h, -⟩, -⟩
      cases h
  | some path =>
      by_cases hhealth : path = "/health"
      · simp only [hhealth, if_true]
        refine iff_of_false not_logsOnce_nil ?_
        rintro ⟨⟨path', h, hne⟩, -⟩
        exact hne (Option.some.inj h).symm
      · have hurl : ∃ path', some path = some path' ∧ path' ≠ "/health" := ⟨path, rfl, hhealth⟩
        simp only [hhealth, if_false]
        rw [and_iff_right hurl]
        -- The identity is set after the proof has passed, and the line is written after the handler has
        -- answered.
        cases hdpop : validateDpop J starlette now r claims token with
        | ok u =>
            cases houtcome : getEmployee claims with
            | escapes =>
                simp only [Except.map, callNext, houtcome]
                refine iff_of_false not_logsOnce_nil ?_
                rintro (⟨-, h⟩ | ⟨⟨status, detail, h⟩, -⟩)
                · exact h rfl
                · cases h
            | responds status =>
                simp only [Except.map, callNext, houtcome, Option.getD_some, logsOnce_singleton_iff]
                exact iff_of_true (carries_getD _ _ _ _) (Or.inl ⟨trivial, nofun⟩)
        | error e =>
            cases e with
            -- The line of a refused proof has dashes for the names.
            | http status detail =>
                simp only [Except.map, callNext, Option.getD_none, logsOnce_singleton_iff, carries_dashes_iff]
                constructor
                · intro h
                  exact Or.inr ⟨⟨status, detail, rfl⟩, h⟩
                · rintro (⟨h, -⟩ | ⟨-, h⟩)
                  · cases h
                  · exact h
            | jwt message => exact iff_of_false not_logsOnce_nil (not_logs_of_uncaught nofun)
            | attributeError => exact iff_of_false not_logsOnce_nil (not_logs_of_uncaught nofun)
            | keyError => exact iff_of_false not_logsOnce_nil (not_logs_of_uncaught nofun)
            | typeError => exact iff_of_false not_logsOnce_nil (not_logs_of_uncaught nofun)
            | valueError => exact iff_of_false not_logsOnce_nil (not_logs_of_uncaught nofun)
            | overflowError => exact iff_of_false not_logsOnce_nil (not_logs_of_uncaught nofun)

end Employee

namespace Audit

/-- An access at one of the four services: the request, and what the code outside makes of it. -/
inductive Access where
  | frontend (readJson : String → Option Json) (bff : Frontend.Bff) (event : Frontend.ServerEvent)
      (outcome : Outcome)
  | inventory (verify : String → Option Inventory.MapClaims)
      (handlers : Inventory.Endpoint → List UInt8 → Inventory.Request → Outcome)
      (refusal : Inventory.Request → Status) (r : Inventory.Request)
  | warehouse (verify : String → Option (List (String × Json))) (handler : Warehouse.TokenClaims → Outcome)
      (method path : String) (authorization : Option String)
  | employee (J : Dpop.Jose) (starlette : Employee.Starlette) (now : Rat)
      (verify : String → Except Employee.PyError (List (String × Json)))
      (getEmployee : List (String × Json) → Outcome) (urlPath : Dpop.Request → Option String)
          (r : Dpop.Request)
      (authorization : Option String)

namespace Access

/-- The lines that the access leaves. -/
def lines : Access → List AccessLog
  | frontend readJson bff event outcome => Frontend.accessLog readJson bff event outcome
  | inventory verify handlers refusal r => (Inventory.serve verify handlers refusal r).accessLines
  | warehouse verify handler method path authorization =>
      (Warehouse.protectedRouter verify handler method path authorization).2
  | employee J starlette now verify getEmployee urlPath r authorization =>
      Employee.accessLogMiddleware J starlette now verify getEmployee urlPath r authorization

/-- The access has a token that the service has verified, with these members; the frontend's server has
    it in the session, and the health check of Inventory Service is none of the accesses. -/
def Verified (claims : List (String × Json)) : Access → Prop
  | frontend readJson bff event _ => ∃ session, bff.getBffSession event.sessionId = some session ∧
      Frontend.jwtPayload readJson session.accessToken = .obj claims
  | inventory verify _ _ r => r.path ≠ Utf8.encode "/health" ∧ Inventory.verified verify r = some claims
  | warehouse verify _ _ _ authorization =>
      (authorization.bind Warehouse.bearerToken).bind verify = some claims ∧
        (Warehouse.TokenClaims.decode claims).isSome = true
  | employee _ _ _ verify _ _ _ authorization => ∃ scheme token,
      Employee.partition (authorization.getD "") = (scheme, token) ∧ (scheme = "Bearer" ∨ scheme = "DPoP") ∧
        token ≠ "" ∧ verify token = .ok claims

/-- The condition of each service. -/
def Logs (claims : List (String × Json)) : Access → Prop
  | frontend _ _ event _ => Frontend.Logs event
  | inventory _ handlers _ r => Inventory.Logs handlers r claims
  | warehouse _ handler _ _ _ =>
      ∀ decoded, Warehouse.TokenClaims.decode claims = some decoded → handler decoded ≠ .escapes
  | employee J starlette now _ getEmployee urlPath r authorization =>
      Employee.Logs J starlette now getEmployee urlPath r
        (Employee.partition (authorization.getD "")).2 claims

end Access

/-- **When an access with a verified token leaves its line**, at each of the four services. -/
theorem logsOnce_iff (access : Access) (claims : List (String × Json)) (h : access.Verified claims) :
    LogsOnce access.lines claims ↔ access.Logs claims := by
  cases access with
  | frontend readJson bff event outcome =>
      obtain ⟨session, hsession, htoken⟩ := h
      exact Frontend.accessLog_logsOnce_iff hsession htoken
  | inventory verify handlers refusal r =>
      obtain ⟨hpath, hverified⟩ := h
      exact Inventory.serve_logsOnce_iff hpath hverified
  | warehouse verify handler method path authorization =>
      obtain ⟨hverify, hdecodes⟩ := h
      obtain ⟨decoded, hdecoded⟩ := Option.isSome_iff_exists.mp hdecodes
      refine (Warehouse.protectedRouter_logsOnce_iff hverify hdecoded).trans ?_
      constructor
      · intro hanswers decoded' hdecoded'
        cases Option.some.inj (hdecoded.symm.trans hdecoded')
        exact hanswers
      · intro hanswers
        exact hanswers decoded hdecoded
  | employee J starlette now verify getEmployee urlPath r authorization =>
      obtain ⟨scheme, token, hpartition, hscheme, htoken, hverify⟩ := h
      have hlogs : (Employee.partition (authorization.getD "")).2 = token := by rw [hpartition]
      show _ ↔ Employee.Logs J starlette now getEmployee urlPath r
          (Employee.partition (authorization.getD "")).2 claims
      rw [hlogs]
      exact Employee.accessLogMiddleware_logsOnce_iff hpartition hscheme htoken hverify

/-- The members of a token. -/
def sampleToken : List (String × Json) := [("sub", .str "u"), ("jti", .str "t")]

/-- One session, whose access token holds them. -/
def sampleBff : Frontend.Bff where
  pendingLogins := fun _ => none
  sessions := fun id => if id = "s" then some ⟨none, [], "h.p.s", none, none, 0⟩ else none

/-- An order, with or without the header of the probes. -/
def orderEvent (probe : Option String) : Frontend.ServerEvent where
  method := "POST"
  pathname := some "/api/orders"
  header := fun name => if name = "x-health-check" then probe else none
  sessionId := some "s"

/-- An order with a session, a request for a product, one for the stock and one for an employee. -/
def sampleAccesses : List Access :=
  [.frontend (fun _ => some (.obj sampleToken)) sampleBff (orderEvent none) (.responds 201),
    .inventory (fun _ => some sampleToken) (fun _ _ _ => .responds 200)
      (fun _ => 404) Inventory.productRequest,
    .warehouse (fun _ => some sampleToken) (fun _ => .responds 200) "GET" "/warehouse/stock/product-A"
      (some "Bearer h.p.s"),
    .employee Frontend.sampleJose .escaping 0 (fun _ => .ok sampleToken) (fun _ => .responds 404)
      (fun _ => some "/employees/alice") Frontend.aliceRequest (some "Bearer h.p.s")]

theorem jwtPayload_sample :
    Frontend.jwtPayload (fun _ => some (.obj sampleToken)) "h.p.s" = .obj sampleToken := by
  have hsplit : "h.p.s".toList.splitOn '.' = [['h'], ['p'], ['s']] := by decide +kernel
  unfold Frontend.jwtPayload
  rw [hsplit]
  rfl

theorem sampleAccesses_verified : ∀ access ∈ sampleAccesses, access.Verified sampleToken := by
  simp only [sampleAccesses, List.forall_mem_cons]
  refine ⟨⟨_, rfl, jwtPayload_sample⟩, ⟨by decide +kernel, Inventory.verified_productRequest _⟩, ⟨?_, rfl⟩,
    ⟨"Bearer", "h.p.s", by decide +kernel, Or.inl rfl, by decide, rfl⟩, nofun⟩
  have hbearer : Warehouse.bearerToken "Bearer h.p.s" = some "h.p.s" := by decide +kernel
  rw [Option.bind_some, hbearer]
  rfl

theorem sampleAccesses_logs : ∀ access ∈ sampleAccesses, access.Logs sampleToken := by
  simp only [sampleAccesses, List.forall_mem_cons]
  refine ⟨⟨nofun, rfl⟩, ?_, ?_, ⟨⟨_, rfl, by decide⟩, Or.inl ⟨rfl, nofun⟩⟩, nofun⟩
  · intro endpoint id _ _
    exact nofun
  · intro decoded _
    exact nofun

/-- An access at each service. -/
theorem sample_logged :
    sampleAccesses.length = 4 ∧ ∀ access ∈ sampleAccesses, LogsOnce access.lines sampleToken := by
  refine ⟨rfl, ?_⟩
  intro access hmem
  exact (logsOnce_iff access sampleToken (sampleAccesses_verified access hmem)).mpr
    (sampleAccesses_logs access hmem)

/-- **An order with one more header leaves no line.** -/
theorem order_unlogged :
    sampleBff.getBffSession (orderEvent (some "1")).sessionId = some ⟨none, [], "h.p.s", none, none, 0⟩ ∧
      Frontend.jwtPayload (fun _ => some (.obj sampleToken)) "h.p.s" = .obj sampleToken ∧
      ¬ LogsOnce (Frontend.accessLog (fun _ => some (.obj sampleToken)) sampleBff (orderEvent (some "1"))
        (.responds 201)) sampleToken := by
  refine ⟨rfl, jwtPayload_sample, ?_⟩
  have hprobe : (orderEvent (some "1")).header "x-health-check" = some "1" := rfl
  unfold Frontend.accessLog
  rw [if_pos hprobe]
  exact not_logsOnce_nil

end Audit

end Gekko
