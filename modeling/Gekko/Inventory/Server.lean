import Mathlib.Logic.Function.Basic
import Gekko.Lib.Json
import Gekko.Inventory.Route
import Gekko.Audit.AccessLog


/-! # `Gekko.Inventory.Server` — the handler chain of Inventory Service

`main` puts `accessLogMiddleware` around the router, and the router puts `authMiddleware` around three
of its four handlers. What the inner middleware has found out about the caller reaches the outer one
through two headers of the request, which it sets after the token has been verified. They are headers
that a client can send as well.

`identity_logged_iff` says for which requests the log line is the service's own word.
-/

namespace Gekko.Inventory

open Audit (AccessLog Outcome)

/-! ## Requests -/

/-- `http.Header`: the values under each canonical name. -/
abbrev Header := String → List String

/-- `Header.Get`. -/
def Header.get (header : Header) (name : String) : String := (header name).headD ""

/-- `Header.Set`. -/
def Header.set (header : Header) (name value : String) : Header := Function.update header name [value]

/-- A request that `net/http` hands to the handler. -/
structure Request where
  method : String
  /-- The path as it was sent. -/
  rawPath : List UInt8
  header : Header
  valid : (Percent.decode rawPath).isSome = true

namespace Request

/-- `r.URL.Path`. -/
def path (r : Request) : List UInt8 := (Percent.decode r.rawPath).get r.valid

/-- `r.URL.EscapedPath()`. -/
def escapedPath (r : Request) : List UInt8 :=
  if r.rawPath.all goValidEncoded then r.rawPath else Percent.encode goPathKeep r.path

def setHeader (r : Request) (name value : String) : Request := { r with header := r.header.set name value }

/-- The same request, with what the client sends under the two names. -/
def withIdentity (r : Request) (subjects jtis : List String) : Request :=
  { r with header := Function.update (Function.update r.header "X-Subject" subjects) "X-Jti" jtis }

end Request

/-! ## The router -/

/-- The handlers behind `authMiddleware`. -/
inductive Endpoint where
  | getProduct
  | reserve
  | getWarehouseStock
  deriving DecidableEq, Repr

/-- Where a request leads. -/
inductive Target where
  | health
  | endpoint (endpoint : Endpoint) (id : List UInt8)
  deriving DecidableEq, Repr

/-- `pathUnescape` of `net/http`. -/
def pathUnescape (segment : List UInt8) : List UInt8 := (Percent.decode segment).getD segment

/-- `cleanPath` leaves the segments as they are, and the path does not end in a slash. -/
def isClean (segments : List (List UInt8)) : Bool :=
  segments.all fun segment => segment ≠ [] ∧ segment ≠ [byte '.'] ∧ segment ≠ [byte '.', byte '.']

/-- A single wildcard does not match a slash. -/
def wildcard (segment : List UInt8) : Bool := segment ≠ [byte '/']

/-- The patterns that `main` registers, on the unescaped segments. -/
def matchPattern (method : String) (segments : List (List UInt8)) : Option Target :=
  let isGet := method = "GET" ∨ method = "HEAD"
  match segments with
  | [only] => if isGet ∧ only = Utf8.encode "health" then some .health else none
  | [first, id] =>
      if isGet ∧ wildcard id then
        if first = Utf8.encode "inventory" then some (.endpoint .getProduct id)
        else if first = Utf8.encode "warehouse-stock" then some (.endpoint .getWarehouseStock id)
        else none
      else none
  | [first, id, last] =>
      if method = "POST" ∧ first = Utf8.encode "inventory" ∧ wildcard id ∧ last = Utf8.encode "reserve" then
        some (.endpoint .reserve id)
      else none
  | _ => none

/-- The handler that `ServeMux` finds. -/
def findHandler (method : String) (escapedPath : List UInt8) : Option Target :=
  match escapedPath.splitOn (byte '/') with
  | [] :: segments => if isClean segments then matchPattern method (segments.map pathUnescape) else none
  | _ => none

/-! ## `authMiddleware` -/

/-- The claims of a verified token, `jwt.MapClaims`. -/
abbrev MapClaims := List (String × Json)

/-- `value.(string)`, with the zero value where the assertion fails. -/
def asString : Option Json → String
  | some (.str s) => s
  | _ => ""

def subjectFrom (claims : MapClaims) : String := asString (Json.member? "sub" claims)

def jtiFrom (claims : MapClaims) : String :=
  let jti := asString (Json.member? "jti" claims)
  if jti = "" then "-" else jti

def hasAnyRole (claims : MapClaims) (required : List String) : Bool :=
  match Json.member? "realm_access" claims with
  | some (.obj realmAccess) =>
      match Json.member? "roles" realmAccess with
      | some (.arr roles) => roles.any fun role => required.contains (asString (some role))
      | _ => false
  | _ => false

/-- `requiredRoles` of the registrations in `main`. -/
def Endpoint.requiredRoles : Endpoint → List String
  | .getProduct => ["inventory-reader", "inventory-writer"]
  | .reserve => ["inventory-writer"]
  | .getWarehouseStock => []

/-- The role check of an endpoint. -/
def Endpoint.admits (endpoint : Endpoint) (claims : MapClaims) : Bool :=
  endpoint.requiredRoles.isEmpty || hasAnyRole claims endpoint.requiredRoles

/-- A line on the standard output. -/
inductive Line where
  | accessLog (line : AccessLog)
  | authzDeny (sub jti reason : String) (requiredRoles : List String)

/-- What is left of a request when its handler is through. The headers are those of the request. -/
structure Served where
  header : Header
  outcome : Outcome
  stdout : List Line

/-- The token in the `Authorization` header. -/
def bearerToken (header : Header) : Option String :=
  let authHeader := (header.get "Authorization").toList
  if "Bearer ".toList.isPrefixOf authHeader then some
    (String.ofList (authHeader.drop "Bearer ".length)) else none

/-- The request as the handler gets it. -/
def Request.identified (r : Request) (claims : MapClaims) : Request :=
  (r.setHeader "X-Subject" (subjectFrom claims)).setHeader "X-Jti" (jtiFrom claims)

section Chain

-- `parser.Parse`, for a token that is valid; and the handlers behind the middleware.
variable (verify : String → Option MapClaims) (handlers : Endpoint → List UInt8 → Request → Outcome)

/-- `authMiddleware`, around the handler of an endpoint. -/
def authMiddleware (endpoint : Endpoint) (id : List UInt8) (r : Request) : Served :=
  match bearerToken r.header with
  | none => ⟨r.header, .responds 401, []⟩
  | some rawToken =>
      match verify rawToken with
      | none => ⟨r.header, .responds 401, []⟩
      | some claims =>
          let r := r.identified claims
          if endpoint.admits claims then ⟨r.header, handlers endpoint id r, []⟩
          else
            ⟨r.header, .responds 403,
              [.authzDeny (subjectFrom claims) (jtiFrom claims) "role_missing" endpoint.requiredRoles]⟩

/-- `mux.ServeHTTP`. Without a handler it answers with a redirect, with `405` or with `404`. -/
def mux (refusal : Request → Status) (r : Request) : Served :=
  match findHandler r.method r.escapedPath with
  | some .health => ⟨r.header, .responds 200, []⟩
  | some (.endpoint endpoint id) => authMiddleware verify handlers endpoint id r
  | none => ⟨r.header, .responds (refusal r), []⟩

/-- `accessLogMiddleware`. -/
def accessLogMiddleware (next : Request → Served) (r : Request) : Served :=
  if r.path = Utf8.encode "/health" then next r
  else
    let served := next r
    match served.outcome with
    | .escapes => served
    | .responds status =>
        let line : AccessLog :=
          { method := r.method
            path := Utf8.decodeLossy r.path
            status := status
            sub := .str (served.header.get "X-Subject")
            jti := .str (served.header.get "X-Jti") }
        { served with stdout := served.stdout ++ [.accessLog line] }

/-- The chain that `main` builds. -/
def serve (refusal : Request → Status) (r : Request) : Served :=
  accessLogMiddleware (mux verify handlers refusal) r

end Chain

/-- The lines of type `access_log`. -/
def Served.accessLines (served : Served) : List AccessLog :=
  served.stdout.filterMap fun
    | .accessLog line => some line
    | .authzDeny .. => none

/-- The claims of the bearer token that `authMiddleware` has verified; `none` also where no route asks
for one. -/
def verified (verify : String → Option MapClaims) (r : Request) : Option MapClaims :=
  match findHandler r.method r.escapedPath with
  | some (.endpoint _ _) => (bearerToken r.header).bind verify
  | _ => none

/-- The line names the verified token, or nobody. -/
def Identifies (token : Option MapClaims) (line : AccessLog) : Prop :=
  match token with
  | some claims => line.sub = .str (subjectFrom claims) ∧ line.jti = .str (jtiFrom claims)
  | none => (line.sub = .str "" ∨ line.sub = .str "-") ∧ (line.jti = .str "" ∨ line.jti = .str "-")

/-! ## What is logged -/

/-- The line for a request. -/
def Request.logged (r : Request) (status : Status) (sub jti : String) : AccessLog :=
  ⟨r.method, Utf8.decodeLossy r.path, status, .str sub, .str jti⟩

section Logged

variable {verify : String → Option MapClaims} {handlers : Endpoint → List UInt8 → Request → Outcome}
  {refusal : Request → Status} {r : Request} {claims : MapClaims}

theorem get_set_self (header : Header) (name value : String) : (header.set name value).get name = value := by
  unfold Header.get Header.set
  rw [Function.update_self]
  rfl

theorem get_set_of_ne (header : Header) {name other : String} (value : String) (h : other ≠ name) :
    (header.set name value).get other = header.get other := by
  unfold Header.get Header.set
  rw [Function.update_of_ne h]

@[simp] theorem identified_subject : (r.identified claims).header.get "X-Subject" = subjectFrom claims := by
  unfold Request.identified Request.setHeader
  rw [get_set_of_ne _ _ (by decide), get_set_self]

@[simp] theorem identified_jti : (r.identified claims).header.get "X-Jti" = jtiFrom claims := by
  unfold Request.identified Request.setHeader
  rw [get_set_self]

/-- **Without a verified token** the line shows what the client has sent under the two names. -/
theorem accessLines_of_unverified (handlers : Endpoint → List UInt8 → Request → Outcome)
    (refusal : Request → Status) (hpath : r.path ≠ Utf8.encode "/health") (h : verified verify r = none) :
    ∃ status, (serve verify handlers refusal r).accessLines =
      [r.logged status (r.header.get "X-Subject") (r.header.get "X-Jti")] := by
  unfold serve accessLogMiddleware
  rw [if_neg hpath]
  have hserved : ∃ status, mux verify handlers refusal r = ⟨r.header, .responds status, []⟩ := by
    unfold verified at h
    unfold mux
    cases hfind : findHandler r.method r.escapedPath with
    | none => exact ⟨_, rfl⟩
    | some target =>
        cases target with
        | health => exact ⟨_, rfl⟩
        | endpoint endpoint id =>
            rw [hfind] at h
            simp only [] at h ⊢
            unfold authMiddleware
            cases hbearer : bearerToken r.header with
            | none => exact ⟨_, rfl⟩
            | some rawToken =>
                rw [hbearer, Option.bind_some] at h
                simp only [h]
                exact ⟨_, rfl⟩
  obtain ⟨status, hserved⟩ := hserved
  rw [hserved]
  exact ⟨status, rfl⟩

/-- **With a verified token** the line shows the token, unless the handler leaves none. -/
theorem accessLines_of_verified (handlers : Endpoint → List UInt8 → Request → Outcome)
    (refusal : Request → Status) (hpath : r.path ≠ Utf8.encode "/health")
    (h : verified verify r = some claims) :
    ∃ endpoint id, findHandler r.method r.escapedPath = some (.endpoint endpoint id) ∧
      ((endpoint.admits claims = true ∧ handlers endpoint id (r.identified claims) = .escapes ∧
          (serve verify handlers refusal r).accessLines = []) ∨
        ((endpoint.admits claims = true → handlers endpoint id (r.identified claims) ≠ .escapes) ∧
          ∃ status, (serve verify handlers refusal r).accessLines =
            [r.logged status (subjectFrom claims) (jtiFrom claims)])) := by
  unfold verified at h
  unfold serve accessLogMiddleware mux
  rw [if_neg hpath]
  cases hfind : findHandler r.method r.escapedPath with
  | none =>
      rw [hfind] at h
      cases h
  | some target =>
      cases target with
      | health =>
          rw [hfind] at h
          cases h
      | endpoint endpoint id =>
          rw [hfind] at h
          obtain ⟨rawToken, hbearer, hverify⟩ := Option.bind_eq_some_iff.mp h
          refine ⟨endpoint, id, rfl, ?_⟩
          simp only [authMiddleware, hbearer, hverify]
          cases hadmits : endpoint.admits claims with
          | false =>
              refine Or.inr ⟨nofun, 403, ?_⟩
              simp [Served.accessLines, Request.logged]
          | true =>
              cases houtcome : handlers endpoint id (r.identified claims) with
              | escapes =>
                  refine Or.inl ⟨rfl, rfl, ?_⟩
                  simp [Served.accessLines]
              | responds status =>
                  refine Or.inr ⟨nofun, status, ?_⟩
                  simp [Served.accessLines, Request.logged]

theorem withIdentity_other (subjects jtis : List String) {name : String} (hsubject : name ≠ "X-Subject")
    (hjti : name ≠ "X-Jti") : (r.withIdentity subjects jtis).header.get name = r.header.get name := by
  unfold Request.withIdentity Header.get
  simp only [Function.update_of_ne hsubject, Function.update_of_ne hjti]

theorem withIdentity_subject (subjects jtis : List String) :
    (r.withIdentity subjects jtis).header.get "X-Subject" = subjects.headD "" := by
  have hne : "X-Subject" ≠ "X-Jti" := by decide
  unfold Request.withIdentity Header.get
  simp only [Function.update_of_ne hne, Function.update_self]

theorem verified_withIdentity (subjects jtis : List String) :
    verified verify (r.withIdentity subjects jtis) = verified verify r := by
  have hbearer : bearerToken (r.withIdentity subjects jtis).header = bearerToken r.header := by
    unfold bearerToken
    rw [withIdentity_other subjects jtis (by decide) (by decide)]
  unfold verified
  rw [hbearer]
  rfl

/-- **Whose word the log line is**: the identity in it is independent of what the client sends under the
    two names, and is that of the verified token, exactly when a token has been verified. -/
theorem identity_logged_iff (verify : String → Option MapClaims)
    (handlers : Endpoint → List UInt8 → Request → Outcome) (refusal : Request → Status) (r : Request)
    (hpath : r.path ≠ Utf8.encode "/health") :
    (∀ subjects jtis, ∀ line ∈ (serve verify handlers refusal (r.withIdentity subjects jtis)).accessLines,
      Identifies (verified verify r) line) ↔ (verified verify r).isSome = true := by
  have hpath' : ∀ subjects jtis, (r.withIdentity subjects jtis).path ≠ Utf8.encode "/health" :=
    fun _ _ => hpath
  cases h : verified verify r with
  | none =>
      refine iff_of_false ?_ nofun
      intro hall
      have hnone : verified verify (r.withIdentity ["mallory"] []) = none := by
        rw [verified_withIdentity]
        exact h
      obtain ⟨status, hlines⟩ :=
        accessLines_of_unverified handlers refusal (hpath' ["mallory"] []) hnone
      -- A name of the client's own is neither blank nor a dash.
      obtain ⟨hsub, -⟩ := hall ["mallory"] [] _ (hlines ▸ List.mem_singleton_self _)
      simp [Request.logged, withIdentity_subject] at hsub
  | some claims =>
      refine iff_of_true ?_ rfl
      intro subjects jtis line hline
      have hsome : verified verify (r.withIdentity subjects jtis) = some claims := by
        rw [verified_withIdentity]
        exact h
      obtain ⟨endpoint, id, -, ⟨-, -, hlines⟩ | ⟨-, status, hlines⟩⟩ :=
        accessLines_of_verified handlers refusal (hpath' subjects jtis) hsome
      · rw [hlines] at hline
        exact absurd hline List.not_mem_nil
      · rw [hlines] at hline
        rw [List.mem_singleton.mp hline]
        exact ⟨rfl, rfl⟩

end Logged

/-- A request for a product, with a token. -/
def productRequest : Request where
  method := "GET"
  rawPath := Utf8.encode "/inventory/product-A"
  header := fun name => if name = "Authorization" then ["Bearer h.p.s"] else []
  valid := by decide +kernel

theorem verified_productRequest (claims : MapClaims) :
    verified (fun _ => some claims) productRequest = some claims := by
  have hfind : findHandler productRequest.method productRequest.escapedPath
      = some (.endpoint .getProduct (Utf8.encode "product-A")) := by decide +kernel
  have hbearer : bearerToken productRequest.header = some "h.p.s" := by decide +kernel
  unfold verified
  rw [hfind, hbearer]
  rfl

def productClaims : MapClaims := [("sub", .str "u")]

/-- Its line names the token, whatever else the client sends. -/
theorem productRequest_identified :
    (verified (fun _ => some productClaims) productRequest).isSome = true ∧
      ∀ subjects jtis, ∀ line ∈ (serve (fun _ => some productClaims)
        (fun _ _ _ => .responds 200) (fun _ => 404)
        (productRequest.withIdentity subjects jtis)).accessLines,
        Identifies (verified (fun _ => some productClaims) productRequest) line := by
  have hpath : productRequest.path ≠ Utf8.encode "/health" := by decide +kernel
  rw [identity_logged_iff _ _ _ _ hpath, verified_productRequest, Option.isSome_some, and_self]

/-- A request without a token for a path that the service does not have, with two headers of the
client's own. -/
def framing : Request where
  method := "GET"
  rawPath := Utf8.encode "/nowhere"
  header := Function.update (Function.update (fun _ => []) "X-Subject" ["alice"]) "X-Jti" ["alices-token"]
  valid := by decide +kernel

/-- **A client without a token writes a log line in another user's name.** -/
theorem framing_logged :
    framing.path ≠ Utf8.encode "/health" ∧ verified (fun _ => none) framing = none ∧
      (serve (fun _ => none) (fun _ _ _ => .escapes) (fun _ => 404) framing).accessLines =
        [⟨"GET", "/nowhere", 404, .str "alice", .str "alices-token"⟩] := by
  have hpath : framing.path ≠ Utf8.encode "/health" := by decide +kernel
  have hfind : findHandler framing.method framing.escapedPath = none := by decide +kernel
  have htext : Utf8.decodeLossy framing.path = "/nowhere" := by decide +kernel
  refine ⟨hpath, ?_, ?_⟩
  · unfold verified
    rw [hfind]
  · unfold serve accessLogMiddleware mux
    rw [if_neg hpath, hfind]
    simp only [Served.accessLines, htext]
    rfl

end Gekko.Inventory
