import Mathlib.Algebra.Order.Ring.Rat
import Mathlib.Algebra.Order.Group.Abs
import Mathlib.Data.List.Infix
import Gekko.Lib.Checks
import Gekko.Lib.Search
import Gekko.Dpop.Jose
import Gekko.Employee.Directory

/-!
# `Gekko.Employee.Dpop` — `get_claims` and `validate_dpop` of Employee Service

`get_claims` verifies the token behind either scheme and hands its claims to `validate_dpop`, which checks the
proof of a bound token. Every Python expression that can raise is a step in `Except`: an `HTTPException` with
its status and detail, a `PyJWTError` with its message, or an exception that nothing in the service catches.

`validateDpop_eq_ok_iff` says when `validate_dpop` returns: when it takes the token for unbound, or when the
checks that both services make and those that only Python makes all pass.
-/

namespace Gekko.Employee

open Checks
open Dpop (Jose NonFinite Request Presented Shared parts str? truncate str?_eq_some bind_str?_eq_some)

/-- An exception, by what becomes of it. -/
inductive PyError where
  | http (status : Status) (detail : String)
  | jwt (message : String)
  | attributeError
  | keyError
  | typeError
  | valueError
  | overflowError
  deriving DecidableEq, Repr

/-! ## Python on JSON values -/

/-- `bool(value)`. -/
def truthy : Json → Bool
  | .null => false
  | .bool b => b
  | .num n => n ≠ 0
  | .str s => s ≠ ""
  | .arr elements => !elements.isEmpty
  | .obj members => !members.isEmpty

/-- `name in value`. -/
def contains (name : String) : Json → Except PyError Bool
  | .obj members => .ok (Json.member? name members).isSome
  | .arr elements => .ok (elements.any fun e => str? e == some name)
  | .str s => .ok (decide (name.toList <:+: s.toList))
  | .null | .bool _ | .num _ => .error .typeError

/-- `value[name]`. -/
def index (name : String) : Json → Except PyError Json
  | .obj members => orFail .keyError (Json.member? name members)
  | _ => .error .typeError

/-- `value.get(name)`. -/
def get (name : String) : Json → Except PyError (Option Json)
  | .obj members => .ok (Json.member? name members)
  | _ => .error .attributeError

/-- A number in `time.time() - value`, where `value` is `payload.get("iat", 0)`. -/
def subtrahend : Option Json → Except PyError Rat
  | none => .ok 0
  | some (.num n) => .ok n
  | some (.bool b) => .ok (if b then 1 else 0)
  | some _ => .error .typeError

/-- What no float reaches: an integer from here on, of either sign, is not converted to one. -/
def floatLimit : Rat := 2 ^ 1024 - 2 ^ 970

/-- `isinstance(value, dict)`. -/
def isObject : Json → Bool
  | .obj _ => true
  | _ => false

/-! ## `jwt.decode` -/

variable (J : Jose) (starlette : Starlette) (now : Rat)

/-- The integer that `int(value)` returns. -/
def int? (nonFinite : Option NonFinite) : Json → Option Int
  | .num n => if nonFinite.isNone then some (truncate n) else none
  | .bool b => some (if b then 1 else 0)
  | .str s => J.pyInt s
  | .null | .arr _ | .obj _ => none

/-- `int(value)`, where a `ValueError` is reported with `message`. -/
def toInt (message : String) (nonFinite : Option NonFinite) : Json → Except PyError Int
  | .null | .arr _ | .obj _ => .error .typeError
  | .num n => do
      failOn (if nonFinite = some .infinite then some .overflowError else none)
      orFail (.jwt message) (int? J nonFinite (.num n))
  | v => orFail (.jwt message) (int? J nonFinite v)

/-- The check of a time claim that must not lie in the future. -/
def notInFuture (name notInteger inFuture : String) (payload : Json) (nonFinite : Option NonFinite) :
    Except PyError Unit :=
  match payload.get? name with
  | none => .ok ()
  | some v => do
      let t ← toInt J notInteger nonFinite v
      check ((t : Rat) ≤ now) (.jwt inFuture)

/-- The check of a claim that must be a string. -/
def isString (name message : String) (payload : Json) : Except PyError Unit :=
  check ((payload.get? name).all (fun v => (str? v).isSome)) (.jwt message)

/-- `jwt.decode(proof, public_key, algorithms=["ES256"], options={"verify_exp": False})`, for a public key on
    P-256: the signature, and the claims that PyJWT checks unless told otherwise. -/
def jwtDecode (header payload : Json) (x y : Nat) (headerB64 payloadB64 signatureB64 : String) :
    Except PyError Unit := do
  failOn ((J.pyjwtHeaderError header).map .jwt)
  check ((header.get? "alg").bind str? = some "ES256") (.jwt "The specified alg value is not allowed")
  check (J.verifies "P-256" x y headerB64 payloadB64 signatureB64) (.jwt "Signature verification failed")
  check (isObject payload) (.jwt "Invalid payload string: must be a json object")
  notInFuture J now "iat" "Issued At claim (iat) must be an integer."
    "The token is not yet valid (iat)" payload (J.pyNonFinite payloadB64 "iat")
  notInFuture J now "nbf" "Not Before claim (nbf) must be an integer."
    "The token is not yet valid (nbf)" payload (J.pyNonFinite payloadB64 "nbf")
  check ((payload.get? "aud").all (fun v => !truthy v)) (.jwt "Invalid audience")
  isString "sub" "Subject must be a string" payload
  isString "jti" "JWT ID must be a string" payload

/-! ## `validate_dpop` -/

/-- `json.loads(_b64url_decode(segment))`. The `RecursionError` for a value nested too deep counts as a
`ValueError`. -/
def loads (segment : String) : Except PyError Json :=
  if J.pyReads segment then .ok (J.json segment) else .error .valueError

/-- `int.from_bytes(_b64url_decode(jwk[name]), "big")`. -/
def coordinate (name : String) (jwk : Json) : Except PyError Nat := do
  match ← index name jwk with
  | .str s => if J.pyReadsCoordinate s then .ok (J.coordinate s) else .error .valueError
  | _ => .error .typeError

/-- `_jwk_thumbprint`. -/
def jwkThumbprint (jwk : Json) : Except PyError String := do
  let crv ← index "crv" jwk
  let kty ← index "kty" jwk
  let x ← index "x" jwk
  let y ← index "y" jwk
  return J.thumbprint crv kty x y

/-- `except jwt.PyJWTError as e`. -/
def signatureInvalid : Except PyError Unit → Except PyError Unit
  | .error (.jwt message) => .error (.http 401 ("DPoP proof signature is invalid: " ++ message))
  | result => result

/-- `unquote` of the path, as the ASGI server applies it. -/
def unquote (path : List UInt8) : String := Utf8.decodeLossy (Percent.decodeLenient path)

/-- `str(request.url)`. -/
def requestUrl (r : Request) : String :=
  r.origin ++ starlette.rebuilt (unquote r.path) ++
    match r.query with
    | some query => "?" ++ query
    | none => ""

/-- `str(request.url).split("?")[0]`. -/
def seenUrl (r : Request) : String := String.ofList ((requestUrl starlette r).toList.takeWhile (· ≠ '?'))

/-- The part of `validate_dpop` after the test for a bound token. -/
def checkProof (r : Request) (cnf : Json) (accessToken : String) : Except PyError Unit := do
  let proof ← orFail (.http 401 "DPoP proof is missing for a DPoP-bound token")
    (r.dpop.filter fun proof => proof ≠ "")
  let (headerB64, payloadB64, signatureB64) ← orFail .valueError (parts proof)
  let header ← loads J headerB64
  let payload ← loads J payloadB64
  let typ ← get "typ" header
  check (typ.bind str? = some "dpop+jwt") (.http 401 "DPoP proof has wrong typ header")
  let jwk ← index "jwk" header
  let x ← coordinate J "x" jwk
  let y ← coordinate J "y" jwk
  check (J.onCurve "P-256" x y) .valueError
  signatureInvalid (jwtDecode J now header payload x y headerB64 payloadB64 signatureB64)
  let thumbprint ← jwkThumbprint J jwk
  let jkt ← index "jkt" cnf
  check (str? jkt = some thumbprint) (.http 401 "DPoP proof key does not match the token's cnf.jkt")
  let htm ← get "htm" payload
  check (htm.bind str? = some r.method) (.http 401 "DPoP proof htm does not match the request method")
  let htu ← get "htu" payload
  check (htu.bind str? = some (seenUrl starlette r))
    (.http 401 "DPoP proof htu does not match the request URL")
  let iat ← get "iat" payload
  let iat ← subtrahend iat
  -- The clock is a float, so an integer within a minute of it is in the range of floats.
  check (|now - iat| ≤ 60 ∨ |iat| < floatLimit) .overflowError
  check (|now - iat| ≤ 60) (.http 401 "DPoP proof iat is outside the acceptable window")
  let ath ← get "ath" payload
  check (ath.bind str? = some (J.base64UrlSha256 accessToken))
    (.http 401 "DPoP proof ath does not match the presented access token")

/-- `if not cnf or "jkt" not in cnf`, negated. -/
def isBound (cnf : Json) : Except PyError Bool :=
  if truthy cnf then contains "jkt" cnf else .ok false

/-- `validate_dpop`. -/
def validateDpop (r : Request) (claims : List (String × Json)) (accessToken : String) :
    Except PyError Unit := do
  match Json.member? "cnf" claims with
  | none => .ok ()
  | some cnf =>
      if ← isBound cnf then checkProof J starlette now r cnf accessToken else .ok ()

/-- The scheme and the token of an `Authorization` header: what stands in front of its first space, and after
    it. -/
def partition (authorization : String) : String × String :=
  (String.ofList (authorization.toList.takeWhile (· ≠ ' ')),
    String.ofList ((authorization.toList.dropWhile (· ≠ ' ')).tail))

/-- `get_claims`, for a request with this `Authorization` header; `verify` is `AuthContext.verify`. -/
def getClaims (verify : String → Except PyError (List (String × Json))) (r : Request)
    (authorization : Option String) : Except PyError (List (String × Json)) := do
  let (scheme, token) := partition (authorization.getD "")
  check ((scheme = "Bearer" ∨ scheme = "DPoP") ∧ token ≠ "") (.http 401 "missing bearer token")
  let claims ← match verify token with
    | .error (.jwt message) => .error (.http 401 ("invalid token: " ++ message))
    | result => result
  validateDpop J starlette now r claims token
  return claims

/-! ## The URL that the service sees -/

variable {starlette}

theorem seenUrl_eq {r : Request} (horigin : '?' ∉ r.origin.toList) :
    seenUrl starlette r =
      r.origin ++ String.ofList ((starlette.rebuilt (unquote r.path)).toList.takeWhile (· ≠ '?')) := by
  have hquery : ((starlette.rebuilt (unquote r.path)).toList ++
      (match r.query with | some query => "?" ++ query | none => "").toList).takeWhile (· ≠ '?')
        = (starlette.rebuilt (unquote r.path)).toList.takeWhile (· ≠ '?') := by
    cases r.query with
    | none => rw [String.toList_empty, List.append_nil]
    | some query =>
        rw [String.toList_append]
        exact Search.takeWhile_ne_append_cons _ _
  unfold seenUrl requestUrl
  rw [← String.toList_inj, String.toList_ofList, String.toList_append, String.toList_append,
    String.toList_append, String.toList_ofList, List.append_assoc, Search.takeWhile_ne_append horigin, hquery]

/-- **The service sees the URL as it was sent** exactly when decoding and escaping lead back to the
    path; the authority of a URL has no `?`. -/
theorem seenUrl_eq_url_iff {r : Request} :
    seenUrl starlette r = r.url ↔ '?' ∉ r.origin.toList ∧
      Percent.encode (Requote.keeps starlette.requoted) (Percent.decodeLenient r.path) = r.path := by
  -- The request line was split at its first `?` already.
  have hvisible : ∀ b ∈ r.path, b < 0x80 ∧ b ≠ 0x3F := by
    intro b hb
    obtain ⟨-, -, hne⟩ := r.visible b hb
    exact ⟨r.path_ascii b hb, hne⟩
  have hcut := Requote.cut_requote_iff starlette.quotable hvisible
  have hpath (horigin : '?' ∉ r.origin.toList) : seenUrl starlette r = r.url ↔
      Percent.encode (Requote.keeps starlette.requoted) (Percent.decodeLenient r.path) = r.path := by
    rw [← hcut, seenUrl_eq horigin, Request.url, ← String.toList_inj, String.toList_append,
      String.toList_append, List.append_cancel_left_eq, String.toList_ofList, Dpop.asciiText,
      String.toList_ofList, Starlette.rebuilt, String.toList_ofList]
    rfl
  constructor
  · intro h
    have horigin : '?' ∉ r.origin.toList := by
      intro hmem
      have hurl : '?' ∈ (seenUrl starlette r).toList := by
        rw [h, Request.url, String.toList_append]
        exact List.mem_append_left _ hmem
      rw [seenUrl, String.toList_ofList] at hurl
      have hne := List.mem_takeWhile_imp hurl
      simp at hne
    exact ⟨horigin, (hpath horigin).mp h⟩
  · rintro ⟨horigin, hback⟩
    exact (hpath horigin).mpr hback

/-- Where nothing is escaped again, this is so exactly when the path has no escape. -/
theorem seenUrl_plain_eq_url_iff {r : Request} :
    seenUrl .plain r = r.url ↔ '?' ∉ r.origin.toList ∧ Percent.hasEscape r.path = false := by
  rw [seenUrl_eq_url_iff]
  exact and_congr_right fun _ => Requote.encode_decodeLenient_none_iff

/-- A path without an escape, in which nothing is escaped, is seen as it was sent. -/
theorem seenUrl_eq_url {r : Request} (horigin : '?' ∉ r.origin.toList)
    (hescape : Percent.hasEscape r.path = false)
    (hkept : ∀ b ∈ r.path, Requote.keeps starlette.requoted b = true) : seenUrl starlette r = r.url :=
  seenUrl_eq_url_iff.mpr ⟨horigin, Requote.encode_decodeLenient_of_hasEscape hescape hkept⟩

/-! ## When the steps succeed -/

theorem index_eq_ok {name : String} {v w : Json} : index name v = .ok w ↔ v.get? name = some w := by
  cases v <;> simp [index, Json.get?]

theorem get_eq_ok {name : String} {v : Json} {o : Option Json} :
    get name v = .ok o ↔ (∃ members, v = .obj members) ∧ o = v.get? name := by
  cases v <;> simp [get, Json.get?, eq_comm]

/-- Only an object has members. -/
theorem isObject_of_get? {name : String} {v w : Json} (h : v.get? name = some w) : isObject v = true := by
  cases v with
  | obj members => rfl
  | _ => cases h

/-- `value.get(name)` is the string `s`. -/
theorem get_string {name s : String} {v : Json} :
    (∃ o, get name v = .ok o ∧ o.bind str? = some s) ↔ v.get? name = some (.str s) := by
  constructor
  · rintro ⟨o, ho, hs⟩
    obtain ⟨-, rfl⟩ := get_eq_ok.mp ho
    exact bind_str?_eq_some.mp hs
  · intro h
    cases v with
    | obj members => exact ⟨some (.str s), get_eq_ok.mpr ⟨⟨members, rfl⟩, h.symm⟩, rfl⟩
    | _ => cases h

variable {J now}

theorem toInt_eq_ok {message : String} {nonFinite : Option NonFinite} {v : Json} {t : Int} :
    toInt J message nonFinite v = .ok t ↔ int? J nonFinite v = some t := by
  cases v with
  | num n =>
      simp only [toInt, int?, bind_unit_eq_ok, failOn_eq_ok, orFail_eq_ok]
      cases nonFinite with
      | none => simp
      | some reading => simp
  | _ => simp [toInt, int?]

/-- The value, where there is one, is an integer that does not lie in the future. -/
def NotInFuture (J : Jose) (now : Rat) (nonFinite : Option NonFinite) (v : Option Json) : Prop :=
  ∀ w, v = some w → ∃ t : Int, int? J nonFinite w = some t ∧ (t : Rat) ≤ now

theorem notInFuture_eq_ok {name notInteger inFuture : String} {payload : Json}
    {nonFinite : Option NonFinite} :
    notInFuture J now name notInteger inFuture payload nonFinite = .ok () ↔
      NotInFuture J now nonFinite (payload.get? name) := by
  unfold notInFuture NotInFuture
  cases payload.get? name with
  | none => simp
  | some v => simp [bind_eq_ok, toInt_eq_ok]

/-- What `jwt.decode` asks of a header, a payload and a signature that verifies under the key;
    `nonFinite` is about the numbers of the payload. -/
structure Decodes (J : Jose) (now : Rat) (header payload : Json)
    (nonFinite : String → Option NonFinite) : Prop where
  noError : J.pyjwtHeaderError header = none
  alg : header.get? "alg" = some (.str "ES256")
  object : isObject payload = true
  iat : NotInFuture J now (nonFinite "iat") (payload.get? "iat")
  nbf : NotInFuture J now (nonFinite "nbf") (payload.get? "nbf")
  aud : (payload.get? "aud").all (fun v => !truthy v) = true
  sub : (payload.get? "sub").all (fun v => (str? v).isSome) = true
  jti : (payload.get? "jti").all (fun v => (str? v).isSome) = true

theorem jwtDecode_eq_ok {header payload : Json} {x y : Nat} {headerB64 payloadB64 signatureB64 : String} :
    jwtDecode J now header payload x y headerB64 payloadB64 signatureB64 = .ok () ↔
      J.verifies "P-256" x y headerB64 payloadB64 signatureB64 = true ∧
        Decodes J now header payload (J.pyNonFinite payloadB64) := by
  unfold jwtDecode isString
  simp only [bind_unit_eq_ok, failOn_eq_ok, check_eq_ok, notInFuture_eq_ok, bind_str?_eq_some,
    Option.map_eq_none_iff]
  constructor
  · rintro ⟨hnone, halg, hverifies, hobject, hiat, hnbf, haud, hsub, hjti⟩
    exact ⟨hverifies, hnone, halg, hobject, hiat, hnbf, haud, hsub, hjti⟩
  · rintro ⟨hverifies, hnone, halg, hobject, hiat, hnbf, haud, hsub, hjti⟩
    exact ⟨hnone, halg, hverifies, hobject, hiat, hnbf, haud, hsub, hjti⟩

theorem loads_eq_ok {segment : String} {v : Json} :
    loads J segment = .ok v ↔ J.pyReads segment = true ∧ v = J.json segment := by
  unfold loads
  split
  · rename_i h
    simp [h, eq_comm]
  · rename_i h
    simp [h]

theorem coordinate_eq_ok {name : String} {jwk : Json} {n : Nat} :
    coordinate J name jwk = .ok n ↔
      ∃ s, jwk.get? name = some (.str s) ∧ J.pyReadsCoordinate s = true ∧ n = J.coordinate s := by
  unfold coordinate
  rw [bind_eq_ok]
  constructor
  · rintro ⟨v, hv, hn⟩
    rw [index_eq_ok] at hv
    split at hn
    · rename_i s
      split at hn
      · rename_i hreads
        cases hn
        exact ⟨s, hv, hreads, rfl⟩
      · cases hn
    · cases hn
  · rintro ⟨s, hs, hreads, rfl⟩
    refine ⟨.str s, index_eq_ok.mpr hs, ?_⟩
    simp only [hreads, if_true]

theorem jwkThumbprint_eq_ok {jwk : Json} {t : String} :
    jwkThumbprint J jwk = .ok t ↔ ∃ crv kty x y, jwk.get? "crv" = some crv ∧ jwk.get? "kty" = some kty ∧
      jwk.get? "x" = some x ∧ jwk.get? "y" = some y ∧ t = J.thumbprint crv kty x y := by
  unfold jwkThumbprint
  simp only [bind_eq_ok, index_eq_ok, pure, Except.pure, Except.ok.injEq]
  constructor
  · rintro ⟨crv, hcrv, kty, hkty, x, hx, y, hy, rfl⟩
    exact ⟨crv, kty, x, y, hcrv, hkty, hx, hy, rfl⟩
  · rintro ⟨crv, kty, x, y, hcrv, hkty, hx, hy, rfl⟩
    exact ⟨crv, hcrv, kty, hkty, x, hx, y, hy, rfl⟩

theorem signatureInvalid_eq_ok {result : Except PyError Unit} :
    signatureInvalid result = .ok () ↔ result = .ok () := by
  unfold signatureInvalid
  split
  · simp
  · rfl

/-- What only Employee Service checks of a proof. -/
structure PyOnly (J : Jose) (now : Rat) (q : Presented) : Prop where
  readsHeader : J.pyReads q.header = true
  readsPayload : J.pyReads q.payload = true
  point : ∃ x y, q.x = .str x ∧ q.y = .str y ∧ J.pyReadsCoordinate x = true ∧ J.pyReadsCoordinate y = true ∧
    J.onCurve "P-256" (J.coordinate x) (J.coordinate y) = true ∧
    J.verifies "P-256" (J.coordinate x) (J.coordinate y) q.header q.payload q.signature = true
  decodes : Decodes J now (J.json q.header) (J.json q.payload) (J.pyNonFinite q.payload)
  recent : ∃ iat, subtrahend ((J.json q.payload).get? "iat") = .ok iat ∧ |now - iat| ≤ 60

variable {r : Request} {cnf : Json} {accessToken : String}

theorem present_eq_some {proof : String} :
    (r.dpop.filter fun proof => proof ≠ "") = some proof ↔ r.dpop = some proof ∧ proof ≠ "" := by
  rw [Option.filter_eq_some_iff]
  simp

/-- **When a proof passes**, in terms of the checks that both services make and those that only this one
    makes. -/
theorem checkProof_eq_ok_iff :
    checkProof J starlette now r cnf accessToken = .ok () ↔
      ∃ q jkt, cnf.get? "jkt" = some (.str jkt) ∧ Shared J r (seenUrl starlette r) jkt accessToken q ∧
      PyOnly J now q := by
  constructor
  · intro h
    unfold checkProof at h
    obtain ⟨proof, hproof, h⟩ := bind_eq_ok.mp h
    obtain ⟨⟨headerB64, payloadB64, signatureB64⟩, hparts, h⟩ := bind_eq_ok.mp h
    simp only [bind_eq_ok, check_eq_ok, loads_eq_ok, index_eq_ok, exists_const] at h
    obtain ⟨_, ⟨hheader, rfl⟩, _, ⟨hpayload, rfl⟩, typ, htyp, htypEq, jwk, hjwk, px, hpx, py, hpy, hcurve,
      ⟨⟩, hdecode, t, ht, jkt, hjkt, hjktEq, htm, hhtm, hhtmEq, htu, hhtu, hhtuEq, iat, hiat, n, hn, -,
      hrecent, ath, hath, hathEq⟩ := h
    obtain ⟨crv, kty, x, y, hcrv, hkty, hx, hy, rfl⟩ := jwkThumbprint_eq_ok.mp ht
    obtain ⟨xs, hxs, hxreads, rfl⟩ := coordinate_eq_ok.mp hpx
    obtain ⟨ys, hys, hyreads, rfl⟩ := coordinate_eq_ok.mp hpy
    cases Option.some.inj (hx.symm.trans hxs)
    cases Option.some.inj (hy.symm.trans hys)
    obtain ⟨hverifies, hdecodes⟩ := jwtDecode_eq_ok.mp (signatureInvalid_eq_ok.mp hdecode)
    obtain ⟨-, rfl⟩ := get_eq_ok.mp hiat
    rw [str?_eq_some.mp hjktEq] at hjkt
    refine ⟨⟨headerB64, payloadB64, signatureB64, crv, kty, .str xs, .str ys⟩, _, hjkt, ?_, ?_⟩
    · refine ⟨?_, get_string.mp ⟨typ, htyp, htypEq⟩, ⟨jwk, hjwk, hcrv, hkty, hx, hy⟩, rfl,
        get_string.mp ⟨htm, hhtm, hhtmEq⟩, get_string.mp ⟨htu, hhtu, hhtuEq⟩,
        get_string.mp ⟨ath, hath, hathEq⟩⟩
      rw [(present_eq_some.mp (orFail_eq_ok.mp hproof)).1]
      exact orFail_eq_ok.mp hparts
    · exact ⟨hheader, hpayload, ⟨xs, ys, rfl, rfl, hxreads, hyreads, hcurve, hverifies⟩,
             hdecodes, n, hn, hrecent⟩
  · rintro ⟨q, jkt, hjkt, hshared, hpy⟩
    obtain ⟨proof, hproof, hparts⟩ := Option.bind_eq_some_iff.mp hshared.parts
    obtain ⟨jwk, hjwk, hcrv, hkty, hx, hy⟩ := hshared.key
    obtain ⟨xs, ys, hxs, hys, hxreads, hyreads, hcurve, hverifies⟩ := hpy.point
    obtain ⟨n, hn, hrecent⟩ := hpy.recent
    obtain ⟨typ, htyp, htypEq⟩ := get_string.mpr hshared.typ
    obtain ⟨htm, hhtm, hhtmEq⟩ := get_string.mpr hshared.htm
    obtain ⟨htu, hhtu, hhtuEq⟩ := get_string.mpr hshared.htu
    obtain ⟨ath, hath, hathEq⟩ := get_string.mpr hshared.ath
    have hne : proof ≠ "" := by
      rintro rfl
      rw [Dpop.parts_empty] at hparts
      cases hparts
    have hiat : get "iat" (J.json q.payload) = .ok ((J.json q.payload).get? "iat") :=
      get_eq_ok.mpr ⟨(get_eq_ok.mp hhtm).1, rfl⟩
    have hpx := coordinate_eq_ok.mpr ⟨xs, hxs ▸ hx, hxreads, rfl⟩
    have hpy' := coordinate_eq_ok.mpr ⟨ys, hys ▸ hy, hyreads, rfl⟩
    have ht : jwkThumbprint J jwk = .ok (J.thumbprint q.crv q.kty q.x q.y) :=
      jwkThumbprint_eq_ok.mpr ⟨q.crv, q.kty, q.x, q.y, hcrv, hkty, hx, hy, rfl⟩
    unfold checkProof
    refine bind_eq_ok.mpr ⟨proof, orFail_eq_ok.mpr (present_eq_some.mpr ⟨hproof, hne⟩), ?_⟩
    refine bind_eq_ok.mpr ⟨_, orFail_eq_ok.mpr hparts, ?_⟩
    simp only [bind_eq_ok, check_eq_ok, loads_eq_ok, index_eq_ok, exists_const]
    exact ⟨_, ⟨hpy.readsHeader, rfl⟩, _, ⟨hpy.readsPayload, rfl⟩, typ, htyp, htypEq, jwk, hjwk, _, hpx, _,
      hpy', hcurve, (), signatureInvalid_eq_ok.mpr (jwtDecode_eq_ok.mpr ⟨hverifies, hpy.decodes⟩), _, ht, _,
      hjkt, congrArg some hshared.thumbprint.symm, htm, hhtm, hhtmEq, htu, hhtu, hhtuEq, _, hiat, n, hn,
      Or.inl hrecent, hrecent, ath, hath, hathEq⟩

/-- An object with a member `jkt` binds the token, whatever its value. -/
theorem isBound_of_jkt {jkt : Json} (h : cnf.get? "jkt" = some jkt) : isBound cnf = .ok true := by
  cases cnf with
  | obj members =>
      have hmember : Json.member? "jkt" members = some jkt := h
      have htruthy : truthy (.obj members) = true := by
        cases members with
        | nil => cases hmember
        | cons m rest => rfl
      unfold isBound
      rw [if_pos htruthy, contains, hmember]
      rfl
  | _ => cases h

/-- The token is taken for one that is not bound to a key. -/
def TakenForUnbound (claims : List (String × Json)) : Prop :=
  ∀ cnf, Json.member? "cnf" claims = some cnf → isBound cnf = .ok false

/-- **When `validate_dpop` returns**: the token is taken for unbound, or its proof passes. -/
theorem validateDpop_eq_ok_iff {claims : List (String × Json)} :
    validateDpop J starlette now r claims accessToken = .ok () ↔
      TakenForUnbound claims ∨ ∃ cnf q jkt, Json.member? "cnf" claims = some cnf ∧
        cnf.get? "jkt" = some (.str jkt) ∧ Shared J r (seenUrl starlette r) jkt accessToken q ∧
        PyOnly J now q := by
  unfold validateDpop TakenForUnbound
  cases hcnf : Json.member? "cnf" claims with
  | none => simp
  | some cnf =>
      simp only [bind_eq_ok, Option.some.injEq, forall_eq', exists_and_left, exists_eq_left']
      constructor
      · rintro ⟨bound, hbound, h⟩
        cases bound with
        | false => exact Or.inl hbound
        | true =>
            simp only [if_true] at h
            obtain ⟨q, jkt, hjkt, hshared, hpy⟩ := checkProof_eq_ok_iff.mp h
            exact Or.inr ⟨q, jkt, hjkt, hshared, hpy⟩
      · rintro (hunbound | ⟨q, jkt, hjkt, hshared, hpy⟩)
        · exact ⟨false, hunbound, rfl⟩
        · refine ⟨true, isBound_of_jkt hjkt, ?_⟩
          simp only [if_true]
          exact checkProof_eq_ok_iff.mpr ⟨q, jkt, hjkt, hshared, hpy⟩

theorem getClaims_eq_ok {verify : String → Except PyError (List (String × Json))}
    {authorization : Option String} {claims : List (String × Json)} :
    getClaims J starlette now verify r authorization = .ok claims ↔
      ((partition (authorization.getD "")).1 = "Bearer" ∨ (partition (authorization.getD "")).1 = "DPoP") ∧
        (partition (authorization.getD "")).2 ≠ "" ∧
        verify (partition (authorization.getD "")).2 = .ok claims ∧
          validateDpop J starlette now r claims (partition (authorization.getD "")).2 = .ok () := by
  unfold getClaims
  rcases partition (authorization.getD "") with ⟨scheme, token⟩
  simp only [bind_unit_eq_ok, check_eq_ok, and_assoc]
  refine and_congr_right fun _ => and_congr_right fun _ => ?_
  cases hverify : verify token with
  | error e => cases e <;> simp [bind, Except.bind]
  | ok found =>
      rw [bind_eq_ok]
      constructor
      · rintro ⟨_, hfound, h⟩
        cases Except.ok.inj hfound
        obtain ⟨hdpop, hclaims⟩ := bind_unit_eq_ok.mp h
        cases Except.ok.inj hclaims
        exact ⟨rfl, hdpop⟩
      · rintro ⟨hfound, hdpop⟩
        cases Except.ok.inj hfound
        exact ⟨claims, rfl, bind_unit_eq_ok.mpr ⟨hdpop, rfl⟩⟩

/-- A string `jkt` binds the token to its key, and the proof then decides. -/
theorem validateDpop_of_jkt {claims : List (String × Json)} {jkt : String}
    (hcnf : Json.member? "cnf" claims = some cnf) (hjkt : cnf.get? "jkt" = some (.str jkt)) :
    validateDpop J starlette now r claims accessToken = .ok () ↔
      ∃ q, Shared J r (seenUrl starlette r) jkt accessToken q ∧ PyOnly J now q := by
  rw [validateDpop_eq_ok_iff]
  constructor
  · rintro (hunbound | ⟨cnf', q, jkt', hcnf', hjkt', hshared, hpy⟩)
    · have hfalse := hunbound cnf hcnf
      rw [isBound_of_jkt hjkt] at hfalse
      cases hfalse
    · cases Option.some.inj (hcnf.symm.trans hcnf')
      cases Option.some.inj (hjkt.symm.trans hjkt')
      exact ⟨q, hshared, hpy⟩
  · rintro ⟨q, hshared, hpy⟩
    exact Or.inr ⟨cnf, q, jkt, hcnf, hjkt, hshared, hpy⟩

end Gekko.Employee
