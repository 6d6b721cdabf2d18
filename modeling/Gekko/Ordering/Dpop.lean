import Mathlib.Algebra.Order.Ring.Rat
import Mathlib.Tactic.Linarith
import Gekko.Lib.Checks
import Gekko.Dpop.Jose
import Gekko.Ordering.Security

/-!
# `Gekko.Ordering.Dpop` — `DpopValidationFilter` of Order Service

The filter runs behind the decoding of the access token. It lets a request through when its token is not bound
to a key, or when the proof in its `DPoP` header passes; an exception while the proof is checked is caught and
rejects the request, an exception before that leaves the filter.

`doFilter_eq_chain_iff` says when a request is let through, in terms of the checks that both services make and
those that only Java makes.
-/

namespace Gekko.Ordering

open Checks
open Dpop (Jose Request Presented Shared parts str? truncate str?_eq_some bind_str?_eq_some)

/-- How the filter ends. -/
inductive Filtered where
  | chain
  | reject (message : String)
  /-- An exception leaves the filter. -/
  | raised
  deriving DecidableEq, Repr

/-- Why a proof is refused: with a message of its own, or by an exception in the `try` block. -/
inductive Refusal where
  | because (message : String)
  | exception
  deriving DecidableEq, Repr

variable (J : Jose) (now : Rat)

/-- `Number.longValue`, of a number that was read as a `long` or a `double`. -/
def longValue (n : Rat) : Int := max (-(2 ^ 63)) (min (2 ^ 63 - 1) (truncate n))

/-- `new Date(seconds * 1000)`, in seconds. The product is one of `long`s. -/
def dateSeconds (n : Rat) : Rat := (Int.bmod (longValue n * 1000) (2 ^ 64) : Int) / 1000

/-- The issue time that `JWTClaimsSet.parse` takes from `iat`. -/
def issueTime (payload : Json) : Except Refusal (Option Rat) :=
  match payload.get? "iat" with
  | none => .ok none
  | some (.num n) => .ok (some (dateSeconds n))
  | some _ => .error .exception

/-- `getStringClaim`. -/
def stringClaim (name : String) (payload : Json) : Except Refusal (Option String) :=
  match payload.get? name with
  | none | some .null => .ok none
  | some (.str s) => .ok (some s)
  | some _ => .error .exception

/-- The algorithm of an EC key on the named curve. -/
def curveAlgorithm : String → Option String
  | "P-256" => some "ES256"
  | "secp256k1" => some "ES256K"
  | "P-384" => some "ES384"
  | "P-521" => some "ES512"
  | _ => none

/-- `proof.getHeader().getJWK().toECKey()`: the curve and the coordinates of an EC key on its curve. -/
def toECKey (header : Json) : Option (String × String × String) :=
  (header.get? "jwk").bind fun jwk =>
    match jwk.get? "kty", jwk.get? "crv", jwk.get? "x", jwk.get? "y" with
    | some (.str kty), some (.str crv), some (.str x), some (.str y) =>
        if kty = "EC" ∧ J.onCurve crv (J.coordinate x) (J.coordinate y) then some (crv, x, y) else none
    | _, _, _, _ => none

/-- `requestUrl`: the servlet container gives the path as it was sent. -/
def requestUrl (r : Request) : String := r.url

/-- The `try` block of `doFilterInternal`. -/
def checkProof (r : Request) (proofHeader expectedThumbprint tokenValue : String) : Except Refusal Unit := do
  let (headerB64, payloadB64, signatureB64) ← orFail .exception (parts proofHeader)
  let header := J.json headerB64
  check (J.javaReads headerB64 ∧ J.nimbusHeader header) .exception
  let typ ← orFail .exception ((header.get? "typ").bind str?)
  check (typ = "dpop+jwt") (.because "DPoP proof has wrong typ header")
  let (crv, x, y) ← orFail .exception (toECKey J header)
  let alg ← orFail .exception (curveAlgorithm crv)
  check ((header.get? "alg").bind str? = some alg) .exception
  check (J.nimbusCrit header ∧
      J.verifies crv (J.coordinate x) (J.coordinate y) headerB64 payloadB64 signatureB64)
    (.because "DPoP proof signature is invalid")
  check (J.thumbprint (.str crv) (.str "EC") (.str x) (.str y) = expectedThumbprint)
    (.because "DPoP proof key does not match the token's cnf.jkt")
  let payload := J.json payloadB64
  check (J.javaReads payloadB64 ∧ J.nimbusClaims payload) .exception
  let issued ← issueTime payload
  let htm ← stringClaim "htm" payload
  check (htm = some r.method) (.because "DPoP proof htm does not match the request method")
  let htu ← stringClaim "htu" payload
  check (htu = some (requestUrl r)) (.because "DPoP proof htu does not match the request URL")
  let iat ← orFail .exception issued
  check (¬ (iat < now - 60 ∨ now + 60 < iat)) (.because "DPoP proof iat is outside the acceptable window")
  let ath ← stringClaim "ath" payload
  check (ath = some (J.base64UrlSha256 tokenValue))
    (.because "DPoP proof ath does not match the presented access token")

/-- `doFilterInternal`, for a request with a decoded access token. -/
def doFilter (r : Request) (cnf : Option Json) (tokenValue : String) : Filtered :=
  match cnf with
  | none | some .null => .chain
  | some (.obj members) =>
      match Json.member? "jkt" members with
      | none | some .null => .chain
      | some (.str expectedThumbprint) =>
          match r.dpop with
          | none => .reject "DPoP proof is missing for a DPoP-bound token"
          | some proofHeader =>
              match checkProof J now r proofHeader expectedThumbprint tokenValue with
              | .ok () => .chain
              | .error (.because message) => .reject message
              | .error .exception => .reject "DPoP proof could not be validated"
      | some _ => .raised
  | some _ => .raised

/-- `dpopAwareBearerTokenResolver`, for the `Authorization` header. -/
def resolveToken (header : Option String) : Option String :=
  header.bind fun header =>
    ["Bearer ", "DPoP "].findSome? fun scheme =>
      if scheme.toList.isPrefixOf header.toList then
        some (String.ofList (header.toList.drop scheme.toList.length))
      else none

/-- The request reaches a handler behind `anyRequest().authenticated()`; `decode` is the `JwtDecoder`. -/
def reaches (decode : String → Option Jwt) (r : Request) (authorization : Option String) : Bool :=
  match (resolveToken authorization).bind decode with
  | none => false
  | some jwt => doFilter J now r jwt.cnf jwt.tokenValue = .chain

/-! ## When the steps succeed -/

theorem stringClaim_eq_ok {name s : String} {payload : Json} :
    (∃ o, stringClaim name payload = .ok o ∧ o = some s) ↔ payload.get? name = some (.str s) := by
  unfold stringClaim
  split <;> simp_all

variable {J now}

theorem toECKey_eq_some {header : Json} {crv x y : String} :
    toECKey J header = some (crv, x, y) ↔ ∃ jwk, header.get? "jwk" = some jwk ∧
      jwk.get? "kty" = some (.str "EC") ∧ jwk.get? "crv" = some (.str crv) ∧ jwk.get? "x" = some (.str x) ∧
      jwk.get? "y" = some (.str y) ∧ J.onCurve crv (J.coordinate x) (J.coordinate y) = true := by
  unfold toECKey
  constructor
  · intro h
    obtain ⟨jwk, hjwk, h⟩ := Option.bind_eq_some_iff.mp h
    split at h
    · rename_i kty crv' x' y' hkty hcrv hx hy
      split at h
      · rename_i hkey
        obtain ⟨rfl, hcurve⟩ := hkey
        cases h
        exact ⟨jwk, hjwk, hkty, hcrv, hx, hy, hcurve⟩
      · cases h
    · cases h
  · rintro ⟨jwk, hjwk, hkty, hcrv, hx, hy, hcurve⟩
    rw [hjwk, Option.bind_some]
    simp only [hkty, hcrv, hx, hy, hcurve, and_self, if_true]

/-- What only Order Service checks of a proof. -/
structure JavaOnly (J : Jose) (now : Rat) (q : Presented) : Prop where
  readsHeader : J.javaReads q.header = true
  readsPayload : J.javaReads q.payload = true
  header : J.nimbusHeader (J.json q.header) = true
  crit : J.nimbusCrit (J.json q.header) = true
  key : ∃ crv x y alg, q.crv = .str crv ∧ q.kty = .str "EC" ∧ q.x = .str x ∧ q.y = .str y ∧
    curveAlgorithm crv = some alg ∧ (J.json q.header).get? "alg" = some (.str alg) ∧
    J.onCurve crv (J.coordinate x) (J.coordinate y) = true ∧
    J.verifies crv (J.coordinate x) (J.coordinate y) q.header q.payload q.signature = true
  claims : J.nimbusClaims (J.json q.payload) = true
  recent : ∃ n, (J.json q.payload).get? "iat" = some (.num n) ∧ |now - dateSeconds n| ≤ 60

variable {r : Request} {jkt tokenValue : String}

/-- The issue time is in the window of `iat`. -/
theorem window_iff {iat : Rat} : ¬ (iat < now - 60 ∨ now + 60 < iat) ↔ |now - iat| ≤ 60 := by
  rw [abs_le, not_or, not_lt, not_lt]
  constructor
  · rintro ⟨hlo, hhi⟩
    constructor
    · linarith
    · linarith
  · rintro ⟨hlo, hhi⟩
    constructor
    · linarith
    · linarith

theorem issueTime_eq_ok {payload : Json} {iat : Rat} :
    issueTime payload = .ok (some iat) ↔ ∃ n, payload.get? "iat" = some (.num n) ∧ iat = dateSeconds n := by
  unfold issueTime
  split <;> simp_all [eq_comm]

/-- **When a proof passes**, in terms of the checks that both services make and those that only this one
    makes. -/
theorem checkProof_eq_ok_iff {proof : String} (hproof : r.dpop = some proof) :
    checkProof J now r proof jkt tokenValue = .ok () ↔
      ∃ q, Shared J r r.url jkt tokenValue q ∧ JavaOnly J now q := by
  constructor
  · intro h
    unfold checkProof at h
    obtain ⟨⟨headerB64, payloadB64, signatureB64⟩, hparts, h⟩ := bind_eq_ok.mp h
    simp only [bind_eq_ok, check_eq_ok, orFail_eq_ok, exists_const] at h
    obtain ⟨⟨hreads, hheader⟩, typ, htyp, rfl, ⟨crv, x, y⟩, hkey, alg, halg, halgEq, ⟨hcrit, hverifies⟩,
      hthumbprint, ⟨hreadsPayload, hclaims⟩, issued, hissued, htm, hhtm, hhtmEq, htu, hhtu, hhtuEq, iat, rfl,
      hrecent, ath, hath, hathEq⟩ := h
    -- `toECKey` pins the kind of key, so `q` can name `EC`.
    obtain ⟨jwk, hjwk, hkty, hcrv, hx, hy, hcurve⟩ := toECKey_eq_some.mp hkey
    obtain ⟨n, hn, rfl⟩ := issueTime_eq_ok.mp hissued
    refine ⟨⟨headerB64, payloadB64, signatureB64, .str crv, .str "EC", .str x, .str y⟩, ?_, ?_⟩
    · refine ⟨?_, bind_str?_eq_some.mp htyp, ⟨jwk, hjwk, hcrv, hkty, hx, hy⟩, hthumbprint,
        stringClaim_eq_ok.mp ⟨htm, hhtm, hhtmEq⟩, stringClaim_eq_ok.mp ⟨htu, hhtu, hhtuEq⟩,
        stringClaim_eq_ok.mp ⟨ath, hath, hathEq⟩⟩
      rw [hproof]
      exact orFail_eq_ok.mp hparts
    · exact ⟨hreads, hreadsPayload, hheader, hcrit,
        ⟨crv, x, y, alg, rfl, rfl, rfl, rfl, halg, bind_str?_eq_some.mp halgEq, hcurve, hverifies⟩, hclaims,
        n, hn, window_iff.mp hrecent⟩
  · rintro ⟨q, hshared, hjava⟩
    have hparts := hshared.parts
    rw [hproof, Option.bind_some] at hparts
    obtain ⟨jwk, hjwk, hcrv, hkty, hx, hy⟩ := hshared.key
    obtain ⟨crv, x, y, alg, hcrvStr, hktyStr, hxStr, hyStr, halg, halgEq, hcurve, hverifies⟩ := hjava.key
    obtain ⟨n, hn, hrecent⟩ := hjava.recent
    obtain ⟨htm, hhtm, hhtmEq⟩ := stringClaim_eq_ok.mpr hshared.htm
    obtain ⟨htu, hhtu, hhtuEq⟩ := stringClaim_eq_ok.mpr hshared.htu
    obtain ⟨ath, hath, hathEq⟩ := stringClaim_eq_ok.mpr hshared.ath
    -- Shared speaks of the members as JSON, this service reads them as strings.
    have hthumbprint := hshared.thumbprint
    rw [hcrvStr, hktyStr, hxStr, hyStr] at hthumbprint
    have hkey := toECKey_eq_some.mpr
      ⟨jwk, hjwk, hktyStr ▸ hkty, hcrvStr ▸ hcrv, hxStr ▸ hx, hyStr ▸ hy, hcurve⟩
    unfold checkProof
    refine bind_eq_ok.mpr ⟨_, orFail_eq_ok.mpr hparts, ?_⟩
    simp only [bind_eq_ok, check_eq_ok, orFail_eq_ok, exists_const]
    exact ⟨⟨hjava.readsHeader, hjava.header⟩, _, bind_str?_eq_some.mpr hshared.typ, rfl, _, hkey, alg, halg,
      bind_str?_eq_some.mpr halgEq, ⟨hjava.crit, hverifies⟩, hthumbprint,
      ⟨hjava.readsPayload, hjava.claims⟩, _, issueTime_eq_ok.mpr ⟨n, hn, rfl⟩, htm, hhtm, hhtmEq,
      htu, hhtu, hhtuEq, _, rfl, window_iff.mpr hrecent, ath, hath, hathEq⟩

/-- The token is taken for one that is not bound to a key. -/
def TakenForUnbound (cnf : Option Json) : Prop :=
  cnf = none ∨ cnf = some .null ∨ ∃ members, cnf = some (.obj members) ∧
    (Json.member? "jkt" members = none ∨ Json.member? "jkt" members = some .null)

/-- A string `jkt` binds the token to its key, and the filter then goes by the proof. -/
theorem doFilter_of_jkt {members : List (String × Json)}
    (hjkt : Json.member? "jkt" members = some (.str jkt)) :
    doFilter J now r (some (.obj members)) tokenValue = .chain ↔
      ∃ q, Shared J r r.url jkt tokenValue q ∧ JavaOnly J now q := by
  simp only [doFilter, hjkt]
  cases hproof : r.dpop with
  | none =>
      refine iff_of_false (fun h => by cases h) ?_
      rintro ⟨q, hshared, -⟩
      have hparts := hshared.parts
      rw [hproof] at hparts
      cases hparts
  | some proof =>
      rw [← checkProof_eq_ok_iff hproof]
      simp only
      split
      · rename_i hok
        exact iff_of_true rfl hok
      · rename_i message herror
        refine iff_of_false (fun h => by cases h) ?_
        rw [herror]
        exact nofun
      · rename_i herror
        refine iff_of_false (fun h => by cases h) ?_
        rw [herror]
        exact nofun

/-- **When the filter lets a request through**: the token is taken for unbound, or its proof passes. -/
theorem doFilter_eq_chain_iff {cnf : Option Json} :
    doFilter J now r cnf tokenValue = .chain ↔
      TakenForUnbound cnf ∨ ∃ c q jkt, cnf = some c ∧ c.get? "jkt" = some (.str jkt) ∧
        Shared J r r.url jkt tokenValue q ∧ JavaOnly J now q := by
  unfold TakenForUnbound
  cases cnf with
  | none => exact iff_of_true rfl (Or.inl (Or.inl rfl))
  | some c =>
      cases c with
      | null => exact iff_of_true rfl (Or.inl (Or.inr (Or.inl rfl)))
      | obj members =>
          cases hjkt : Json.member? "jkt" members with
          | none =>
              refine iff_of_true ?_ (Or.inl (Or.inr (Or.inr ⟨members, rfl, Or.inl hjkt⟩)))
              simp only [doFilter, hjkt]
          | some jkt =>
              cases jkt with
              | null =>
                  refine iff_of_true ?_ (Or.inl (Or.inr (Or.inr ⟨members, rfl, Or.inr hjkt⟩)))
                  simp only [doFilter, hjkt]
              | str t =>
                  rw [doFilter_of_jkt hjkt]
                  simp [Json.get?, hjkt]
              -- A `jkt` of another type makes the cast raise.
              | _ => simp [doFilter, Json.get?, hjkt]
      | _ => simp [doFilter, Json.get?]

end Gekko.Ordering
