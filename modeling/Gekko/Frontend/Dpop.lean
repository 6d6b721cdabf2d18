import Mathlib.Data.Rat.Floor
import Gekko.Employee.Dpop
import Gekko.Ordering.Dpop


/-! # `Gekko.Frontend.Dpop` — the proofs that the frontend's server creates

`createDPoPProof` signs a header with the public key of the session and a payload with the method, the
URL, the second of the server's clock and, with an access token, its hash. `SignedProof` is what the
JOSE library of the frontend returns for one call: three segments that hold this header and this payload
and a signature over them, in the form that the libraries of both services read.

`validateDpop_signed` and `doFilter_signed` say when such a proof passes the two validators.
-/

namespace Gekko.Frontend

open Dpop (Jose Request Presented Shared parts parts_append truncate)
open Employee (PyOnly NotInFuture Decodes subtrahend validateDpop seenUrl int?)
open Gekko.Ordering (JavaOnly dateSeconds longValue doFilter curveAlgorithm)

/-! ## What is signed -/

/-- The header of a proof under a key on P-256. -/
def proofHeader (x y : String) : Json :=
  .obj [("typ", .str "dpop+jwt"), ("alg", .str "ES256"),
    ("jwk", .obj [("kty", .str "EC"), ("x", .str x), ("y", .str y), ("crv", .str "P-256")])]

/-- The arguments of `createDPoPProof`, and the values of `randomUUID()` and of the clock. -/
structure Creation where
  jti : String
  httpMethod : String
  url : String
  accessToken : Option String
  /-- `Date.now() / 1000`. -/
  now : Rat
  /-- What a `Date` can hold. -/
  range : |now| ≤ 8640000000000

namespace Creation

def iat (c : Creation) : Int := ⌊c.now⌋

/-- The access token, if it is truthy. -/
def boundToken (c : Creation) : Option String := c.accessToken.filter fun token => token ≠ ""

/-- The payload that `createDPoPProof` signs. -/
def payload (base64UrlSha256 : String → String) (c : Creation) : Json :=
  .obj (("jti", .str c.jti) :: ("htm", .str c.httpMethod) :: ("htu", .str c.url) :: ("iat", .num c.iat) ::
    match c.boundToken with
    | some token => [("ath", .str (base64UrlSha256 token))]
    | none => [])

end Creation

/-- A key pair of `generateDPoPKeyPair`, by the coordinates of its public key. -/
structure DPoPKeyPair (J : Jose) where
  x : String
  y : String
  reads : J.pyReadsCoordinate x = true ∧ J.pyReadsCoordinate y = true
  onCurve : J.onCurve "P-256" (J.coordinate x) (J.coordinate y) = true

namespace DPoPKeyPair

variable {J : Jose}

def thumbprint (keyPair : DPoPKeyPair J) : String :=
  J.thumbprint (.str "P-256") (.str "EC") (.str keyPair.x) (.str keyPair.y)

/-- The signature over the two segments verifies under the key. -/
def Verifies (keyPair : DPoPKeyPair J) (header payload signature : String) : Prop :=
  J.verifies "P-256" (J.coordinate keyPair.x) (J.coordinate keyPair.y) header payload signature = true

end DPoPKeyPair

/-- A proof that `createDPoPProof` returns. -/
structure SignedProof (J : Jose) (keyPair : DPoPKeyPair J) (c : Creation) where
  header : String
  payload : String
  signature : String
  dotless : '.' ∉ header.toList ∧ '.' ∉ payload.toList ∧ '.' ∉ signature.toList
  headerJson : J.json header = proofHeader keyPair.x keyPair.y
  payloadJson : J.json payload = c.payload J.base64UrlSha256
  pyReads : J.pyReads header = true ∧ J.pyReads payload = true
  finite : J.pyNonFinite payload "iat" = none
  javaReads : J.javaReads header = true ∧ J.javaReads payload = true
  pyjwt : J.pyjwtHeaderError (proofHeader keyPair.x keyPair.y) = none
  nimbusHeader : J.nimbusHeader (proofHeader keyPair.x keyPair.y) = true
  nimbusCrit : J.nimbusCrit (proofHeader keyPair.x keyPair.y) = true
  nimbusClaims : J.nimbusClaims (c.payload J.base64UrlSha256) = true
  verifies : keyPair.Verifies header payload signature

namespace SignedProof

variable {J : Jose} {keyPair : DPoPKeyPair J} {c : Creation}

/-- The compact form. -/
def text (proof : SignedProof J keyPair c) : String :=
  proof.header ++ "." ++ proof.payload ++ "." ++ proof.signature

theorem parts_text (proof : SignedProof J keyPair c) :
    parts proof.text = some (proof.header, proof.payload, proof.signature) :=
  parts_append proof.dotless.1 proof.dotless.2.1 proof.dotless.2.2

/-- What a request with the proof in its header presents. -/
def presented (proof : SignedProof J keyPair c) : Presented where
  header := proof.header
  payload := proof.payload
  signature := proof.signature
  crv := .str "P-256"
  kty := .str "EC"
  x := .str keyPair.x
  y := .str keyPair.y

end SignedProof

/-! ## What the validators make of it -/

section Validators

variable {J : Jose} {keyPair : DPoPKeyPair J} {c : Creation} {now : Rat}

theorem abs_iat_le (c : Creation) : |c.iat| ≤ 8640000000000 := by
  obtain ⟨hlo, hhi⟩ := abs_le.mp c.range
  rw [abs_le]
  constructor
  · apply Int.le_floor.mpr
    exact_mod_cast hlo
  · have hfloor : (c.iat : Rat) ≤ c.now := Int.floor_le c.now
    exact_mod_cast hfloor.trans hhi

theorem truncate_intCast (n : Int) : truncate n = n := by
  unfold truncate
  simp

/-- A second that a `Date` can hold goes through `long` unchanged. -/
theorem dateSeconds_iat (c : Creation) : dateSeconds c.iat = c.iat := by
  -- The range of `Date` leaves room for the factor of 1000 in 64 bits.
  have hbound := abs_le.mp (abs_iat_le c)
  have hlong : longValue c.iat = c.iat := by
    unfold longValue
    rw [truncate_intCast]
    omega
  have hmod : Int.bmod (c.iat * 1000) (2 ^ 64) = c.iat * 1000 := by
    apply Int.bmod_eq_of_le
    · omega
    · omega
  unfold dateSeconds
  rw [hlong, hmod]
  push_cast
  exact mul_div_cancel_right₀ _ (by norm_num)

/-- A payload has no member but the five that are set. -/
theorem payload_get?_of_not_mem {h : String → String} {name : String}
    (hname : name ∉ ["jti", "htm", "htu", "iat", "ath"]) : (c.payload h).get? name = none := by
  simp only [List.mem_cons, List.not_mem_nil, or_false, not_or] at hname
  obtain ⟨hjti, hhtm, hhtu, hiat, hath⟩ := hname
  unfold Creation.payload
  cases c.boundToken with
  | none => simp [Json.get?, Json.member?, Ne.symm hjti, Ne.symm hhtm, Ne.symm hhtu, Ne.symm hiat]
  | some token =>
      simp [Json.get?, Json.member?, Ne.symm hjti, Ne.symm hhtm, Ne.symm hhtu, Ne.symm hiat, Ne.symm hath]

theorem payload_ath {h : String → String} :
    (c.payload h).get? "ath" = c.boundToken.map fun token => .str (h token) := by
  unfold Creation.payload
  cases c.boundToken <;> rfl

variable (proof : SignedProof J keyPair c)

/-- PyJWT has nothing against it but an issue time in the future. -/
theorem decodes_signed :
    Decodes J now (J.json proof.header) (J.json proof.payload) (J.pyNonFinite proof.payload) ↔
      (c.iat : Rat) ≤ now := by
  rw [proof.headerJson, proof.payloadJson]
  have habsent : ∀ name ∈ ["nbf", "aud", "sub"], (c.payload J.base64UrlSha256).get? name = none := by
    intro name hname
    apply payload_get?_of_not_mem
    revert name
    decide
  have hiat : (c.payload J.base64UrlSha256).get? "iat" = some (.num c.iat) := rfl
  have hint : int? J (J.pyNonFinite proof.payload "iat") (.num c.iat) = some c.iat := by
    rw [proof.finite]
    exact congrArg some (truncate_intCast c.iat)
  constructor
  · intro h
    obtain ⟨t, ht, hle⟩ := h.iat _ hiat
    have heq : c.iat = t := Option.some.inj (hint.symm.trans ht)
    rw [heq]
    exact hle
  · intro h
    constructor
    · exact proof.pyjwt
    · rfl
    · rfl
    · intro w hw
      cases Option.some.inj (hiat.symm.trans hw)
      exact ⟨c.iat, hint, h⟩
    · rw [habsent "nbf" (by simp)]
      exact nofun
    · rw [habsent "aud" (by simp)]
      rfl
    · rw [habsent "sub" (by simp)]
      rfl
    · rfl

theorem pyOnly_signed :
    PyOnly J now proof.presented ↔ (c.iat : Rat) ≤ now ∧ |now - c.iat| ≤ 60 := by
  have hiat : subtrahend ((J.json proof.payload).get? "iat") = .ok (c.iat : Rat) := by
    rw [proof.payloadJson]
    rfl
  constructor
  · intro h
    obtain ⟨n, hn, hrecent⟩ := h.recent
    cases Except.ok.inj (hiat.symm.trans hn)
    exact ⟨(decodes_signed proof).mp h.decodes, hrecent⟩
  · rintro ⟨hle, hrecent⟩
    constructor
    · exact proof.pyReads.1
    · exact proof.pyReads.2
    · exact ⟨_, _, rfl, rfl, keyPair.reads.1, keyPair.reads.2, keyPair.onCurve, proof.verifies⟩
    · exact (decodes_signed proof).mpr hle
    · exact ⟨_, hiat, hrecent⟩

theorem javaOnly_signed : JavaOnly J now proof.presented ↔ |now - c.iat| ≤ 60 := by
  have hiat : (J.json proof.payload).get? "iat" = some (.num c.iat) := by
    rw [proof.payloadJson]
    rfl
  constructor
  · intro h
    obtain ⟨n, hn, hrecent⟩ := h.recent
    cases Option.some.inj (hiat.symm.trans hn)
    rw [dateSeconds_iat] at hrecent
    exact hrecent
  · intro hrecent
    constructor
    · exact proof.javaReads.1
    · exact proof.javaReads.2
    · show J.nimbusHeader (J.json proof.header) = true
      rw [proof.headerJson]
      exact proof.nimbusHeader
    · show J.nimbusCrit (J.json proof.header) = true
      rw [proof.headerJson]
      exact proof.nimbusCrit
    · refine ⟨"P-256", _, _, "ES256", rfl, rfl, rfl, rfl, rfl, ?_, keyPair.onCurve, proof.verifies⟩
      show (J.json proof.header).get? "alg" = _
      rw [proof.headerJson]
      rfl
    · show J.nimbusClaims (J.json proof.payload) = true
      rw [proof.payloadJson]
      exact proof.nimbusClaims
    · refine ⟨_, hiat, ?_⟩
      rw [dateSeconds_iat]
      exact hrecent

/-- What both validators check of a request that carries the proof. -/
theorem shared_signed {r : Request} {url jkt accessToken : String} {q : Presented}
    (hr : r.dpop = some proof.text) :
    Shared J r url jkt accessToken q ↔ q = proof.presented ∧ keyPair.thumbprint = jkt ∧
      c.httpMethod = r.method ∧ c.url = url ∧
      ∃ token, c.boundToken = some token ∧ J.base64UrlSha256 token = J.base64UrlSha256 accessToken := by
  have hparts : r.dpop.bind parts = some (proof.header, proof.payload, proof.signature) := by
    rw [hr]
    exact proof.parts_text
  constructor
  -- The `DPoP` header is this proof, so its segments and the key in the first of them are those of `q`.
  · intro h
    have hq : q = proof.presented := by
      obtain ⟨header, payload, signature, crv, kty, x, y⟩ := q
      have hsame := Option.some.inj (hparts.symm.trans h.parts)
      simp only [Prod.mk.injEq] at hsame
      obtain ⟨rfl, rfl, rfl⟩ := hsame
      obtain ⟨jwk, hjwk, hcrv, hkty, hx, hy⟩ := h.key
      simp only [proof.headerJson] at hjwk
      cases hjwk
      cases hcrv
      cases hkty
      cases hx
      cases hy
      rfl
    subst hq
    have hhtm := h.htm
    have hhtu := h.htu
    have hath := h.ath
    simp only [SignedProof.presented, proof.payloadJson] at hhtm hhtu hath
    have hmethod : c.httpMethod = r.method := Json.str.inj (Option.some.inj hhtm)
    have hurl : c.url = url := Json.str.inj (Option.some.inj hhtu)
    rw [payload_ath] at hath
    obtain ⟨token, htoken, hhash⟩ := Option.map_eq_some_iff.mp hath
    exact ⟨rfl, h.thumbprint, hmethod, hurl, token, htoken, Json.str.inj hhash⟩
  · rintro ⟨rfl, rfl, hmethod, rfl, token, htoken, hhash⟩
    constructor
    · exact hparts
    · simp only [SignedProof.presented, proof.headerJson]
      rfl
    · simp only [SignedProof.presented, proof.headerJson]
      exact ⟨_, rfl, rfl, rfl, rfl, rfl⟩
    · rfl
    · simp only [SignedProof.presented, proof.payloadJson, ← hmethod]
      rfl
    · simp only [SignedProof.presented, proof.payloadJson]
      rfl
    · simp only [SignedProof.presented, proof.payloadJson, payload_ath, htoken, Option.map_some, hhash]

variable {starlette : Employee.Starlette} {r : Request} {jkt accessToken : String}

/-- The proof ties the request to the URL, the method, the key and the token that it was made for. -/
def Fits (keyPair : DPoPKeyPair J) (c : Creation) (r : Request) (url jkt accessToken : String) : Prop :=
  keyPair.thumbprint = jkt ∧ c.httpMethod = r.method ∧ c.url = url ∧
    ∃ token, c.boundToken = some token ∧ J.base64UrlSha256 token = J.base64UrlSha256 accessToken

/-- **When such a proof passes Employee Service**: it fits the URL that the service sees, and it was
    made in the last minute. -/
theorem validateDpop_signed {claims : List (String × Json)} {cnf : Json} (hr : r.dpop = some proof.text)
    (hcnf : Json.member? "cnf" claims = some cnf) (hjkt : cnf.get? "jkt" = some (.str jkt)) :
    validateDpop J starlette now r claims accessToken = .ok () ↔
      Fits keyPair c r (seenUrl starlette r) jkt accessToken ∧ (c.iat : Rat) ≤ now ∧ |now - c.iat| ≤ 60 := by
  rw [Employee.validateDpop_of_jkt hcnf hjkt, ← pyOnly_signed proof]
  constructor
  · rintro ⟨q, hshared, hpy⟩
    obtain ⟨rfl, hfits⟩ := (shared_signed proof hr).mp hshared
    exact ⟨hfits, hpy⟩
  · rintro ⟨hfits, hpy⟩
    exact ⟨_, (shared_signed proof hr).mpr ⟨rfl, hfits⟩, hpy⟩

/-- **When such a proof passes Order Service**: it fits the URL as it was sent, and it was made within a
    minute of now. -/
theorem doFilter_signed {members : List (String × Json)} (hr : r.dpop = some proof.text)
    (hjkt : Json.member? "jkt" members = some (.str jkt)) :
    doFilter J now r (some (.obj members)) accessToken = .chain ↔
      Fits keyPair c r r.url jkt accessToken ∧ |now - c.iat| ≤ 60 := by
  rw [Gekko.Ordering.doFilter_of_jkt hjkt, ← javaOnly_signed proof]
  constructor
  · rintro ⟨q, hshared, hjava⟩
    obtain ⟨rfl, hfits⟩ := (shared_signed proof hr).mp hshared
    exact ⟨hfits, hjava⟩
  · rintro ⟨hfits, hjava⟩
    exact ⟨_, (shared_signed proof hr).mpr ⟨rfl, hfits⟩, hjava⟩

end Validators

/-! ## A session -/

/-- The number that a base64url text without padding holds. -/
def base64UrlNat (s : String) : Nat :=
  let digit (c : Char) : Nat :=
    if c.isUpper then c.toNat - 65 else if c.isLower then c.toNat - 71 else if c.isDigit then c.toNat + 4
    else if c = '-' then 62 else 63
  s.toList.foldl (fun n c => 64 * n + digit c) 0 / 2 ^ (6 * s.length % 8)

/-- The point lies on P-256. -/
def onP256 (x y : Nat) : Bool :=
  let p := 2 ^ 256 - 2 ^ 224 + 2 ^ 192 + 2 ^ 96 - 1
  let b := 0x5ac635d8aa3a93e7b3ebbd55769886bc651d06b0cc53b0f63bce3c3e27d2604b
  x < p && y < p && y ^ 2 % p == (x ^ 3 + (p - 3) * x + b) % p

def sampleX : String := "QACe7o5YLUq_1nrooBIFBWtQJLRPnwbH0cXpF8slcuE"

def sampleY : String := "LasPD-H0bGFqa3vN7JsIhQVBAYY3h6A8UH6tlMwJXnY"

def sampleThumbprint : String := "P6rf7k8gIv3DWkJVSN1axx44c6XnpzttuGJAG9lZBlc"

def sampleToken : String := "eyJhbGciOiJSUzI1NiJ9.eyJzdWIiOiJhbGljZSJ9.c2ln"

def sampleHash : String := "xuozECiEq7kroyg6Dx4wy_00rcvnZDA-vCDshxD8qK4"

/-- The second in which the sample proofs are made. -/
def sampleNow : Rat := 1700000000

def sampleHeader : String :=
  "eyJ0eXAiOiJkcG9wK2p3dCIsImFsZyI6IkVTMjU2IiwiandrIjp7Imt0eSI6IkVDIiwieCI6IlFBQ2U3bzVZTFVxXzFucm9vQklG" ++
  "Qld0UUpMUlBud2JIMGNYcEY4c2xjdUUiLCJ5IjoiTGFzUEQtSDBiR0ZxYTN2TjdKc0loUVZCQVlZM2g2QThVSDZ0bE13SlhuWSIs" ++
  "ImNydiI6IlAtMjU2In19"

theorem sampleNow_range : |sampleNow| ≤ 8640000000000 := by norm_num [sampleNow]

/-- A call of `createDPoPProof` with the sample token. -/
def sampleCreation (jti url : String) : Creation where
  jti := jti
  httpMethod := "GET"
  url := url
  accessToken := some sampleToken
  now := sampleNow
  range := sampleNow_range

/-- The proof for looking up the employee `alice`. -/
def forAlice : Creation :=
  sampleCreation "4f3f8b1e-5c0d-4a57-9a3e-2f8f1c6f7d01" "http://localhost:8084/employees/alice"

/-- The proof for looking up the stock of `p1`. -/
def forStock : Creation :=
  sampleCreation "4f3f8b1e-5c0d-4a57-9a3e-2f8f1c6f7d02" "http://localhost:8081/warehouse-stock/p1"

/-- The proof for looking up `alice` with her first letter escaped. -/
def forEscapedAlice : Creation :=
  sampleCreation "4f3f8b1e-5c0d-4a57-9a3e-2f8f1c6f7d03" "http://localhost:8084/employees/%61lice"

/-- The sample proofs: what was signed, and the payload and the signature segment. -/
def sampleProofs : List (Creation × String × String) :=
  [(forAlice,
    "eyJqdGkiOiI0ZjNmOGIxZS01YzBkLTRhNTctOWEzZS0yZjhmMWM2ZjdkMDEiLCJodG0iOiJHRVQiLCJodHUiOiJodHRwOi8vbG9j" ++
    "YWxob3N0OjgwODQvZW1wbG95ZWVzL2FsaWNlIiwiaWF0IjoxNzAwMDAwMDAwLCJhdGgiOiJ4dW96RUNpRXE3a3JveWc2RHg0d3lf" ++
    "MDByY3ZuWkRBLXZDRHNoeEQ4cUs0In0",
    "HmODz0WR1QLvbx0OB8vDy6q8GhPCVDUmZXMREUWjQoUr77Rs_3os8JH7lVdnLj8sBX4YCdvad6haA1qFYrQCAw"),
  (forStock,
    "eyJqdGkiOiI0ZjNmOGIxZS01YzBkLTRhNTctOWEzZS0yZjhmMWM2ZjdkMDIiLCJodG0iOiJHRVQiLCJodHUiOiJodHRwOi8vbG9j" ++
    "YWxob3N0OjgwODEvd2FyZWhvdXNlLXN0b2NrL3AxIiwiaWF0IjoxNzAwMDAwMDAwLCJhdGgiOiJ4dW96RUNpRXE3a3JveWc2RHg0" ++
    "d3lfMDByY3ZuWkRBLXZDRHNoeEQ4cUs0In0",
    "yNNpE2kMcPjFHxk6aZn5-ugs1J5j68GkMzqzA9epc2NqeLq2LTnm9HdqEmX32PIt4fzetXnywkIwacZgwObB6A"),
  (forEscapedAlice,
    "eyJqdGkiOiI0ZjNmOGIxZS01YzBkLTRhNTctOWEzZS0yZjhmMWM2ZjdkMDMiLCJodG0iOiJHRVQiLCJodHUiOiJodHRwOi8vbG9j" ++
    "YWxob3N0OjgwODQvZW1wbG95ZWVzLyU2MWxpY2UiLCJpYXQiOjE3MDAwMDAwMDAsImF0aCI6Inh1b3pFQ2lFcTdrcm95ZzZEeDR3" ++
    "eV8wMHJjdm5aREEtdkNEc2h4RDhxSzQifQ",
    "GwV1tSFdVYgCYXOt0YZfip6UG8bKA4-Gmj4J3zX7nSrKpjwWWAtSkItW27qlBj2jIwKQ6EGKcSfx82zxJPuNgw")]

instance : NeZero sampleProofs.length := ⟨by decide⟩

def sampleHashes (s : String) : String := if s = sampleToken then sampleHash else ""

/-- The segments that hold the header or the payload of a sample proof. -/
def sampleReads (s : String) : Bool := s = sampleHeader || sampleProofs.any fun e => e.2.1 = s

/-- The libraries on the sample session: they know its key, its token and its proofs, and take nothing
else. -/
def sampleJose : Jose where
  json s :=
    if s = sampleHeader then proofHeader sampleX sampleY
    else
      match sampleProofs.find? fun e => e.2.1 = s with
      | some e => e.1.payload sampleHashes
      | none => .null
  pyNonFinite _ _ := none
  pyReads := sampleReads
  javaReads := sampleReads
  coordinate := base64UrlNat
  pyReadsCoordinate s := s = sampleX || s = sampleY
  onCurve curve x y := curve = "P-256" && onP256 x y
  verifies curve x y header payload signature :=
    curve = "P-256" && x = base64UrlNat sampleX && y = base64UrlNat sampleY && header = sampleHeader &&
      sampleProofs.any fun e => e.2.1 = payload && e.2.2 = signature
  thumbprint crv kty x y :=
    match crv, kty, x, y with
    | .str crv, .str kty, .str x, .str y =>
        if crv = "P-256" ∧ kty = "EC" ∧ x = sampleX ∧ y = sampleY then sampleThumbprint else ""
    | _, _, _, _ => ""
  base64UrlSha256 := sampleHashes
  pyInt _ := none
  pyjwtHeaderError _ := none
  nimbusHeader _ := true
  nimbusCrit _ := true
  nimbusClaims _ := true

def sampleKeyPair : DPoPKeyPair sampleJose where
  x := sampleX
  y := sampleY
  reads := by decide +kernel
  onCurve := by decide +kernel

theorem find_sampleProof (i : Fin sampleProofs.length) :
    (sampleProofs.find? fun e => e.2.1 = (sampleProofs.get i).2.1) = some (sampleProofs.get i) := by
  refine List.find?_eq_some_iff_append.mpr
    ⟨by simp, sampleProofs.take i, sampleProofs.drop (i + 1), ?_, ?_⟩
  · rw [List.get_eq_getElem, List.getElem_cons_drop i.isLt, List.take_append_drop]
  · -- No two of the payloads are the same.
    revert i
    decide +kernel

theorem json_sampleHeader : sampleJose.json sampleHeader = proofHeader sampleX sampleY := by
  simp only [sampleJose, if_true]

theorem json_sampleProof (i : Fin sampleProofs.length) :
    sampleJose.json (sampleProofs.get i).2.1 = (sampleProofs.get i).1.payload sampleHashes := by
  have hne : (sampleProofs.get i).2.1 ≠ sampleHeader := by
    revert i
    decide +kernel
  simp only [sampleJose, if_neg hne, find_sampleProof i]

theorem any_sampleProof {p : Creation × String × String → Bool} (i : Fin sampleProofs.length)
    (hp : p (sampleProofs.get i) = true) : sampleProofs.any p = true :=
  List.any_eq_true.mpr ⟨_, List.get_mem sampleProofs i, hp⟩

theorem reads_sampleProof (i : Fin sampleProofs.length) :
    sampleReads sampleHeader = true ∧ sampleReads (sampleProofs.get i).2.1 = true := by
  unfold sampleReads
  rw [Bool.or_eq_true, Bool.or_eq_true]
  exact ⟨Or.inl (decide_eq_true rfl), Or.inr (any_sampleProof i (decide_eq_true rfl))⟩

theorem verifies_sampleProof (i : Fin sampleProofs.length) :
    sampleKeyPair.Verifies sampleHeader (sampleProofs.get i).2.1 (sampleProofs.get i).2.2 := by
  simp only [DPoPKeyPair.Verifies, sampleJose, sampleKeyPair, decide_true, Bool.true_and]
  exact any_sampleProof i (by simp)

/-- The characters of a text, read off its literal. -/
theorem dotless_of_eq {s : String} {l : List Char} (h : s = String.ofList l) (hl : '.' ∉ l) :
    '.' ∉ s.toList := by
  rwa [h, String.toList_ofList]

theorem dotless_append {s t : String} (hs : '.' ∉ s.toList) (ht : '.' ∉ t.toList) :
    '.' ∉ (s ++ t).toList := by
  rw [String.toList_append, List.mem_append, not_or]
  exact ⟨hs, ht⟩

theorem dotless_sampleHeader : '.' ∉ sampleHeader.toList := by
  refine dotless_append (dotless_append ?_ ?_) ?_
  all_goals
    apply dotless_of_eq rfl
    decide +kernel

theorem dotless_sampleProofs : ∀ e ∈ sampleProofs, '.' ∉ e.2.1.toList ∧ '.' ∉ e.2.2.toList := by
  simp only [sampleProofs, List.forall_mem_cons]
  refine ⟨⟨dotless_append (dotless_append ?_ ?_) ?_, ?_⟩, ⟨dotless_append (dotless_append ?_ ?_) ?_, ?_⟩,
    ⟨dotless_append (dotless_append ?_ ?_) ?_, ?_⟩, nofun⟩
  all_goals
    apply dotless_of_eq rfl
    decide +kernel

theorem pyReads_sampleProof (i : Fin sampleProofs.length) :
    sampleJose.pyReads sampleHeader = true ∧ sampleJose.pyReads (sampleProofs.get i).2.1 = true := by
  simp only [sampleJose]
  exact reads_sampleProof i

theorem javaReads_sampleProof (i : Fin sampleProofs.length) :
    sampleJose.javaReads sampleHeader = true ∧ sampleJose.javaReads (sampleProofs.get i).2.1 = true := by
  simp only [sampleJose]
  exact reads_sampleProof i

/-- The `i`-th sample proof. -/
def sampleProof (i : Fin sampleProofs.length) :
    SignedProof sampleJose sampleKeyPair (sampleProofs.get i).1 where
  header := sampleHeader
  payload := (sampleProofs.get i).2.1
  signature := (sampleProofs.get i).2.2
  dotless := ⟨dotless_sampleHeader, dotless_sampleProofs _ (List.get_mem sampleProofs i)⟩
  headerJson := json_sampleHeader
  payloadJson := json_sampleProof i
  pyReads := pyReads_sampleProof i
  finite := rfl
  javaReads := javaReads_sampleProof i
  pyjwt := rfl
  nimbusHeader := rfl
  nimbusCrit := rfl
  nimbusClaims := rfl
  verifies := verifies_sampleProof i

/-- A `GET` with the `i`-th sample proof. -/
def sampleRequest (i : Fin sampleProofs.length) (origin : String) (path : List UInt8)
    (visible : ∀ b ∈ path, 0x21 ≤ b ∧ b ≤ 0x7E ∧ b ≠ 0x3F) : Request where
  method := "GET"
  origin := origin
  path := path
  visible := visible
  query := none
  dpop := some (sampleProof i).text

/-- The lookup of `alice`. -/
def aliceRequest : Request :=
  sampleRequest 0 "http://localhost:8084" (Utf8.encode "/employees/alice") (by decide +kernel)

/-- The confirmation that binds a token to the sample key. -/
def sampleCnf : List (String × Json) := [("jkt", .str sampleThumbprint)]

def sampleClaims : List (String × Json) := [("cnf", .obj sampleCnf)]

theorem thumbprint_sampleKeyPair : sampleKeyPair.thumbprint = sampleThumbprint := by
  simp [DPoPKeyPair.thumbprint, sampleJose, sampleKeyPair]

theorem sampleProofs_creation (i : Fin sampleProofs.length) :
    (sampleProofs.get i).1.httpMethod = "GET" ∧ (sampleProofs.get i).1.boundToken = some sampleToken ∧
      (sampleProofs.get i).1.now = sampleNow := by
  have hcreation : ∀ e ∈ sampleProofs, ∃ jti url, e.1 = sampleCreation jti url := by
    simp only [sampleProofs, List.forall_mem_cons]
    exact ⟨⟨_, _, rfl⟩, ⟨_, _, rfl⟩, ⟨_, _, rfl⟩, nofun⟩
  obtain ⟨jti, url, hget⟩ := hcreation _ (List.get_mem sampleProofs i)
  rw [hget]
  refine ⟨rfl, ?_, rfl⟩
  unfold Creation.boundToken sampleCreation
  rw [Option.filter_some, if_pos (by decide +kernel)]

theorem iat_sampleProof (i : Fin sampleProofs.length) : ((sampleProofs.get i).1.iat : Rat) = sampleNow := by
  obtain ⟨-, -, hnow⟩ := sampleProofs_creation i
  unfold Creation.iat
  rw [hnow]
  norm_num [sampleNow]

/-- A sample proof fits a request for its own URL. -/
theorem fits_sample (i : Fin sampleProofs.length) {r : Request} {url : String} (hmethod : r.method = "GET")
    (hurl : (sampleProofs.get i).1.url = url) :
    Fits sampleKeyPair (sampleProofs.get i).1 r url sampleThumbprint sampleToken := by
  obtain ⟨hget, htoken, -⟩ := sampleProofs_creation i
  exact ⟨thumbprint_sampleKeyPair, hget.trans hmethod.symm, hurl, sampleToken, htoken, rfl⟩

end Gekko.Frontend
