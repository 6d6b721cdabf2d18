import Mathlib.Data.List.Basic
import Gekko.Lib.Json
import Gekko.Lib.Percent
import Gekko.Lib.Utf8

/-!
# `Gekko.Dpop.Jose` — DPoP proofs, the requests that carry them, and the libraries that read them

A DPoP proof is a compact JWS in the `DPoP` header: three base64url segments, separated by dots, which hold a
JSON header, a JSON payload, and a signature over the first two. Employee Service checks it by hand and with
PyJWT, Order Service with Nimbus.

`Jose` holds the functions of these libraries. Where both sides do the same by the same RFC, one field stands
for both; where they differ in what they take, each has its own. What both services check themselves is
`Shared`.
-/

namespace Gekko.Dpop

/-- What Python reads a number as when it is not finite. -/
inductive NonFinite where
  | infinite
  | nan
  deriving DecidableEq, Repr

/-- What the two validators call in their libraries. -/
structure Jose where
  /-- The JSON value that a base64url segment holds, for every reader that takes it. -/
  json : String → Json
  /-- The number of this name in the segment is not finite for Python: it is written as `Infinity` or
      `NaN`, or as a decimal beyond all floats. -/
  pyNonFinite : (segment name : String) → Option NonFinite
  /-- `json.loads(_b64url_decode(segment))` returns. -/
  pyReads : String → Bool
  /-- Nimbus reads the segment as a JSON object. -/
  javaReads : String → Bool
  /-- The number that a base64url coordinate holds. -/
  coordinate : String → Nat
  /-- `_b64url_decode(coordinate)` returns. -/
  pyReadsCoordinate : String → Bool
  /-- The point with these coordinates lies on the named curve. -/
  onCurve : String → Nat → Nat → Bool
  /-- The ECDSA signature over the header and the payload segment verifies under the key. -/
  verifies : (curve : String) → (x y : Nat) → (header payload signature : String) → Bool
  /-- The RFC 7638 thumbprint of the members `crv`, `kty`, `x` and `y`. -/
  thumbprint : (crv kty x y : Json) → String
  base64UrlSha256 : String → String
  /-- `int` of a string. -/
  pyInt : String → Option Int
  /-- What PyJWT has against a header, apart from its `alg`. -/
  pyjwtHeaderError : Json → Option String
  /-- `JWSHeader.parse` returns. -/
  nimbusHeader : Json → Bool
  /-- Nimbus processes all the header members that `crit` lists. -/
  nimbusCrit : Json → Bool
  /-- `JWTClaimsSet.parse` returns, as far as that depends on registered claims other than `iat`. -/
  nimbusClaims : Json → Bool

/-- The three parts of `a.b.c`; `none` for any other number of dots. -/
def parts (proof : String) : Option (String × String × String) :=
  match proof.toList.splitOn '.' with
  | [header, payload, signature] =>
      some (String.ofList header, String.ofList payload, String.ofList signature)
  | _ => none

theorem parts_append {header payload signature : String} (hheader : '.' ∉ header.toList)
    (hpayload : '.' ∉ payload.toList) (hsignature : '.' ∉ signature.toList) :
    parts (header ++ "." ++ payload ++ "." ++ signature) = some (header, payload, signature) := by
  have hjoin : (header ++ "." ++ payload ++ "." ++ signature).toList
      = header.toList ++ '.' :: (payload.toList ++ '.' :: signature.toList) := by
    simp [String.toList_append]
  unfold parts
  rw [hjoin, List.splitOn_append_cons_self_of_not_mem hheader,
    List.splitOn_append_cons_self_of_not_mem hpayload, List.splitOn_eq_singleton hsignature]
  simp only [String.ofList_toList]

/-- A header value of three parts is what they join to. -/
theorem eq_of_parts {proof header payload signature : String}
    (h : parts proof = some (header, payload, signature)) :
    proof = header ++ "." ++ payload ++ "." ++ signature := by
  unfold parts at h
  have hjoin : ['.'].intercalate (proof.toList.splitOn '.') = proof.toList := List.intercalate_splitOn '.'
  split at h
  · rename_i hsplit
    simp only [Option.some.injEq, Prod.mk.injEq] at h
    obtain ⟨rfl, rfl, rfl⟩ := h
    rw [hsplit] at hjoin
    rw [← String.toList_inj, ← hjoin]
    simp [List.intercalate, String.toList_append]
  · cases h

theorem parts_empty : parts "" = none := by decide

/-! ## Requests -/

/-- A request, as far as the validators look at it. -/
structure Request where
  method : String
  /-- The scheme and the authority, as the server puts them in front of the path. -/
  origin : String
  /-- The path as sent: visible characters, up to the query. -/
  path : List UInt8
  visible : ∀ b ∈ path, 0x21 ≤ b ∧ b ≤ 0x7E ∧ b ≠ 0x3F
  query : Option String
  /-- The value of the `DPoP` header. -/
  dpop : Option String

/-- ASCII bytes as text. -/
def asciiText (bs : List UInt8) : String := String.ofList (bs.map fun b => Char.ofNat b.toNat)

theorem encode_asciiText {bs : List UInt8} (h : ∀ b ∈ bs, b < 0x80) : Utf8.encode (asciiText bs) = bs := by
  unfold Utf8.encode asciiText
  rw [String.toList_ofList]
  exact Utf8.flatMap_encodeChar_ascii h

theorem decodeLossy_of_ascii {bs : List UInt8} (h : ∀ b ∈ bs, b < 0x80) :
    Utf8.decodeLossy bs = asciiText bs := Utf8.decodeLossy_ascii h

theorem Request.path_ascii (r : Request) : ∀ b ∈ r.path, b < 0x80 := by
  intro b hb
  obtain ⟨-, hle, -⟩ := r.visible b hb
  exact UInt8.lt_of_le_of_lt hle (by decide)

/-- The query-less URL of a request, with the path as it was sent. -/
def Request.url (r : Request) : String := r.origin ++ asciiText r.path

/-! ## Members of JSON values -/

/-- A string value. -/
def str? : Json → Option String
  | .str s => some s
  | _ => none

theorem str?_eq_some {v : Json} {s : String} : str? v = some s ↔ v = .str s := by
  cases v <;> simp [str?]

theorem bind_str?_eq_some {o : Option Json} {s : String} : o.bind str? = some s ↔ o = some (.str s) := by
  cases o with
  | none => simp
  | some v => simp [str?_eq_some]

/-- `int` of a number: the fraction is cut off. -/
def truncate (n : Rat) : Int := n.num.tdiv n.den

/-! ## What both services check -/

/-- The segments of a proof, and the members of the key in its header. -/
structure Presented where
  header : String
  payload : String
  signature : String
  crv : Json
  kty : Json
  x : Json
  y : Json

/-- The checks that both services make: on the type, on the thumbprint of the key that the header carries, and
    on the claims that tie the proof to a method, a URL and an access token. -/
structure Shared (J : Jose) (r : Request) (url jkt accessToken : String) (q : Presented) : Prop where
  parts : r.dpop.bind parts = some (q.header, q.payload, q.signature)
  typ : (J.json q.header).get? "typ" = some (.str "dpop+jwt")
  key : ∃ jwk, (J.json q.header).get? "jwk" = some jwk ∧ jwk.get? "crv" = some q.crv ∧
    jwk.get? "kty" = some q.kty ∧ jwk.get? "x" = some q.x ∧ jwk.get? "y" = some q.y
  thumbprint : J.thumbprint q.crv q.kty q.x q.y = jkt
  htm : (J.json q.payload).get? "htm" = some (.str r.method)
  htu : (J.json q.payload).get? "htu" = some (.str url)
  ath : (J.json q.payload).get? "ath" = some (.str (J.base64UrlSha256 accessToken))

/-- A header value determines what it presents. -/
theorem Shared.unique {J : Jose} {r : Request} {url url' jkt jkt' token token' : String} {q q' : Presented}
    (h : Shared J r url jkt token q) (h' : Shared J r url' jkt' token' q') : q = q' := by
  obtain ⟨header, payload, signature, crv, kty, x, y⟩ := q
  obtain ⟨header', payload', signature', crv', kty', x', y'⟩ := q'
  have hparts := Option.some.inj (h.parts.symm.trans h'.parts)
  simp only [Prod.mk.injEq] at hparts
  obtain ⟨rfl, rfl, rfl⟩ := hparts
  obtain ⟨jwk, hjwk, hcrv, hkty, hx, hy⟩ := h.key
  obtain ⟨jwk', hjwk', hcrv', hkty', hx', hy'⟩ := h'.key
  cases Option.some.inj (hjwk.symm.trans hjwk')
  cases Option.some.inj (hcrv.symm.trans hcrv')
  cases Option.some.inj (hkty.symm.trans hkty')
  cases Option.some.inj (hx.symm.trans hx')
  cases Option.some.inj (hy.symm.trans hy')
  rfl

end Gekko.Dpop
