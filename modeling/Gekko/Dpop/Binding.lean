import Gekko.Frontend.Dpop


/-! # `Gekko.Dpop.Binding` — a bound token is of no use without its key

The holder of a key has signed some proofs. Somebody without the key sends a request with the bound
token; what they can put into the `DPoP` header is anything, except a signature under the key over
segments that the holder never signed (`Assembled`).

`Guarded` says that such a request reaches a handler only with a proof that the holder made for this
method, this URL and this token in the last minute. Order Service guards every request. Employee Service
compares the proof's URL with one that it puts together from the percent-decoded path and cuts at the
first `?`, so it guards a request for an employee exactly when this leads back to the path that was sent
(`guarded_iff`).
-/

namespace Gekko.Dpop

open Employee (PyError Starlette seenUrl partition getClaims unquote matchEmployee)
open Gekko.Ordering (Jwt resolveToken)
open Frontend

variable {J : Jose} (keyPair : DPoPKeyPair J)

/-- A proof that the holder of the key has signed. -/
abbrev Own := (c : Creation) × SignedProof J keyPair c

/-- What can be put into the header without the private key: a signature that verifies under the key stands
    over the segments of one of the holder's proofs. -/
def Assembled (own : List (Own keyPair)) (dpop : Option String) : Prop :=
  ∀ header payload signature, dpop.bind parts = some (header, payload, signature) →
    keyPair.Verifies header payload signature → ∃ p ∈ own, p.2.header = header ∧ p.2.payload = payload

/-- The header of the request is the holder's proof `p`, made for this request. -/
structure OwnProofFor (own : List (Own keyPair)) (now : Rat) (accessToken : String) (r : Request)
    (p : Own keyPair) : Prop where
  mem : p ∈ own
  segments : ∃ signature, r.dpop.bind parts = some (p.2.header, p.2.payload, signature)
  /-- It is the same text, unless a second signature over the same segments verifies. -/
  text : (∀ signature, keyPair.Verifies p.2.header p.2.payload signature → signature = p.2.signature) →
    r.dpop = some p.2.text
  method : p.1.httpMethod = r.method
  url : p.1.url = r.url
  token : p.1.boundToken = some accessToken
  recent : |now - p.1.iat| ≤ 60

/-- Whatever the holder has signed and whatever is put into its `DPoP` header, the request reaches the handler
    only with a proof that the holder made for it. -/
def Guarded (reaches : Request → Prop) (now : Rat) (accessToken : String) (r : Request) : Prop :=
  ∀ own dpop, Assembled keyPair own dpop → reaches { r with dpop := dpop } →
    ∃ p, OwnProofFor keyPair own now accessToken { r with dpop := dpop } p

/-- Nothing else has the thumbprint of the key, and no other text the hash of the token. -/
structure CollisionFree (accessToken : String) : Prop where
  thumbprint : ∀ crv kty x y, J.thumbprint crv kty x y = keyPair.thumbprint →
    crv = .str "P-256" ∧ kty = .str "EC" ∧ x = .str keyPair.x ∧ y = .str keyPair.y
  hash : ∀ s, J.base64UrlSha256 s = J.base64UrlSha256 accessToken → s = accessToken

/-! ## The two services -/

section Services

variable (starlette : Starlette) (now : Rat) (accessToken : String)

section Reaches

variable (J)

/-- With the token behind either scheme, the request gets through the filter chain of Order Service. -/
def ReachesOrder (decode : String → Option Jwt) (r : Request) : Prop :=
  ∃ authorization, resolveToken authorization = some accessToken ∧
    Gekko.Ordering.reaches J now decode r authorization = true

/-- With the token behind either scheme, the request gets to `get_employee`. -/
def ReachesEmployee (verify : String → Except PyError (List (String × Json))) (r : Request) : Prop :=
  r.method = "GET" ∧ (∃ username, matchEmployee (unquote r.path) = some username) ∧
    ∃ authorization claims, (partition (authorization.getD "")).2 = accessToken ∧
      getClaims J starlette now verify r authorization = .ok claims

end Reaches

/-- A token that Order Service decodes, bound to the key. -/
def BoundAtOrder (decode : String → Option Jwt) : Prop :=
  ∃ jwt members, decode accessToken = some jwt ∧ jwt.tokenValue = accessToken ∧
    jwt.cnf = some (.obj members) ∧
    Json.member? "jkt" members = some (.str keyPair.thumbprint)

/-- A token that Employee Service verifies, bound to the key. -/
def BoundAtEmployee (verify : String → Except PyError (List (String × Json))) : Prop :=
  accessToken ≠ "" ∧ ∃ claims cnf, verify accessToken = .ok claims ∧ Json.member? "cnf" claims = some cnf ∧
    cnf.get? "jkt" = some (.str keyPair.thumbprint)

/-- In the last minute the holder has signed a proof for the URL that Employee Service sees. -/
def Signable (r : Request) : Prop :=
  ∃ p : Own keyPair, p.1.httpMethod = "GET" ∧ p.1.url = seenUrl starlette r ∧
    p.1.boundToken = some accessToken ∧
    (p.1.iat : Rat) ≤ now ∧ |now - p.1.iat| ≤ 60

end Services

/-! ## What a proof that passes says about its maker -/

section Passing

variable {keyPair} {starlette : Starlette} {now : Rat} {accessToken url : String}
  {r : Request} {own : List (Own keyPair)}

/-- The key that the header carries is the holder's: its thumbprint pins the members with which the
    service has checked the signature. -/
theorem verifies_own {q : Presented} {x y crv : String} (hfree : CollisionFree keyPair accessToken)
    (hshared : Shared J r url keyPair.thumbprint accessToken q) (hcrv : q.crv = .str "P-256" → crv = "P-256")
    (hx : q.x = .str x) (hy : q.y = .str y)
    (hverifies : J.verifies crv (J.coordinate x) (J.coordinate y) q.header q.payload q.signature = true) :
    keyPair.Verifies q.header q.payload q.signature := by
  obtain ⟨hcrv', -, hx', hy'⟩ := hfree.thumbprint _ _ _ _ hshared.thumbprint
  cases hcrv hcrv'
  cases Json.str.inj (hx.symm.trans hx')
  cases Json.str.inj (hy.symm.trans hy')
  exact hverifies

/-- So the holder has signed what the request presents, and its claims say what it was made for. -/
theorem ownProofFor_of_shared {q : Presented} (hfree : CollisionFree keyPair accessToken)
    (hassembled : Assembled keyPair own r.dpop)
    (hshared : Shared J r r.url keyPair.thumbprint accessToken q)
    (hverifies : keyPair.Verifies q.header q.payload q.signature)
    (hrecent : ∀ c : Creation, J.json q.payload = c.payload J.base64UrlSha256 → |now - c.iat| ≤ 60) :
    ∃ p, OwnProofFor keyPair own now accessToken r p := by
  obtain ⟨p, hmem, hheader, hpayload⟩ := hassembled _ _ _ hshared.parts hverifies
  have hclaims := p.2.payloadJson
  rw [hpayload] at hclaims
  refine ⟨p, ?_⟩
  constructor
  · exact hmem
  · rw [hheader, hpayload]
    exact ⟨q.signature, hshared.parts⟩
  · intro hunique
    obtain ⟨proof, hproof, hparts⟩ := Option.bind_eq_some_iff.mp hshared.parts
    rw [hheader, hpayload] at hunique
    have hsignature := hunique q.signature hverifies
    rw [hproof, eq_of_parts hparts, SignedProof.text, hheader, hpayload, hsignature]
  · have hhtm := hshared.htm
    rw [hclaims] at hhtm
    exact Json.str.inj (Option.some.inj hhtm)
  · have hhtu := hshared.htu
    rw [hclaims] at hhtu
    exact Json.str.inj (Option.some.inj hhtu)
  · have hath := hshared.ath
    rw [hclaims, payload_ath] at hath
    obtain ⟨token, htoken, hhash⟩ := Option.map_eq_some_iff.mp hath
    rw [htoken, hfree.hash token (Json.str.inj hhash)]
  · exact hrecent p.1 hclaims

/-- **Order Service**, for a request that its filter lets through. -/
theorem ownProofFor_of_doFilter {members : List (String × Json)} (hfree : CollisionFree keyPair accessToken)
    (hassembled : Assembled keyPair own r.dpop)
    (hjkt : Json.member? "jkt" members = some (.str keyPair.thumbprint))
    (h : Gekko.Ordering.doFilter J now r (some (.obj members)) accessToken = .chain) :
    ∃ p, OwnProofFor keyPair own now accessToken r p := by
  obtain ⟨q, hshared, hjava⟩ := (Gekko.Ordering.doFilter_of_jkt hjkt).mp h
  obtain ⟨crv, x, y, alg, hcrv, -, hx, hy, -, -, -, hverifies⟩ := hjava.key
  have hcurve : q.crv = .str "P-256" → crv = "P-256" := fun h256 => Json.str.inj (hcrv.symm.trans h256)
  apply ownProofFor_of_shared hfree hassembled hshared (verifies_own hfree hshared hcurve hx hy hverifies)
  intro c hclaims
  obtain ⟨n, hn, hrecent⟩ := hjava.recent
  rw [hclaims] at hn
  cases Option.some.inj hn
  rwa [dateSeconds_iat] at hrecent

/-- **Employee Service**, for a request whose URL it sees as it was sent. -/
theorem ownProofFor_of_validateDpop {claims : List (String × Json)} {cnf : Json}
    (hfree : CollisionFree keyPair accessToken) (hassembled : Assembled keyPair own r.dpop)
    (hcnf : Json.member? "cnf" claims = some cnf) (hjkt : cnf.get? "jkt" = some (.str keyPair.thumbprint))
    (hseen : seenUrl starlette r = r.url)
    (h : Employee.validateDpop J starlette now r claims accessToken = .ok ()) :
    ∃ p, OwnProofFor keyPair own now accessToken r p := by
  obtain ⟨q, hshared, hpy⟩ := (Employee.validateDpop_of_jkt hcnf hjkt).mp h
  rw [hseen] at hshared
  obtain ⟨x, y, hx, hy, -, -, -, hverifies⟩ := hpy.point
  apply ownProofFor_of_shared hfree hassembled hshared
    (verifies_own hfree hshared (fun _ => rfl) hx hy hverifies)
  intro c hclaims
  obtain ⟨n, hn, hrecent⟩ := hpy.recent
  rw [hclaims] at hn
  cases Except.ok.inj hn
  exact hrecent

end Passing

/-! ## Both services -/

section Both

variable {keyPair} {starlette : Starlette} {now : Rat} {accessToken : String} {r : Request}

theorem order_guarded {decode : String → Option Jwt} (hfree : CollisionFree keyPair accessToken)
    (hbound : BoundAtOrder keyPair accessToken decode) :
    Guarded keyPair (ReachesOrder J now accessToken decode) now accessToken r := by
  rintro own dpop hassembled ⟨authorization, hresolve, hreaches⟩
  obtain ⟨jwt, members, hdecode, hvalue, hcnf, hjkt⟩ := hbound
  unfold Gekko.Ordering.reaches at hreaches
  rw [hresolve, Option.bind_some, hdecode] at hreaches
  simp only [decide_eq_true_eq, hcnf, hvalue] at hreaches
  exact ownProofFor_of_doFilter hfree hassembled hjkt hreaches

/-- The scheme and the token of the header that the frontend sends. -/
theorem partition_dpop (token : String) : partition ("DPoP " ++ token) = ("DPoP", token) := by
  unfold partition
  rw [String.toList_append]
  simp

theorem employee_guarded {verify : String → Except PyError (List (String × Json))}
    (hfree : CollisionFree keyPair accessToken) (hbound : BoundAtEmployee keyPair accessToken verify)
    (hseen : seenUrl starlette r = r.url) :
    Guarded keyPair (ReachesEmployee J starlette now accessToken verify) now accessToken r := by
  rintro own dpop hassembled ⟨-, -, authorization, claims, rfl, hclaims⟩
  obtain ⟨-, claims', cnf, hverify, hcnf, hjkt⟩ := hbound
  obtain ⟨-, -, hverify', hdpop⟩ := Employee.getClaims_eq_ok.mp hclaims
  cases Except.ok.inj (hverify.symm.trans hverify')
  exact ownProofFor_of_validateDpop hfree hassembled hcnf hjkt hseen hdpop

/-- A proof for the URL that Employee Service sees goes through there. -/
theorem reachesEmployee_of_signed {verify : String → Except PyError (List (String × Json))}
    (hbound : BoundAtEmployee keyPair accessToken verify) {p : Own keyPair} (hget : r.method = "GET")
    (hroute : ∃ username, matchEmployee (unquote r.path) = some username) (hmethod : p.1.httpMethod = "GET")
    (hurl : p.1.url = seenUrl starlette r) (htoken : p.1.boundToken = some accessToken)
    (hpast : (p.1.iat : Rat) ≤ now) (hrecent : |now - p.1.iat| ≤ 60) :
    ReachesEmployee J starlette now accessToken verify { r with dpop := some p.2.text } := by
  obtain ⟨hne, claims, cnf, hverify, hcnf, hjkt⟩ := hbound
  refine ⟨hget, hroute, some ("DPoP " ++ accessToken), claims, ?_, Employee.getClaims_eq_ok.mpr ?_⟩
  · rw [Option.getD_some, partition_dpop]
  · rw [Option.getD_some, partition_dpop]
    refine ⟨Or.inr rfl, hne, hverify, (validateDpop_signed p.2 rfl hcnf hjkt).mpr ⟨?_, hpast, hrecent⟩⟩
    exact ⟨rfl, hmethod.trans hget.symm, hurl, accessToken, htoken, rfl⟩

/-- Where the service sees another URL than the one that was sent, a proof for what it sees is taken. -/
theorem not_guarded {verify : String → Except PyError (List (String × Json))}
    (hbound : BoundAtEmployee keyPair accessToken verify)
    (hsign : Signable keyPair starlette now accessToken r)
    (hget : r.method = "GET") (hroute : matchEmployee (unquote r.path) ≠ none)
    (hseen : seenUrl starlette r ≠ r.url) :
    ¬ Guarded keyPair (ReachesEmployee J starlette now accessToken verify) now accessToken r := by
  intro hguarded
  -- The holder has signed one proof, for the URL that the service sees.
  obtain ⟨p, hmethod, hurl, htoken, hpast, hrecent⟩ := hsign
  have hassembled : Assembled keyPair [p] (some p.2.text) := by
    intro header payload signature hparts _
    rw [Option.bind_some, p.2.parts_text] at hparts
    cases hparts
    exact ⟨p, List.mem_singleton_self p, rfl, rfl⟩
  have hreaches := reachesEmployee_of_signed hbound hget (Option.ne_none_iff_exists'.mp hroute) hmethod hurl
    htoken hpast hrecent
  obtain ⟨p', hown⟩ := hguarded [p] _ hassembled hreaches
  cases List.mem_singleton.mp hown.mem
  exact hseen (hurl.symm.trans hown.url)

/-- **Order Service guards every request; Employee Service guards a request that gets to `get_employee`
    exactly when decoding its path and escaping it again lead back to it.** -/
theorem guarded_iff (hfree : CollisionFree keyPair accessToken) (decode : String → Option Jwt)
    (verify : String → Except PyError (List (String × Json)))
    (hsign : Signable keyPair starlette now accessToken r) :
    (BoundAtOrder keyPair accessToken decode →
      Guarded keyPair (ReachesOrder J now accessToken decode) now accessToken r) ∧
    (BoundAtEmployee keyPair accessToken verify →
      (Guarded keyPair (ReachesEmployee J starlette now accessToken verify) now accessToken r ↔
        r.method ≠ "GET" ∨ matchEmployee (unquote r.path) = none ∨
          '?' ∉ r.origin.toList ∧
            Percent.encode (Requote.keeps starlette.requoted) (Percent.decodeLenient r.path) = r.path)) := by
  refine ⟨order_guarded hfree, fun hbound => ⟨fun hguarded => ?_, ?_⟩⟩
  · rw [← Employee.seenUrl_eq_url_iff]
    by_contra hnot
    rw [not_or, not_or, not_not] at hnot
    obtain ⟨hget, hroute, hseen⟩ := hnot
    exact not_guarded hbound hsign hget hroute hseen hguarded
  · rintro (hmethod | hroute | hescape)
    · rintro own dpop - ⟨hget, -⟩
      exact absurd hget hmethod
    · rintro own dpop - ⟨-, ⟨username, hmatch⟩, -⟩
      rw [hroute] at hmatch
      cases hmatch
    · exact employee_guarded hfree hbound (Employee.seenUrl_eq_url_iff.mpr hescape)

end Both

/-! ## The sample session -/

def sampleDecode (token : String) : Option Jwt :=
  if token = sampleToken then
    some
      { tokenValue := sampleToken, id := none, subject := none, issuer := none, audience := none,
        expiresAt := none, notBefore := none, cnf := some (.obj sampleCnf) }
  else none

def sampleVerify (token : String) : Except PyError (List (String × Json)) :=
  if token = sampleToken then .ok sampleClaims else .error (.jwt "Signature verification failed")

theorem sampleToken_bound :
    BoundAtOrder sampleKeyPair sampleToken sampleDecode ∧
    BoundAtEmployee sampleKeyPair sampleToken sampleVerify := by
  constructor
  · refine ⟨_, sampleCnf, if_pos rfl, rfl, rfl, ?_⟩
    rw [thumbprint_sampleKeyPair]
    rfl
  · refine ⟨by decide +kernel, sampleClaims, .obj sampleCnf, if_pos rfl, rfl, ?_⟩
    rw [thumbprint_sampleKeyPair]
    rfl

theorem sample_collisionFree : CollisionFree sampleKeyPair sampleToken where
  thumbprint := by
    intro crv kty x y h
    rw [thumbprint_sampleKeyPair] at h
    have hne : "" ≠ sampleThumbprint := by decide +kernel
    simp only [sampleJose] at h
    split at h
    · split at h
      · rename_i hkey
        obtain ⟨rfl, rfl, rfl, rfl⟩ := hkey
        exact ⟨rfl, rfl, rfl, rfl⟩
      · exact absurd h hne
    · exact absurd h hne
  hash := by
    intro s h
    have hne : "" ≠ sampleHash := by decide +kernel
    simp only [sampleJose, sampleHashes, if_true] at h
    split at h
    · assumption
    · exact absurd h hne

theorem sample_signable {starlette : Starlette} {r : Request}
    (hseen : seenUrl starlette r = "http://localhost:8084/employees/alice") :
    Signable sampleKeyPair starlette sampleNow sampleToken r := by
  obtain ⟨hmethod, htoken, -⟩ := sampleProofs_creation 0
  refine ⟨⟨_, sampleProof 0⟩, hmethod, hseen.symm, htoken, ?_, ?_⟩
  · rw [iat_sampleProof]
  · rw [iat_sampleProof]
    norm_num

/-- Both services guard the lookup of `alice`. -/
theorem alice_guarded :
    Guarded sampleKeyPair (ReachesOrder sampleJose sampleNow sampleToken sampleDecode)
      sampleNow sampleToken aliceRequest ∧
    Guarded sampleKeyPair (ReachesEmployee sampleJose .escaping sampleNow sampleToken sampleVerify)
      sampleNow sampleToken aliceRequest := by
  have hseen : seenUrl .escaping aliceRequest = "http://localhost:8084/employees/alice" := by decide +kernel
  have h := guarded_iff sample_collisionFree sampleDecode sampleVerify (sample_signable hseen)
  refine ⟨h.1 sampleToken_bound.1, (h.2 sampleToken_bound.2).mpr (Or.inr (Or.inr ?_))⟩
  decide +kernel

/-- The lookup of `alice`, with her first letter escaped. -/
def escapedRequest : Request :=
  sampleRequest 0 "http://localhost:8084" (Utf8.encode "/employees/%61lice") (by decide +kernel)

/-- **A proof for one URL opens another one**: with the proof for `/employees/alice`, the request for
    `/employees/%61lice` gets to `get_employee`, whichever way the URL is put together. -/
theorem escaped_not_guarded :
    matchEmployee (unquote escapedRequest.path) = some "alice" ∧
      ¬ Guarded sampleKeyPair (ReachesEmployee sampleJose .escaping sampleNow sampleToken sampleVerify)
        sampleNow sampleToken escapedRequest ∧
      ¬ Guarded sampleKeyPair (ReachesEmployee sampleJose .plain sampleNow sampleToken sampleVerify)
        sampleNow sampleToken escapedRequest := by
  have hroute : matchEmployee (unquote escapedRequest.path) = some "alice" := by decide +kernel
  have hmatch : matchEmployee (unquote escapedRequest.path) ≠ none := by
    rw [hroute]
    exact nofun
  refine ⟨hroute, ?_, ?_⟩
  · exact not_guarded sampleToken_bound.2 (sample_signable (by decide +kernel)) rfl hmatch (by decide +kernel)
  · exact not_guarded sampleToken_bound.2 (sample_signable (by decide +kernel)) rfl hmatch (by decide +kernel)

end Gekko.Dpop
