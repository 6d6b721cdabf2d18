import Gekko.Frontend.Dpop
import Gekko.Lib.PathTrip


/-! # `Gekko.Dpop.Relay` — a name on its way from the frontend to a service

The routes `/api/employees/{username}` and `/api/warehouse-stock/{productId}` put the raw segment of
their own URL behind the path of a service, and `callDownstream` signs the text that comes out and
fetches it. The URL parser of `fetch` sends a path of its own making, and each service compares the
signed text with what it makes of that path: Order Service with the path as it was sent, Employee
Service with the decoded path, cut at its first `?`. Here `request.url` holds the decoded path as it is
(`Starlette.plain`).

`accepted_iff` says which names get through, and until when.
-/

namespace Gekko.Dpop

open Employee (validateDpop seenUrl unquote)
open Gekko.Ordering (doFilter)
open Frontend
open Whatwg (Whole pathKeep)

/-! ## The call -/

/-- What `getRouterParam` returns: a segment of the path, as it was sent. -/
structure RawSegment where
  text : String
  chars : '/' ∉ text.toList ∧ '?' ∉ text.toList

/-- A base URL of the runtime configuration: the origin of a service, as the service puts it together
again. -/
structure BaseUrl where
  text : String
  question : '?' ∉ text.toList

/-- The values of `randomUUID()` and of the clock in one call of `createDPoPProof`. -/
structure Moment where
  jti : String
  /-- `Date.now() / 1000`. -/
  now : Rat
  range : |now| ≤ 8640000000000

/-- The call of `createDPoPProof` in `callDownstream`. -/
def creation (moment : Moment) (method url accessToken : String) : Creation where
  jti := moment.jti
  httpMethod := method
  url := url
  accessToken := some accessToken
  now := moment.now
  range := moment.range

section Call

variable {J : Jose} {keyPair : DPoPKeyPair J} {moment : Moment} {accessToken : String}

/-- `callDownstream(keyPair, "GET", base + directory + segment, accessToken)`: the request that arrives.
    The text behind the base URL has no `?`, so there is no query. -/
def callDownstream (base : BaseUrl) (directory : String) (segment : RawSegment)
    (proof : SignedProof J keyPair
      (creation moment "GET" (base.text ++ (directory ++ segment.text)) accessToken)) : Request where
  method := "GET"
  origin := base.text
  path := Whatwg.path (directory ++ segment.text).toList
  visible := Whatwg.path_visible _
  query := none
  dpop := some proof.text

end Call

/-- The path of `GET /employees/{username}` up to the name. -/
def employees : String := "/employees/"

/-- The path of `GET /warehouse-stock/{product_id}` up to the id. -/
def warehouseStock : String := "/warehouse-stock/"

/-! ## What the services make of the path -/

section Paths

variable {u : String}

theorem ordinary_employees : Whatwg.Ordinary "employees".toList := by decide +kernel

theorem ordinary_warehouseStock : Whatwg.Ordinary "warehouse-stock".toList := by decide +kernel

theorem toList_employees : (employees ++ u).toList = '/' :: ("employees".toList ++ '/' :: u.toList) := by
  rw [String.toList_append, employees]
  rfl

theorem toList_warehouseStock :
    (warehouseStock ++ u).toList = '/' :: ("warehouse-stock".toList ++ '/' :: u.toList) := by
  rw [String.toList_append, warehouseStock]
  rfl

/-- Employee Service sees the signed text. -/
theorem unquote_path_iff (hslash : '/' ∉ u.toList) :
    String.ofList ((unquote (Whatwg.path (employees ++ u).toList)).toList.takeWhile (· ≠ '?')) =
      employees ++ u ↔
      Whole u.toList ∧ Percent.hasEscape (Utf8.encode u) = false := by
  have hescape : Percent.hasEscape ("employees".toList.flatMap String.utf8EncodeChar) = false := by
    decide +kernel
  have hchild := Whatwg.decode_path_child_iff ordinary_employees hescape hslash
  rw [← String.toList_inj, String.toList_ofList, toList_employees, unquote]
  exact hchild

/-- Order Service sees the signed text. -/
theorem asciiText_path_iff (hslash : '/' ∉ u.toList) :
    asciiText (Whatwg.path (warehouseStock ++ u).toList) = warehouseStock ++ u ↔
      Whole u.toList ∧ ∀ b ∈ Utf8.encode u, pathKeep b = true := by
  have hkeep : ∀ b ∈ "warehouse-stock".toList.flatMap String.utf8EncodeChar, pathKeep b = true := by
    decide +kernel
  have hbytes : asciiText (Whatwg.path (warehouseStock ++ u).toList) = warehouseStock ++ u ↔
      Whatwg.path (warehouseStock ++ u).toList =
        (warehouseStock ++ u).toList.flatMap String.utf8EncodeChar := by
    have hascii : ∀ b ∈ Whatwg.path (warehouseStock ++ u).toList, b < 0x80 := by
      intro b hb
      exact UInt8.lt_of_le_of_lt (Whatwg.path_visible _ b hb).2.1 (by decide)
    constructor
    · intro h
      rw [← encode_asciiText hascii, h]
      rfl
    · intro h
      rw [← decodeLossy_of_ascii hascii, h]
      exact Utf8.decodeLossy_encode _
  have hchild := Whatwg.path_child_iff ordinary_warehouseStock hkeep hslash
  rw [hbytes, toList_warehouseStock]
  exact hchild

end Paths

/-! ## Which names get through -/

section Accepted

variable {J : Jose} {keyPair : DPoPKeyPair J} {moment : Moment} {accessToken : String} {now : Rat}

theorem append_left_inj_iff {s t t' : String} : s ++ t = s ++ t' ↔ t = t' := by
  rw [← String.toList_inj, ← String.toList_inj, String.toList_append, String.toList_append,
    List.append_cancel_left_eq]

/-- The time between the second of the proof and its check, when the check comes later. -/
theorem recent_iff (url accessToken : String) (hpast : moment.now ≤ now) :
    ((creation moment "GET" url accessToken).iat : Rat) ≤ now ∧
      (|now - (creation moment "GET" url accessToken).iat| ≤ 60 ↔ now - ⌊moment.now⌋ ≤ 60) := by
  have hiat : (creation moment "GET" url accessToken).iat = ⌊moment.now⌋ := rfl
  have hle : (⌊moment.now⌋ : Rat) ≤ now := (Int.floor_le moment.now).trans hpast
  rw [hiat, abs_of_nonneg (sub_nonneg.mpr hle)]
  exact ⟨hle, Iff.rfl⟩

/-- The proof fits the request, as far as it does not depend on the URL. -/
theorem fits_iff {url url' : String} {r : Request} (htoken : accessToken ≠ "") (hmethod : r.method = "GET") :
    Fits keyPair (creation moment "GET" url accessToken) r url' keyPair.thumbprint accessToken ↔
    url = url' := by
  unfold Fits
  have hbound : (creation moment "GET" url accessToken).boundToken = some accessToken := by
    unfold Creation.boundToken creation
    rw [Option.filter_some, if_pos (by simpa using htoken)]
  constructor
  · rintro ⟨-, -, hurl, -⟩
    exact hurl
  · intro hurl
    exact ⟨rfl, hmethod.symm, hurl, accessToken, hbound, rfl⟩

/-- The URL as Order Service reports it. -/
theorem url_callDownstream {base : BaseUrl} {directory : String} {u : RawSegment}
    (proof : SignedProof J keyPair (creation moment "GET" (base.text ++ (directory ++ u.text)) accessToken)) :
    (callDownstream base directory u proof).url = base.text ++
      asciiText (Whatwg.path (directory ++ u.text).toList) :=
  rfl

/-- The URL as Employee Service puts it together. -/
theorem seenUrl_callDownstream {base : BaseUrl} {directory : String} {u : RawSegment}
    (proof : SignedProof J keyPair (creation moment "GET" (base.text ++ (directory ++ u.text)) accessToken)) :
    seenUrl .plain (callDownstream base directory u proof) = base.text ++
      String.ofList ((unquote (Whatwg.path (directory ++ u.text).toList)).toList.takeWhile (· ≠ '?')) := by
  have horigin : '?' ∉ (callDownstream base directory u proof).origin.toList := base.question
  rw [Employee.seenUrl_eq horigin, Employee.Starlette.rebuilt_plain]
  rfl

theorem validateDpop_callDownstream {base : BaseUrl} {u : RawSegment}
    {claims : List (String × Json)} {cnf : Json}
    (htoken : accessToken ≠ "") (hpast : moment.now ≤ now) (hcnf : Json.member? "cnf" claims = some cnf)
    (hjkt : cnf.get? "jkt" = some (.str keyPair.thumbprint))
    (proof : SignedProof J keyPair (creation moment "GET" (base.text ++ (employees ++ u.text)) accessToken)) :
    validateDpop J .plain now (callDownstream base employees u proof) claims accessToken = .ok () ↔
      (Whole u.text.toList ∧ Percent.hasEscape (Utf8.encode u.text) = false) ∧ now - ⌊moment.now⌋ ≤ 60 := by
  obtain ⟨hle, hrecent⟩ := recent_iff (base.text ++ (employees ++ u.text)) accessToken hpast
  rw [validateDpop_signed proof rfl hcnf hjkt, fits_iff htoken rfl, hrecent, and_iff_right hle,
    seenUrl_callDownstream, append_left_inj_iff, eq_comm (a := employees ++ u.text),
    unquote_path_iff u.chars.1]

theorem doFilter_callDownstream {base : BaseUrl} {u : RawSegment} {members : List (String × Json)}
    (htoken : accessToken ≠ "") (hpast : moment.now ≤ now)
    (hjkt : Json.member? "jkt" members = some (.str keyPair.thumbprint))
    (proof : SignedProof J keyPair (creation moment "GET" (base.text ++
      (warehouseStock ++ u.text)) accessToken)) :
    doFilter J now (callDownstream base warehouseStock u proof) (some (.obj members)) accessToken = .chain ↔
      (Whole u.text.toList ∧ ∀ b ∈ Utf8.encode u.text, pathKeep b = true) ∧ now - ⌊moment.now⌋ ≤ 60 := by
  obtain ⟨-, hrecent⟩ := recent_iff (base.text ++ (warehouseStock ++ u.text)) accessToken hpast
  rw [doFilter_signed proof rfl hjkt, fits_iff htoken rfl, hrecent, url_callDownstream, append_left_inj_iff,
    eq_comm (a := warehouseStock ++ u.text), asciiText_path_iff u.chars.1]

/-- **Which names get through.** To Employee Service, those that the URL parser leaves whole and that
    have no escape; to Order Service, those that it leaves whole and in which it has nothing to escape.
    In both cases until 60 seconds after the second in which the proof was made. -/
theorem accepted_iff (htoken : accessToken ≠ "") (hpast : moment.now ≤ now) (base : BaseUrl)
    (u : RawSegment) :
    (∀ (proof : SignedProof J keyPair (creation moment "GET" (base.text ++
      (employees ++ u.text)) accessToken))
        claims cnf, Json.member? "cnf" claims = some cnf → cnf.get? "jkt" = some (.str keyPair.thumbprint) →
      (validateDpop J .plain now (callDownstream base employees u proof) claims accessToken = .ok () ↔
        (Whole u.text.toList ∧ Percent.hasEscape (Utf8.encode u.text) = false) ∧ now - ⌊moment.now⌋ ≤ 60)) ∧
    (∀ (proof : SignedProof J keyPair (creation moment "GET" (base.text ++
      (warehouseStock ++ u.text)) accessToken))
        members, Json.member? "jkt" members = some (.str keyPair.thumbprint) →
      (doFilter J now (callDownstream base warehouseStock u proof)
        (some (.obj members)) accessToken = .chain ↔
        (Whole u.text.toList ∧ ∀ b ∈ Utf8.encode u.text, pathKeep b = true) ∧ now - ⌊moment.now⌋ ≤ 60)) := by
  constructor
  · intro proof claims cnf hcnf hjkt
    exact validateDpop_callDownstream htoken hpast hcnf hjkt proof
  · intro proof members hjkt
    exact doFilter_callDownstream htoken hpast hjkt proof

end Accepted

/-! ## The sample session -/

def sampleMoment (jti : String) : Moment where
  jti := jti
  now := sampleNow
  range := sampleNow_range

theorem creation_sample {jti url url' : String} (hurl : url' = url) :
    sampleCreation jti url' = creation (sampleMoment jti) "GET" url sampleToken := by
  subst hurl
  rfl

/-- The `i`-th sample proof, as `callDownstream` asks for it. -/
def relayed (i : Fin sampleProofs.length) {jti url url' : String}
    (hget : (sampleProofs.get i).1 = sampleCreation jti url') (hurl : url' = url) :
    SignedProof sampleJose sampleKeyPair (creation (sampleMoment jti) "GET" url sampleToken) :=
  (hget.trans (creation_sample hurl)) ▸ sampleProof i

def employeeServiceBaseUrl : BaseUrl := ⟨"http://localhost:8084", by decide +kernel⟩

def orderServiceBaseUrl : BaseUrl := ⟨"http://localhost:8081", by decide +kernel⟩

def alice : RawSegment := ⟨"alice", by decide +kernel⟩

def escapedAlice : RawSegment := ⟨"%61lice", by decide +kernel⟩

def p1 : RawSegment := ⟨"p1", by decide +kernel⟩

def aliceCall : Request :=
  callDownstream employeeServiceBaseUrl employees alice (relayed 0 rfl (by decide +kernel))

def p1Call : Request :=
  callDownstream orderServiceBaseUrl warehouseStock p1 (relayed 1 rfl (by decide +kernel))

/-- The lookup of `alice` with her first letter escaped. -/
def escapedAliceCall : Request :=
  callDownstream employeeServiceBaseUrl employees escapedAlice (relayed 2 rfl (by decide +kernel))

theorem whole_alice : Whole alice.text.toList := by
  have hplain : Whatwg.PlainName "alice" := by decide +kernel
  exact hplain.ordinary.whole

theorem whole_p1 : Whole p1.text.toList := by
  have hplain : Whatwg.PlainName "p1" := by decide +kernel
  exact hplain.ordinary.whole

theorem sampleMoment_recent (jti : String) : sampleNow - ⌊(sampleMoment jti).now⌋ ≤ 60 := by
  norm_num [sampleMoment, sampleNow]

/-- `alice` and `p1` get through. -/
theorem plain_accepted :
    validateDpop sampleJose .plain sampleNow aliceCall sampleClaims sampleToken = .ok () ∧
      doFilter sampleJose sampleNow p1Call (some (.obj sampleCnf)) sampleToken = .chain := by
  have hjkt : Json.member? "jkt" sampleCnf = some (.str sampleKeyPair.thumbprint) := by
    rw [thumbprint_sampleKeyPair]
    rfl
  constructor
  · refine ((accepted_iff (by decide +kernel) (le_refl sampleNow) employeeServiceBaseUrl alice).1 _ _
      (.obj sampleCnf) rfl hjkt).mpr ⟨⟨whole_alice, by decide +kernel⟩, sampleMoment_recent _⟩
  · refine ((accepted_iff (by decide +kernel) (le_refl sampleNow) orderServiceBaseUrl p1).2 _ _ hjkt).mpr
      ⟨⟨whole_p1, by decide +kernel⟩, sampleMoment_recent _⟩

/-- **An escape in the name turns the proof down**: Employee Service compares the signed `%61lice` with
`alice`. -/
theorem escapedAlice_rejected :
    validateDpop sampleJose .plain sampleNow escapedAliceCall sampleClaims sampleToken ≠ .ok () := by
  have hjkt : (Json.obj sampleCnf).get? "jkt" = some (.str sampleKeyPair.thumbprint) := by
    rw [thumbprint_sampleKeyPair]
    rfl
  intro h
  obtain ⟨⟨-, hescape⟩, -⟩ :=
    (validateDpop_callDownstream (by decide +kernel) (le_refl sampleNow) rfl hjkt _).mp h
  exact absurd hescape (by decide +kernel)

end Gekko.Dpop
