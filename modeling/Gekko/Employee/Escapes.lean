import Gekko.Frontend.Dpop


/-! # `Gekko.Employee.Escapes` — what leaves `validate_dpop`

`validate_dpop` parses what the caller has sent, and guards one of its steps: what `jwt.decode` raises
as a `PyJWTError` becomes a refusal. Everything else that a step raises becomes an internal error of the
service, where the filter of Order Service catches all alike.

`contained_iff` is the exact condition on the `DPoP` header under which nothing but a refusal is raised.
It follows the order of the steps: a proof is looked at only as far as the checks before let it pass, so
a claim of the wrong type does no harm in a proof that is not signed.
-/

namespace Gekko.Employee

open Checks
open Frontend (Fits fits_sample forAlice iat_sampleProof sampleClaims sampleJose
                sampleKeyPair sampleNow sampleProof
  sampleThumbprint sampleToken aliceRequest validateDpop_signed)
open Dpop (Jose NonFinite Request parts str? str?_eq_some bind_str?_eq_some)

/-- `validate_dpop` returns, or raises the `HTTPException` with status 401. -/
def Contained (result : Except PyError Unit) : Prop :=
  result = .ok () ∨ ∃ detail, result = .error (.http 401 detail)

/-- The exceptions that are answered with 401. -/
def Refusal (e : PyError) : Prop := ∃ detail, e = .http 401 detail

/-- The exceptions that end as a refusal when `jwt.decode` raises them. -/
def Tolerated (e : PyError) : Prop := (∃ message, e = .jwt message) ∨ Refusal e

/-- No step fails with a refusal. -/
abbrev Outside {α : Type} (result : Except PyError α) : Prop := Within (fun e => ¬ Refusal e) result

theorem contained_iff_within {result : Except PyError Unit} : Contained result ↔ Within Refusal result := by
  unfold Contained Refusal
  cases result with
  | ok u => simp
  | error e => simp

@[simp] theorem refusal_http {status : Status} {detail : String} :
    Refusal (.http status detail) ↔ status = 401 := by
  simp [Refusal]

theorem not_refusal {e : PyError} (h : ∀ status detail, e ≠ .http status detail) : ¬ Refusal e := by
  rintro ⟨detail, heq⟩
  exact h 401 detail heq

theorem not_tolerated {e : PyError} (hjwt : ∀ message, e ≠ .jwt message)
    (hhttp : ∀ status detail, e ≠ .http status detail) : ¬ Tolerated e := by
  rintro (⟨message, heq⟩ | hrefusal)
  · exact hjwt message heq
  · exact not_refusal hhttp hrefusal

@[simp] theorem tolerated_jwt (message : String) : Tolerated (.jwt message) := Or.inl ⟨message, rfl⟩

/-! ## The condition -/

variable (J : Jose) (starlette : Starlette) (now : Rat)

/-- `jwk` is a member of the header and holds a point of P-256. -/
structure HoldsPoint (header jwk : Json) (x y : String) : Prop where
  member : header.get? "jwk" = some jwk
  memberX : jwk.get? "x" = some (.str x)
  readsX : J.pyReadsCoordinate x = true
  memberY : jwk.get? "y" = some (.str y)
  readsY : J.pyReadsCoordinate y = true
  onCurve : J.onCurve "P-256" (J.coordinate x) (J.coordinate y) = true

/-- `jwt.decode` gets as far as the claims. -/
structure Signed (header payload : Json) (x y : String)
    (headerB64 payloadB64 signatureB64 : String) : Prop where
  noError : J.pyjwtHeaderError header = none
  alg : header.get? "alg" = some (.str "ES256")
  verifies : J.verifies "P-256" (J.coordinate x) (J.coordinate y) headerB64 payloadB64 signatureB64 = true
  object : isObject payload = true

/-- `int(value)` raises nothing but a `ValueError`. -/
def Convertible (nonFinite : Option NonFinite) : Json → Prop
  | .null | .arr _ | .obj _ => False
  | .num _ => nonFinite ≠ some .infinite
  | .bool _ | .str _ => True

/-- `time.time() - value` raises nothing. -/
def Subtractable : Json → Prop
  | .num n => |now - n| ≤ 60 ∨ |n| < floatLimit
  | .bool _ => True
  | .null | .str _ | .arr _ | .obj _ => False

/-- The key is the one that the token is bound to. -/
def HasThumbprint (jkt jwk : Json) : Prop :=
  ∃ crv kty x y, jwk.get? "crv" = some crv ∧ jwk.get? "kty" = some kty ∧ jwk.get? "x" = some x ∧
    jwk.get? "y" = some y ∧ jkt = .str (J.thumbprint crv kty x y)

/-- What is asked of the key and the claims when the signature has passed. -/
structure Comparable (r : Request) (jkt jwk payload : Json) : Prop where
  crv : (jwk.get? "crv").isSome = true
  kty : (jwk.get? "kty").isSome = true
  iat : HasThumbprint J jkt jwk → payload.get? "htm" = some (.str r.method) →
    payload.get? "htu" = some (.str (seenUrl starlette r)) → ∀ v, payload.get? "iat" = some v →
        Subtractable now v

/-- What is asked of a proof with these three segments. -/
structure Presentable (r : Request) (jkt : Json) (headerB64 payloadB64 signatureB64 : String) : Prop where
  header : J.pyReads headerB64 = true
  payload : J.pyReads payloadB64 = true
  object : isObject (J.json headerB64) = true
  key : (J.json headerB64).get? "typ" = some (.str "dpop+jwt") → ∃ jwk x y,
    HoldsPoint J (J.json headerB64) jwk x y ∧
    (Signed J (J.json headerB64) (J.json payloadB64) x y headerB64 payloadB64 signatureB64 →
      (∀ v, (J.json payloadB64).get? "iat" = some v → Convertible (J.pyNonFinite payloadB64 "iat") v) ∧
      (NotInFuture J now (J.pyNonFinite payloadB64 "iat") ((J.json payloadB64).get? "iat") →
        ∀ v, (J.json payloadB64).get? "nbf" = some v → Convertible (J.pyNonFinite payloadB64 "nbf") v)) ∧
    (Signed J (J.json headerB64) (J.json payloadB64) x y headerB64 payloadB64 signatureB64 →
      Decodes J now (J.json headerB64) (J.json payloadB64) (J.pyNonFinite payloadB64) →
      Comparable J starlette now r jkt jwk (J.json payloadB64))

/-! ## What the steps raise -/

variable {J starlette now} {r : Request} {name : String} {v : Json}

theorem isObject_iff : isObject v = true ↔ ∃ members, v = .obj members := by
  cases v <;> simp [isObject]

theorem outside_check {p : Prop} [Decidable p] {e : PyError} (he : ¬ Refusal e) : Outside (check p e) :=
  within_check.mpr fun _ => he

theorem outside_orFail {α : Type} {e : PyError} {o : Option α} (he : ¬ Refusal e) : Outside (orFail e o) :=
  within_orFail.mpr fun _ => he

theorem outside_index : Outside (index name v) := by
  have htype : ¬ Refusal .typeError := not_refusal nofun
  cases v with
  | obj members => exact outside_orFail (not_refusal nofun)
  | _ => exact within_error.mpr htype

theorem outside_get : Outside (get name v) := by
  have hattribute : ¬ Refusal .attributeError := not_refusal nofun
  cases v with
  | obj members => exact within_ok
  | _ => exact within_error.mpr hattribute

theorem outside_loads {segment : String} : Outside (loads J segment) := by
  unfold loads
  split
  · exact within_ok
  · exact within_error.mpr (not_refusal nofun)

theorem outside_coordinate : Outside (coordinate J name v) := by
  have htype : ¬ Refusal .typeError := not_refusal nofun
  have hvalue : ¬ Refusal .valueError := not_refusal nofun
  unfold coordinate
  refine within_bind.mpr ⟨outside_index, fun w _ => ?_⟩
  cases w with
  | str s => by_cases hreads : J.pyReadsCoordinate s = true <;> simp [hreads, hvalue]
  | _ => exact within_error.mpr htype

theorem outside_jwkThumbprint : Outside (jwkThumbprint J v) := by
  refine within_bind.mpr ⟨outside_index, fun crv _ => ?_⟩
  refine within_bind.mpr ⟨outside_index, fun kty _ => ?_⟩
  refine within_bind.mpr ⟨outside_index, fun x _ => ?_⟩
  exact within_bind.mpr ⟨outside_index, fun y _ => within_ok⟩

theorem outside_subtrahend {o : Option Json} : Outside (subtrahend o) := by
  have htype : ¬ Refusal .typeError := not_refusal nofun
  cases o with
  | none => exact within_ok
  | some v =>
      cases v with
      | num n => exact within_ok
      | bool b => exact within_ok
      | _ => exact within_error.mpr htype

/-- A refusal ends the sequence, and is itself no escape. -/
theorem within_bind_refuse {α : Type} {p : Prop} [Decidable p] {detail : String}
    {f : Unit → Except PyError α} :
    Within Refusal (check p (.http 401 detail) >>= f) ↔ (p → Within Refusal (f ())) := by
  rw [within_bind_unit, within_check, check_eq_ok]
  simp

theorem within_bind_orRefuse {α β : Type} {detail : String} {o : Option β} {f : β → Except PyError α} :
    Within Refusal (orFail (.http 401 detail) o >>= f) ↔ ∀ a, o = some a → Within Refusal (f a) := by
  rw [within_bind, within_orFail]
  simp

/-! ## What `jwt.decode` raises -/

theorem within_toInt {message : String} {nonFinite : Option NonFinite} :
    Within Tolerated (toInt J message nonFinite v) ↔ Convertible nonFinite v := by
  have htype : ¬ Tolerated .typeError := not_tolerated nofun nofun
  have hoverflow : ¬ Tolerated .overflowError := not_tolerated nofun nofun
  cases v with
  | num n =>
      simp only [toInt, within_bind_unit, within_failOn, within_orFail, tolerated_jwt, implies_true, and_true,
        Convertible]
      by_cases hinfinite : nonFinite = some .infinite
      · simp [hinfinite, hoverflow]
      · simp [hinfinite]
  | _ => simp [toInt, Convertible, htype]

theorem within_notInFuture {notInteger inFuture : String} {payload : Json} {nonFinite : Option NonFinite} :
    Within Tolerated (notInFuture J now name notInteger inFuture payload nonFinite) ↔
      ∀ v, payload.get? name = some v → Convertible nonFinite v := by
  unfold notInFuture
  cases payload.get? name with
  | none => simp
  | some v =>
      rw [within_bind, within_toInt]
      simp

/-- `jwt.decode` converts `iat` and `nbf` when the signature has passed, and `nbf` when `iat` has. -/
theorem within_jwtDecode {header payload : Json} {x y headerB64 payloadB64 signatureB64 : String} :
    Within Tolerated (jwtDecode J now header payload (J.coordinate x) (J.coordinate y) headerB64 payloadB64
        signatureB64) ↔
      (Signed J header payload x y headerB64 payloadB64 signatureB64 →
        (∀ v, payload.get? "iat" = some v → Convertible (J.pyNonFinite payloadB64 "iat") v) ∧
        (NotInFuture J now (J.pyNonFinite payloadB64 "iat") (payload.get? "iat") →
          ∀ v, payload.get? "nbf" = some v → Convertible (J.pyNonFinite payloadB64 "nbf") v)) := by
  have hheader : ∀ e, (J.pyjwtHeaderError header).map PyError.jwt = some e → Tolerated e := by
    intro e he
    obtain ⟨message, -, rfl⟩ := Option.map_eq_some_iff.mp he
    exact tolerated_jwt message
  unfold jwtDecode isString
  simp only [within_bind_unit, within_failOn, within_check, within_notInFuture, failOn_eq_ok,
    check_eq_ok, notInFuture_eq_ok, tolerated_jwt, implies_true, true_and, and_true, bind_str?_eq_some,
    Option.map_eq_none_iff]
  constructor
  · rintro ⟨-, h⟩ ⟨hnone, halg, hverifies, hobject⟩
    exact h hnone halg hverifies hobject
  · intro h
    exact ⟨hheader, fun hnone halg hverifies hobject => h ⟨hnone, halg, hverifies, hobject⟩⟩

theorem within_bind_signatureInvalid {α : Type} {result : Except PyError Unit} {f : Unit → Except PyError α} :
    Within Refusal (signatureInvalid result >>= f) ↔
      Within Tolerated result ∧ (result = .ok () → Within Refusal (f ())) := by
  rw [within_bind_unit, signatureInvalid_eq_ok]
  refine and_congr_left fun _ => ?_
  cases result with
  | ok u => simp [signatureInvalid]
  | error e => cases e <;> simp [signatureInvalid, Tolerated, Refusal]

/-! ## The whole of `validate_dpop` -/

theorem one_lt_floatLimit : 1 < floatLimit := by
  have hpow : (2 : Rat) ^ 1024 = 2 ^ 54 * 2 ^ 970 := by rw [← pow_add]
  have hone : (1 : Rat) ≤ 2 ^ 970 := one_le_pow₀ (by norm_num)
  unfold floatLimit
  rw [hpow]
  generalize (2 : Rat) ^ 970 = p at hone
  linarith

/-- The subtraction, with the conversion of an integer that it implies. -/
theorem subtractable_iff {o : Option Json} :
    (∃ n, subtrahend o = .ok n ∧ (|now - n| ≤ 60 ∨ |n| < floatLimit)) ↔ ∀ v, o = some v →
    Subtractable now v := by
  have hone := one_lt_floatLimit
  have hzero : 0 < floatLimit := zero_lt_one.trans hone
  cases o with
  | none => simp [subtrahend, hzero]
  | some v =>
      cases v with
      | bool b => cases b <;> simp [subtrahend, Subtractable, hzero, hone]
      | _ => simp [subtrahend, Subtractable]

theorem hasThumbprint_iff {jkt jwk : Json} :
    HasThumbprint J jkt jwk ↔ ∃ t, jwkThumbprint J jwk = .ok t ∧ jkt = .str t := by
  simp only [HasThumbprint, jwkThumbprint_eq_ok]
  constructor
  · rintro ⟨crv, kty, x, y, hcrv, hkty, hx, hy, hjkt⟩
    exact ⟨_, ⟨crv, kty, x, y, hcrv, hkty, hx, hy, rfl⟩, hjkt⟩
  · rintro ⟨_, ⟨crv, kty, x, y, hcrv, hkty, hx, hy, rfl⟩, hjkt⟩
    exact ⟨crv, kty, x, y, hcrv, hkty, hx, hy, hjkt⟩

theorem comparable_iff {jkt jwk payload x y : Json} (hx : jwk.get? "x" = some x)
    (hy : jwk.get? "y" = some y) :
    Comparable J starlette now r jkt jwk payload ↔ ∃ t, jwkThumbprint J jwk = .ok t ∧ (str? jkt = some t →
      payload.get? "htm" = some (.str r.method) → payload.get? "htu" = some (.str (seenUrl starlette r)) →
        ∃ n, subtrahend (payload.get? "iat") = .ok n ∧ (|now - n| ≤ 60 ∨ |n| < floatLimit)) := by
  simp only [subtractable_iff, str?_eq_some]
  constructor
  · rintro ⟨hcrv, hkty, hiat⟩
    obtain ⟨crv, hcrv⟩ := Option.isSome_iff_exists.mp hcrv
    obtain ⟨kty, hkty⟩ := Option.isSome_iff_exists.mp hkty
    have ht := jwkThumbprint_eq_ok (J := J).mpr ⟨crv, kty, x, y, hcrv, hkty, hx, hy, rfl⟩
    exact ⟨_, ht, fun hjkt => hiat (hasThumbprint_iff.mpr ⟨_, ht, hjkt⟩)⟩
  · rintro ⟨t, ht, hiat⟩
    obtain ⟨crv, kty, -, -, hcrv, hkty, -⟩ := jwkThumbprint_eq_ok.mp ht
    refine ⟨Option.isSome_iff_exists.mpr ⟨crv, hcrv⟩, Option.isSome_iff_exists.mpr ⟨kty, hkty⟩,
            fun hkey => ?_⟩
    obtain ⟨t', ht', hjkt⟩ := hasThumbprint_iff.mp hkey
    cases Except.ok.inj (ht.symm.trans ht')
    exact hiat hjkt

theorem within_checkProof {cnf jkt : Json} {accessToken : String} (hjkt : cnf.get? "jkt" = some jkt) :
    Within Refusal (checkProof J starlette now r cnf accessToken) ↔
      ∀ proof, r.dpop = some proof → proof ≠ "" → ∃ headerB64 payloadB64 signatureB64,
        parts proof = some (headerB64, payloadB64, signatureB64) ∧
          Presentable J starlette now r jkt headerB64 payloadB64 signatureB64 := by
  have hvalue : ¬ Refusal .valueError := not_refusal nofun
  have hoverflow : ¬ Refusal .overflowError := not_refusal nofun
  unfold checkProof
  -- One step after the other: those before `jwt.decode` must succeed, unless a refusal ends the sequence.
  simp only [within_bind_orRefuse, within_bind_refuse, within_bind_signatureInvalid,
    within_bind_of_outside (outside_orFail hvalue), within_bind_of_outside (outside_check hvalue),
    within_bind_of_outside (outside_check hoverflow), within_bind_of_outside outside_loads,
    within_bind_of_outside outside_get, within_bind_of_outside outside_index,
    within_bind_of_outside outside_coordinate, within_bind_of_outside outside_jwkThumbprint,
    within_bind_of_outside outside_subtrahend, present_eq_some]
  simp only [orFail_eq_ok, check_eq_ok, loads_eq_ok, get_eq_ok, ← isObject_iff, index_eq_ok, jwtDecode_eq_ok,
    bind_str?_eq_some, within_check, refusal_http, implies_true, and_true, exists_const, and_assoc, exists_eq,
    exists_eq_left, exists_eq_left', exists_and_left, hjkt, Option.some.injEq]
  constructor
  · intro h proof hproof hne
    obtain ⟨⟨headerB64, payloadB64, signatureB64⟩, hparts, hheader, hpayload, hobject, h⟩ :=
      h proof ⟨hproof, hne⟩
    refine ⟨headerB64, payloadB64, signatureB64, hparts, hheader, hpayload, hobject, fun htyp => ?_⟩
    obtain ⟨jwk, hjwk, px, hpx, py, hpy, hcurve, hdecode, h⟩ := h htyp
    obtain ⟨x, hx, hxreads, rfl⟩ := coordinate_eq_ok.mp hpx
    obtain ⟨y, hy, hyreads, rfl⟩ := coordinate_eq_ok.mp hpy
    refine ⟨jwk, x, y, ⟨hjwk, hx, hxreads, hy, hyreads, hcurve⟩, within_jwtDecode.mp hdecode, ?_⟩
    intro hsigned hdecodes
    have hcomparable := h ⟨hsigned.verifies, hdecodes⟩
    simp only [hsigned.object, true_and, implies_true, and_true] at hcomparable
    exact (comparable_iff hx hy).mpr hcomparable
  · rintro h proof ⟨hproof, hne⟩
    obtain ⟨headerB64, payloadB64, signatureB64, hparts, hpresentable⟩ := h proof hproof hne
    refine ⟨_, hparts, hpresentable.header, hpresentable.payload, hpresentable.object, fun htyp => ?_⟩
    obtain ⟨jwk, x, y, hkey, hdecode, h⟩ := hpresentable.key htyp
    have hpx := coordinate_eq_ok.mpr ⟨x, hkey.memberX, hkey.readsX, rfl⟩
    have hpy := coordinate_eq_ok.mpr ⟨y, hkey.memberY, hkey.readsY, rfl⟩
    refine ⟨jwk, hkey.member, _, hpx, _, hpy, hkey.onCurve, within_jwtDecode.mpr hdecode, ?_⟩
    rintro ⟨hverifies, hdecodes⟩
    have hcomparable := h ⟨hdecodes.noError, hdecodes.alg, hverifies, hdecodes.object⟩ hdecodes
    simp only [hdecodes.object, true_and, implies_true, and_true]
    exact (comparable_iff hkey.memberX hkey.memberY).mp hcomparable

/-- **Nothing but a refusal is raised** for a bound token, exactly when the header holds nothing, or a
    proof that each step can take. -/
theorem contained_iff {claims : List (String × Json)} {cnf jkt : Json} {accessToken : String}
    (hcnf : Json.member? "cnf" claims = some cnf) (hjkt : cnf.get? "jkt" = some jkt) :
    Contained (validateDpop J starlette now r claims accessToken) ↔
      ∀ proof, r.dpop = some proof → proof ≠ "" → ∃ headerB64 payloadB64 signatureB64,
        parts proof = some (headerB64, payloadB64, signatureB64) ∧
          Presentable J starlette now r jkt headerB64 payloadB64 signatureB64 := by
  have hproof : validateDpop J starlette now r claims accessToken =
      checkProof J starlette now r cnf accessToken := by
    unfold validateDpop
    rw [hcnf]
    simp only [isBound_of_jkt hjkt]
    rfl
  rw [contained_iff_within, hproof, within_checkProof hjkt]

/-- The lookup of `alice` presents such a proof, and raises nothing. -/
theorem alice_contained :
    Contained (validateDpop sampleJose .escaping sampleNow aliceRequest sampleClaims sampleToken) ∧
      ∃ headerB64 payloadB64 signatureB64,
        parts (sampleProof 0).text = some (headerB64, payloadB64, signatureB64) ∧
          Presentable sampleJose .escaping sampleNow aliceRequest
            (.str sampleThumbprint) headerB64 payloadB64 signatureB64 := by
  have hfits : Fits sampleKeyPair forAlice aliceRequest
      (seenUrl .escaping aliceRequest) sampleThumbprint sampleToken :=
    fits_sample 0 rfl (by decide +kernel)
  have hreturns : validateDpop sampleJose .escaping sampleNow aliceRequest sampleClaims
      sampleToken = .ok () := by
    refine (validateDpop_signed (sampleProof 0) rfl rfl rfl).mpr ⟨hfits, ?_, ?_⟩
    · rw [iat_sampleProof]
    · rw [iat_sampleProof]
      norm_num
  have hne : (sampleProof 0).text ≠ "" := by
    intro h
    have hparts := (sampleProof 0).parts_text
    rw [h, Dpop.parts_empty] at hparts
    cases hparts
  exact ⟨Or.inl hreturns, (contained_iff rfl rfl).mp (Or.inl hreturns) _ rfl hne⟩

/-- **One dot too few**: the unpacking of the segments raises a `ValueError`. -/
theorem one_dot_not_contained :
    validateDpop sampleJose .escaping sampleNow { aliceRequest with dpop := some "a.b" }
        sampleClaims sampleToken = .error .valueError ∧
      ¬ Contained (validateDpop sampleJose .escaping sampleNow { aliceRequest with dpop := some "a.b" }
        sampleClaims sampleToken) := by
  have hraises : validateDpop sampleJose .escaping sampleNow { aliceRequest with dpop := some "a.b" }
      sampleClaims sampleToken = .error .valueError := by
    decide +kernel
  refine ⟨hraises, ?_⟩
  rw [contained_iff_within, hraises, within_error]
  exact not_refusal nofun

end Gekko.Employee
