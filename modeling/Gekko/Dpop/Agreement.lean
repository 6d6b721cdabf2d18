import Gekko.Frontend.Dpop


/-! # `Gekko.Dpop.Agreement` — where the two validators agree

Employee Service says that its `validate_dpop` is the same implementation as Order Service's filter. The two
make the same checks of the type, of the thumbprint and of the claims that tie a proof to its request
(`Dpop.Shared`), but each leaves the rest to its own JWT library, and they tell a bound token from an unbound
one in their own ways.

`PythonObjects` lists what Employee Service holds against a proof that Order Service lets pass,
`JavaObjects` the other way round. `agree_iff` is the exact condition for one request: its token is
bound, or not, in the eyes of both, and neither service objects to a proof that the other one takes.
-/

namespace Gekko.Dpop

open Employee (PyOnly NotInFuture Starlette truthy isBound validateDpop seenUrl)
open Gekko.Ordering (JavaOnly dateSeconds curveAlgorithm doFilter)
open Frontend (sampleJose sampleNow sampleToken sampleClaims sampleCnf aliceRequest sampleProof)

/-- What Employee Service may hold against a proof that Order Service takes. -/
inductive PythonObjects (J : Jose) (now : Rat) (q : Presented) : Prop where
  | header (h : J.pyReads q.header = false)
  | payload (h : J.pyReads q.payload = false)
  | curve (h : q.crv ≠ .str "P-256")
  | x {x : String} (hx : q.x = .str x) (h : J.pyReadsCoordinate x = false)
  | y {y : String} (hy : q.y = .str y) (h : J.pyReadsCoordinate y = false)
  | pyjwt (h : J.pyjwtHeaderError (J.json q.header) ≠ none)
  | iat (h : ¬ NotInFuture J now (J.pyNonFinite q.payload "iat") ((J.json q.payload).get? "iat"))
  | nbf (h : ¬ NotInFuture J now (J.pyNonFinite q.payload "nbf") ((J.json q.payload).get? "nbf"))
  | aud {v : Json} (hv : (J.json q.payload).get? "aud" = some v) (h : truthy v = true)
  | sub {v : Json} (hv : (J.json q.payload).get? "sub" = some v) (h : str? v = none)
  | jti {v : Json} (hv : (J.json q.payload).get? "jti" = some v) (h : str? v = none)
  | window {n : Rat} (hn : (J.json q.payload).get? "iat" = some (.num n)) (h : 60 < |now - n|)

/-- What Order Service may hold against a proof that Employee Service takes. -/
inductive JavaObjects (J : Jose) (now : Rat) (q : Presented) : Prop where
  | header (h : J.javaReads q.header = false)
  | payload (h : J.javaReads q.payload = false)
  | nimbusHeader (h : J.nimbusHeader (J.json q.header) = false)
  | nimbusCrit (h : J.nimbusCrit (J.json q.header) = false)
  | kty (h : q.kty ≠ .str "EC")
  | curve (h : q.crv ≠ .str "P-256")
  | nimbusClaims (h : J.nimbusClaims (J.json q.payload) = false)
  | iat (h : ∀ n, (J.json q.payload).get? "iat" ≠ some (.num n))
  | window {n : Rat} (hn : (J.json q.payload).get? "iat" = some (.num n)) (h : 60 < |now - dateSeconds n|)

section Objections

variable {J : Jose} {now : Rat} {q : Presented}

/-- ES256 goes with no other curve than P-256. -/
theorem curveAlgorithm_eq_es256 {crv : String} : curveAlgorithm crv = some "ES256" ↔ crv = "P-256" := by
  unfold curveAlgorithm
  split <;> simp_all

/-- A member that every check of the form `all` passes. -/
theorem all_of_forall {o : Option Json} {p : Json → Bool} (h : ∀ v, o = some v → p v = true) :
    o.all p = true := by
  cases o with
  | none => rfl
  | some v => exact h v rfl

theorem pyOnly_iff_of_java (hjava : JavaOnly J now q) : PyOnly J now q ↔ ¬ PythonObjects J now q := by
  obtain ⟨crv, x, y, alg, hcrv, -, hx, hy, halg, halgEq, hcurve, hverifies⟩ := hjava.key
  obtain ⟨n, hn, -⟩ := hjava.recent
  constructor
  · intro hpy hobjects
    obtain ⟨x', y', hx', hy', hreadsX, hreadsY, -, -⟩ := hpy.point
    cases hobjects with
    | header h => rw [hpy.readsHeader] at h; cases h
    | payload h => rw [hpy.readsPayload] at h; cases h
    | curve h =>
        have hes : alg = "ES256" :=
          Json.str.inj (Option.some.inj (halgEq.symm.trans hpy.decodes.alg))
        rw [hes] at halg
        rw [hcrv, curveAlgorithm_eq_es256.mp halg] at h
        exact h rfl
    | x hx'' h =>
        cases Json.str.inj (hx'.symm.trans hx'')
        rw [hreadsX] at h
        cases h
    | y hy'' h =>
        cases Json.str.inj (hy'.symm.trans hy'')
        rw [hreadsY] at h
        cases h
    | pyjwt h => exact h hpy.decodes.noError
    | iat h => exact h hpy.decodes.iat
    | nbf h => exact h hpy.decodes.nbf
    | aud hv h =>
        have haud := hpy.decodes.aud
        rw [hv] at haud
        simp [h] at haud
    | sub hv h =>
        have hsub := hpy.decodes.sub
        rw [hv] at hsub
        simp [h] at hsub
    | jti hv h =>
        have hjti := hpy.decodes.jti
        rw [hv] at hjti
        simp [h] at hjti
    | window hn' h =>
        obtain ⟨m, hm, hrecent⟩ := hpy.recent
        rw [hn'] at hm
        cases Except.ok.inj hm
        exact absurd hrecent (not_le.mpr h)
  · intro hnone
    have hcrv256 : q.crv = .str "P-256" := not_not.mp fun h => hnone (.curve h)
    have hcrvEq : crv = "P-256" := Json.str.inj (hcrv.symm.trans hcrv256)
    subst hcrvEq
    have halg256 : alg = "ES256" := Option.some.inj (halg.symm.trans rfl)
    constructor
    · exact eq_true_of_ne_false fun h => hnone (.header h)
    · exact eq_true_of_ne_false fun h => hnone (.payload h)
    · exact ⟨x, y, hx, hy, eq_true_of_ne_false fun h => hnone (.x hx h),
        eq_true_of_ne_false fun h => hnone (.y hy h), hcurve, hverifies⟩
    · constructor
      · exact not_not.mp fun h => hnone (.pyjwt h)
      · rw [halgEq, halg256]
      · exact Employee.isObject_of_get? hn
      · exact not_not.mp fun h => hnone (.iat h)
      · exact not_not.mp fun h => hnone (.nbf h)
      · apply all_of_forall
        intro v hv
        rw [Bool.not_eq_true']
        exact eq_false_of_ne_true fun h => hnone (.aud hv h)
      · apply all_of_forall
        intro v hv
        exact Option.isSome_iff_ne_none.mpr fun h => hnone (.sub hv h)
      · apply all_of_forall
        intro v hv
        exact Option.isSome_iff_ne_none.mpr fun h => hnone (.jti hv h)
    · refine ⟨n, ?_, not_lt.mp fun h => hnone (.window hn h)⟩
      rw [hn]
      rfl

theorem javaOnly_iff_of_python (hpy : PyOnly J now q) : JavaOnly J now q ↔ ¬ JavaObjects J now q := by
  obtain ⟨x, y, hx, hy, -, -, hcurve, hverifies⟩ := hpy.point
  constructor
  · intro hjava hobjects
    obtain ⟨crv, x', y', alg, hcrv, hkty, -, -, halg, halgEq, -, -⟩ := hjava.key
    obtain ⟨n, hn, hrecent⟩ := hjava.recent
    cases hobjects with
    | header h => rw [hjava.readsHeader] at h; cases h
    | payload h => rw [hjava.readsPayload] at h; cases h
    | nimbusHeader h => rw [hjava.header] at h; cases h
    | nimbusCrit h => rw [hjava.crit] at h; cases h
    | kty h => exact h hkty
    | curve h =>
        have hes : alg = "ES256" :=
          Json.str.inj (Option.some.inj (halgEq.symm.trans hpy.decodes.alg))
        rw [hes] at halg
        rw [hcrv, curveAlgorithm_eq_es256.mp halg] at h
        exact h rfl
    | nimbusClaims h => rw [hjava.claims] at h; cases h
    | iat h => exact h n hn
    | window hn' h =>
        cases Option.some.inj (hn.symm.trans hn')
        exact absurd hrecent (not_le.mpr h)
  · intro hnone
    have hcrv : q.crv = .str "P-256" := not_not.mp fun h => hnone (.curve h)
    have hkty : q.kty = .str "EC" := not_not.mp fun h => hnone (.kty h)
    constructor
    · exact eq_true_of_ne_false fun h => hnone (.header h)
    · exact eq_true_of_ne_false fun h => hnone (.payload h)
    · exact eq_true_of_ne_false fun h => hnone (.nimbusHeader h)
    · exact eq_true_of_ne_false fun h => hnone (.nimbusCrit h)
    · exact ⟨"P-256", x, y, "ES256", hcrv, hkty, hx, hy, rfl, hpy.decodes.alg, hcurve, hverifies⟩
    · exact eq_true_of_ne_false fun h => hnone (.nimbusClaims h)
    · obtain ⟨n, hn⟩ : ∃ n, (J.json q.payload).get? "iat" = some (.num n) := by
        by_contra h
        exact hnone (.iat fun n hn => h ⟨n, hn⟩)
      exact ⟨n, hn, not_lt.mp fun h => hnone (.window hn h)⟩

/-- The services agree on a proof when neither objects to what the other one takes. -/
theorem pyOnly_iff_javaOnly : (PyOnly J now q ↔ JavaOnly J now q) ↔
    (JavaOnly J now q → ¬ PythonObjects J now q) ∧ (PyOnly J now q → ¬ JavaObjects J now q) := by
  constructor
  · intro h
    constructor
    · intro hjava
      exact (pyOnly_iff_of_java hjava).mp (h.mpr hjava)
    · intro hpy
      exact (javaOnly_iff_of_python hpy).mp (h.mp hpy)
  · rintro ⟨hjavaTakes, hpyTakes⟩
    constructor
    · intro hpy
      exact (javaOnly_iff_of_python hpy).mpr (hpyTakes hpy)
    · intro hjava
      exact (pyOnly_iff_of_java hjava).mpr (hjavaTakes hjava)

end Objections

/-! ## Requests -/

variable (J : Jose) (now : Rat)

/-- The condition where `cnf` is an object. -/
def AgreesOnObject (r : Request) (members : List (String × Json)) (accessToken : String) : Prop :=
  match Json.member? "jkt" members with
  | some .null => False
  | some (.str jkt) =>
      ∀ q, Shared J r r.url jkt accessToken q →
        (JavaOnly J now q → ¬ PythonObjects J now q) ∧ (PyOnly J now q → ¬ JavaObjects J now q)
  | _ => True

/-- The condition on a request and the claims of its token under which the validators agree. -/
def Agrees (r : Request) (claims : List (String × Json)) (accessToken : String) : Prop :=
  match Json.member? "cnf" claims with
  | none | some .null => True
  | some (.obj members) => AgreesOnObject J now r members accessToken
  | some cnf => isBound cnf ≠ .ok false

section Requests

variable {J now} {starlette : Starlette} {r : Request} {claims : List (String × Json)} {accessToken : String}

theorem takenForUnbound_iff {cnf : Json} (hcnf : Json.member? "cnf" claims = some cnf) :
    Employee.TakenForUnbound claims ↔ isBound cnf = .ok false := by
  unfold Employee.TakenForUnbound
  rw [hcnf]
  simp only [Option.some.injEq, forall_eq']

/-- Employee Service compares `jkt` with a string, so nothing passes where it is anything else. -/
theorem validateDpop_of_not_str {cnf jkt : Json} (hcnf : Json.member? "cnf" claims = some cnf)
    (hjkt : cnf.get? "jkt" = some jkt) (hstr : ∀ t, jkt ≠ .str t) :
    validateDpop J starlette now r claims accessToken ≠ .ok () := by
  intro hok
  rcases Employee.validateDpop_eq_ok_iff.mp hok with h | ⟨cnf', q, t, hcnf', hjkt', -, -⟩
  · rw [takenForUnbound_iff hcnf, Employee.isBound_of_jkt hjkt] at h
    cases h
  · cases Option.some.inj (hcnf.symm.trans hcnf')
    exact hstr t (Option.some.inj (hjkt.symm.trans hjkt'))

theorem agree_on_object {members : List (String × Json)} (hurl : seenUrl starlette r = r.url)
    (hcnf : Json.member? "cnf" claims = some (.obj members)) :
    (validateDpop J starlette now r claims accessToken = .ok () ↔
      doFilter J now r (some (.obj members)) accessToken = .chain) ↔
      AgreesOnObject J now r members accessToken := by
  unfold AgreesOnObject
  cases hjkt : Json.member? "jkt" members with
  | none =>
      -- Both take the token for unbound.
      have hfalse : isBound (.obj members) = .ok false := by
        cases members with
        | nil => rfl
        | cons m rest =>
            simp only [isBound, truthy, Employee.contains, hjkt]
            rfl
      refine iff_of_true (iff_of_true ?_ ?_) trivial
      · exact Employee.validateDpop_eq_ok_iff.mpr (Or.inl ((takenForUnbound_iff hcnf).mpr hfalse))
      · simp only [doFilter, hjkt]
  | some jkt =>
      cases jkt with
      | null =>
          have hstr : ∀ t, Json.null ≠ .str t := fun t h => by cases h
          refine iff_of_false (fun h => validateDpop_of_not_str hcnf hjkt hstr (h.mpr ?_)) id
          simp only [doFilter, hjkt]
      | str t =>
          rw [Employee.validateDpop_of_jkt hcnf hjkt, Gekko.Ordering.doFilter_of_jkt hjkt, hurl]
          constructor
          · intro h q hshared
            rw [← pyOnly_iff_javaOnly]
            constructor
            · intro hpy
              obtain ⟨q', hshared', hjava⟩ := h.mp ⟨q, hshared, hpy⟩
              exact hshared.unique hshared' ▸ hjava
            · intro hjava
              obtain ⟨q', hshared', hpy⟩ := h.mpr ⟨q, hshared, hjava⟩
              exact hshared.unique hshared' ▸ hpy
          · intro h
            refine exists_congr fun q => and_congr_right fun hshared => ?_
            exact pyOnly_iff_javaOnly.mpr (h q hshared)
      | _ =>
          have hpy : validateDpop J starlette now r claims accessToken ≠ .ok () := by
            apply validateDpop_of_not_str hcnf hjkt
            intro t h
            cases h
          refine iff_of_true (iff_of_false hpy ?_) trivial
          simp [doFilter, hjkt]

/-- **The two validators let the same requests through exactly where `Agrees` holds**, for a URL without
    escapes in which Employee Service escapes nothing. -/
theorem agree_iff (horigin : '?' ∉ r.origin.toList) (hescape : Percent.hasEscape r.path = false)
    (hkept : ∀ b ∈ r.path, Requote.keeps starlette.requoted b = true) :
    (validateDpop J starlette now r claims accessToken = .ok () ↔
      doFilter J now r (Json.member? "cnf" claims) accessToken = .chain) ↔
      Agrees J now r claims accessToken := by
  unfold Agrees
  cases hcnf : Json.member? "cnf" claims with
  | none =>
      refine iff_of_true (iff_of_true (Employee.validateDpop_eq_ok_iff.mpr (Or.inl ?_)) rfl) trivial
      intro cnf h
      rw [hcnf] at h
      cases h
  | some cnf =>
      cases cnf with
      | obj members => exact agree_on_object (Employee.seenUrl_eq_url horigin hescape hkept) hcnf
      | null =>
          refine iff_of_true (iff_of_true ?_ rfl) trivial
          exact Employee.validateDpop_eq_ok_iff.mpr (Or.inl ((takenForUnbound_iff hcnf).mpr rfl))
      | _ =>
          -- The filter raises, so agreement means that Employee Service lets nothing through.
          rw [Employee.validateDpop_eq_ok_iff, takenForUnbound_iff hcnf]
          simp [doFilter, hcnf, Json.get?]

end Requests

/-! ## A clock that is ahead -/

/-- The two services on the sample proof, by the clock of the service. -/
theorem alice_passes_iff :
    (validateDpop sampleJose .escaping now aliceRequest sampleClaims sampleToken = .ok () ↔
      sampleNow ≤ now ∧ |now - sampleNow| ≤ 60) ∧
    (doFilter sampleJose now aliceRequest (some (.obj sampleCnf)) sampleToken = .chain ↔
      |now - sampleNow| ≤ 60) := by
  have hurl : aliceRequest.url = "http://localhost:8084/employees/alice" := by decide +kernel
  have hseen : seenUrl .escaping aliceRequest = aliceRequest.url := by decide +kernel
  have hfits := Frontend.fits_sample 0 (r := aliceRequest) rfl hurl.symm
  rw [Frontend.validateDpop_signed (sampleProof 0) rfl rfl rfl,
    Frontend.doFilter_signed (sampleProof 0) rfl rfl, Frontend.iat_sampleProof, hseen]
  constructor
  · exact and_iff_right hfits
  · exact and_iff_right hfits

theorem kept_alice : ∀ b ∈ aliceRequest.path, Requote.keeps Starlette.escaping.requoted b = true := by
  decide +kernel

/-- The services agree on a fresh proof of the frontend. -/
theorem alice_agrees : Agrees sampleJose sampleNow aliceRequest sampleClaims sampleToken := by
  refine (agree_iff (by decide +kernel) (by decide +kernel) kept_alice).mp (iff_of_true ?_ ?_)
  · exact (alice_passes_iff _).1.mpr (by norm_num)
  · exact (alice_passes_iff _).2.mpr (by norm_num)

/-- **A proof from a clock that is thirty seconds ahead** divides them: Order Service takes it, and
    PyJWT refuses an issue time in the future. -/
theorem alice_divides :
    doFilter sampleJose (sampleNow - 30) aliceRequest (Json.member? "cnf" sampleClaims) sampleToken = .chain ∧
      validateDpop sampleJose .escaping (sampleNow - 30) aliceRequest sampleClaims sampleToken ≠ .ok () := by
  constructor
  · exact (alice_passes_iff _).2.mpr (by norm_num [abs_le])
  · rw [Ne, (alice_passes_iff _).1]
    norm_num

end Gekko.Dpop
