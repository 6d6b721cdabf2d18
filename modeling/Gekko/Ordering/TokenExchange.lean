import Gekko.Lib.TimedCache
import Gekko.Ordering.Security

/-!
# `Gekko.Ordering.TokenExchange` — whose token a call of `exchange` gets

`TokenExchangeClient` is one object for all requests, and its cache is keyed by the `jti` of the subject token
and the audience. It is the cache of `Gekko.Lib.TimedCache` with that key, where Keycloak is the issuer. A key
with a `jti` names one token, and so one user. A key without one is shared by every token that has none.
-/

namespace Gekko.Ordering

open Machine TimedCache

/-- The arguments of `exchange`. -/
structure ExchangeArgs where
  subjectJwt : Jwt
  audience : String
  scope : String

/-- `record CacheKey`: `getId` is `null` for a token without a `jti`. -/
structure CacheKey where
  subjectJti : Option String
  audience : String
  deriving DecidableEq, Repr

def cacheKey (args : ExchangeArgs) : CacheKey := ⟨args.subjectJwt.id, args.audience⟩

/-- `CACHE_SAFETY_MARGIN_SECONDS`. -/
def cacheSafetyMarginSeconds : Int32 := 5

/-- The expiry time that a response with this `expires_in` gets. The difference is one of `int`s. -/
def exchangeExpiry (now : Int) (expiresIn : Int32) : Int :=
  now + (expiresIn - cacheSafetyMarginSeconds).toInt * second

/-- Concurrent calls of `exchange`, against Keycloak as the issuer of access tokens. -/
abbrev ExchangeState := TimedCache.State ExchangeArgs CacheKey String Int32

abbrev ExchangeAction := TimedCache.Action ExchangeArgs String Int32

def exchangeStep : ExchangeState → ExchangeAction → Option ExchangeState :=
  TimedCache.step cacheKey exchangeExpiry

/-- Tokens that share a `jti` are the same token. -/
def SameToken (calls : List ExchangeArgs) : Prop :=
  ∀ x ∈ calls, ∀ y ∈ calls, ∀ jti, x.subjectJwt.id = some jti → y.subjectJwt.id = some jti →
    x.subjectJwt = y.subjectJwt

/-- Tokens without a `jti` that are exchanged for the same audience belong to the same user. -/
def NoSharedNull (calls : List ExchangeArgs) : Prop :=
  ∀ x ∈ calls, ∀ y ∈ calls, x.audience = y.audience → x.subjectJwt.id = none → y.subjectJwt.id = none →
    x.subjectJwt.subject = y.subjectJwt.subject

/-- Keycloak issued the token for this audience, in an exchange of a token of this subject. -/
def IssuedTo (t : ExchangeState) (token audience : String) (subject : Option String) : Prop :=
  ∃ x ∈ t.issues, x.value = token ∧ x.request.audience = audience ∧ x.request.subjectJwt.subject = subject

/-- Under the two conditions, calls with the same key are for the same audience and user. -/
theorem same_of_cacheKey {calls : List ExchangeArgs} (hsame : SameToken calls) (hnull : NoSharedNull calls)
    {x y : ExchangeArgs} (hx : x ∈ calls) (hy : y ∈ calls) (hkey : cacheKey x = cacheKey y) :
    x.audience = y.audience ∧ x.subjectJwt.subject = y.subjectJwt.subject := by
  have hjti : x.subjectJwt.id = y.subjectJwt.id := congrArg CacheKey.subjectJti hkey
  have haudience : x.audience = y.audience := congrArg CacheKey.audience hkey
  refine ⟨haudience, ?_⟩
  cases hid : x.subjectJwt.id with
  | none => exact hnull x hx y hy haudience hid (hjti.symm.trans hid)
  | some jti => rw [hsame x hx y hy jti hid (hjti.symm.trans hid)]

/-- **A call gets a token of its own user.** In every run of concurrent calls, with any hits, misses, failures
    and delays, what a call returns was issued for its audience in an exchange of a token with its own `sub`,
    as long as no two users exchange tokens without a `jti` for the same audience. -/
theorem returned_issuedTo {now : Int} {as : List ExchangeAction} {t : ExchangeState}
    {c : TimedCache.Call ExchangeArgs String Int32} {token : String}
    (hsame : SameToken (requests as)) (hnull : NoSharedNull (requests as))
    (hrun : run exchangeStep (start now) as = some t) (hc : c ∈ t.calls)
    (htoken : c.phase = .returned token) :
    IssuedTo t token c.request.audience c.request.subjectJwt.subject := by
  obtain ⟨x, hx, hvalue, hkey⟩ := provenance hrun hc htoken
  have hrequests := requestsIn_run hrun
  obtain ⟨haudience, hsubject⟩ :=
    same_of_cacheKey hsame hnull (hrequests.issues x hx) (hrequests.calls c hc) hkey
  exact ⟨x, hx, hvalue, haudience, hsubject⟩

/-! ## Two users, one key -/

/-- A token that Order Service accepts. -/
def sampleJwt (id subject : Option String) : Jwt where
  tokenValue := "token"
  id := id
  subject := subject
  issuer := some "http://localhost:8080/realms/gekko"
  audience := some ["order-service"]
  expiresAt := some (300 * second)
  notBefore := none
  cnf := none

/-- One user's call fetches a token; another user's call follows. -/
def twoUsers (first second : Jwt) : List ExchangeAction :=
  [.call ⟨first, "inventory-service", "inventory"⟩, .look 0, .decide 0, .issue 0 "token-of-u1" 60, .stamp 0,
    .put 0, .call ⟨second, "inventory-service", "inventory"⟩, .look 1, .decide 1]

/-- Without a `jti`, the second user gets the first one's token. -/
theorem withoutJti_returns_other_users_token :
    accepts "http://localhost:8080/realms/gekko" 0 (sampleJwt none (some "u1")) = true ∧
    accepts "http://localhost:8080/realms/gekko" 0 (sampleJwt none (some "u2")) = true ∧
    ∃ t, run exchangeStep (start 0) (twoUsers (sampleJwt none (some "u1")) (sampleJwt none (some "u2")))
        = some t ∧
      t.calls.map (fun c => (c.request.subjectJwt.subject, c.phase))
        = [(some "u1", .returned "token-of-u1"), (some "u2", .returned "token-of-u1")] ∧
      ¬ IssuedTo t "token-of-u1" "inventory-service" (some "u2") := by
  refine ⟨by decide +kernel, by decide +kernel, ?_⟩
  have hobs : (run exchangeStep (start 0)
      (twoUsers (sampleJwt none (some "u1")) (sampleJwt none (some "u2")))).map (fun t =>
        (t.calls.map (fun c => (c.request.subjectJwt.subject, c.phase)),
          t.issues.map (·.request.subjectJwt.subject)))
      = some ([(some "u1", .returned "token-of-u1"), (some "u2", .returned "token-of-u1")], [some "u1"]) := by
    decide +kernel
  obtain ⟨t, hrun, ht⟩ := Option.map_eq_some_iff.mp hobs
  have hcalls := congrArg Prod.fst ht
  have hissues := congrArg Prod.snd ht
  refine ⟨t, hrun, hcalls, ?_⟩
  rintro ⟨x, hx, -, -, hsubject⟩
  have hmem : some "u2" ∈ t.issues.map (·.request.subjectJwt.subject) :=
    List.mem_map.mpr ⟨x, hx, hsubject⟩
  rw [show t.issues.map (·.request.subjectJwt.subject) = [some "u1"] from hissues] at hmem
  exact absurd hmem (by decide)

/-- With a `jti`, a second call that hits the cache gets a token of its own user. -/
theorem withJti_issuedTo :
    ∃ t c, run exchangeStep (start 0)
        (twoUsers (sampleJwt (some "j1") (some "u1")) (sampleJwt (some "j1") (some "u1"))) = some t ∧
      t.calls[1]? = some c ∧ c.phase = .returned "token-of-u1" ∧
      IssuedTo t "token-of-u1" c.request.audience c.request.subjectJwt.subject := by
  have hobs : (run exchangeStep (start 0)
      (twoUsers (sampleJwt (some "j1") (some "u1")) (sampleJwt (some "j1") (some "u1")))).map
        (fun t => t.calls[1]?.map (·.phase)) = some (some (.returned "token-of-u1")) := by
    decide +kernel
  obtain ⟨t, hrun, ht⟩ := Option.map_eq_some_iff.mp hobs
  obtain ⟨c, hc, hphase⟩ := Option.map_eq_some_iff.mp ht
  refine ⟨t, c, hrun, hc, hphase, returned_issuedTo ?_ ?_ hrun (List.mem_of_getElem? hc) hphase⟩
  · simp [SameToken, requests, twoUsers]
  · simp [NoSharedNull, requests, twoUsers]

end Gekko.Ordering
