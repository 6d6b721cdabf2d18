import Gekko.Lib.CacheLineage
import Gekko.Ordering.TokenExchange


/-! # `Gekko.Frontend.TokenExchange` — until when the two caches serve an exchanged token

`exchangeForAudience` keeps the exchanged tokens of a session in the session, by audience;
`TokenExchangeClient` of Order Service keeps those of all users together. Both take
`CACHE_SAFETY_MARGIN_SECONDS` off the lifetime that Keycloak gives with a token, and count what is left
from the moment its answer is in. So the margin is what the answer may take on the way.

The two differ in the subtraction. JavaScript's is one of numbers, Java's is one of `int`s, which wraps
for the five least of them.
-/

namespace Gekko.Frontend

open Machine TimedCache

/-! ## The cache of a session -/

/-- The arguments of `exchangeForAudience`. A session is named by its id. -/
structure ExchangeArgs where
  session : String
  audience : String
  scope : String
  deriving DecidableEq, Repr

/-- An entry is found in the map of its session, under its audience. -/
def cacheKey (args : ExchangeArgs) : String × String := (args.session, args.audience)

/-- `CACHE_SAFETY_MARGIN_SECONDS`. -/
def cacheSafetyMarginSeconds : Int := 5

/-- `expiresAt`, in milliseconds. -/
def exchangeExpiry (now expiresIn : Int) : Int := now + (expiresIn - cacheSafetyMarginSeconds) * 1000

/-- Concurrent calls of `exchangeForAudience`, by the requests of any number of sessions. -/
abbrev ExchangeState := TimedCache.State ExchangeArgs (String × String) String Int

abbrev ExchangeAction := TimedCache.Action ExchangeArgs String Int

def exchangeStep : ExchangeState → ExchangeAction → Option ExchangeState :=
  TimedCache.step cacheKey exchangeExpiry

/-! ## The margin -/

section Margin

variable {ρ κ τ : Type} [DecidableEq κ]

/-- A token that is served at the time `now` for an audience, and what a run `as` has to say for it:
    some call for that audience got it from Keycloak in the state `u` and stored it in the state `w`.
    Times count in units of which a second has `second`. -/
def Vouched (step : TimedCache.State ρ κ String τ → TimedCache.Action ρ String τ →
    Option (TimedCache.State ρ κ String τ)) (audienceOf : ρ → String) (seconds : τ → Int) (second : Int)
    (s₀ : TimedCache.State ρ κ String τ) (as : List (TimedCache.Action ρ String τ)) (now : Int)
    (audience token : String) : Prop :=
  ∃ j expiresIn u w d, Takes step s₀ as (.issue j token expiresIn) u ∧ u.calls[j]? = some d ∧
    audienceOf d.request = audience ∧ Takes step s₀ as (.put j) w ∧ u.now ≤ w.now ∧
    (w.now - u.now ≤ 5 * second → now < u.now + seconds expiresIn * second) ∧ 5 < seconds expiresIn

variable {key : ρ → κ} {expiry : Int → τ → Int} {audienceOf : ρ → String} {seconds : τ → Int} {second : Int}

/-- The expiry times that a cache computes vouch for what it serves, when they are the end of the
    lifetime less five seconds, counted from when they are computed. -/
theorem vouched_of_serves (hkey : ∀ x y, key x = key y → audienceOf x = audienceOf y) (hsecond : 0 < second)
    {now : Int} {as : List (TimedCache.Action ρ String τ)} {s : TimedCache.State ρ κ String τ}
    (hexpiry : ∀ j token expiresIn, .issue j token expiresIn ∈ as →
      ∀ at', expiry at' expiresIn = at' + (seconds expiresIn - 5) * second)
    (hrun : run (TimedCache.step key expiry) (start now) as = some s) {i : Nat} {request : ρ} {token : String}
    (h : Serves key expiry s i request token) :
    Vouched (TimedCache.step key expiry) audienceOf seconds second (start now) as s.now (audienceOf request)
      token := by
  obtain ⟨entry, rfl, htime, j, expiresIn, u, w, stampedAt, ⟨hissue, d, hd, hdkey⟩, hput, hstamp, hstored, hw,
    hentry⟩ := served_lineage hrun h
  have hexpires := hexpiry j entry.value expiresIn hissue.mem stampedAt
  rw [hentry, hexpires] at htime
  have hsplit : (seconds expiresIn - 5) * second = seconds expiresIn * second - 5 * second :=
    Int.sub_mul _ _ _
  refine ⟨j, expiresIn, u, w, d, hissue, hd, hkey _ _ hdkey, hput, hstamp.trans hstored, ?_, ?_⟩
  · intro hmargin
    omega
  · -- The entry is served no earlier than its expiry time was computed, so something was left of the
    -- lifetime.
    have hleft : 0 < (seconds expiresIn - 5) * second := by omega
    have hpos := Int.pos_of_mul_pos_left hleft hsecond
    omega

end Margin

/-- What `exchangeForAudience` returns from the cache. -/
theorem exchangeForAudience_vouched {now : Int} {as : List ExchangeAction} {s : ExchangeState}
    (hrun : run exchangeStep (start now) as = some s) {i : Nat} {request : ExchangeArgs} {token : String}
    (h : Serves cacheKey exchangeExpiry s i request token) :
    Vouched exchangeStep ExchangeArgs.audience id 1000 (start now) as s.now request.audience token := by
  refine vouched_of_serves (fun x y hkey => ?_) (by decide) (fun _ _ _ _ _ => rfl) hrun h
  exact congrArg Prod.snd hkey

/-- The difference does not wrap. -/
def Subtractable (expiresIn : Int32) : Prop := -2147483643 ≤ expiresIn.toInt

theorem exchangeExpiry_of_subtractable {expiresIn : Int32} (h : Subtractable expiresIn) (now : Int) :
    Ordering.exchangeExpiry now expiresIn = now + (expiresIn.toInt - 5) * Ordering.second := by
  have hlt := Int32.toInt_lt expiresIn
  have hmargin : Ordering.cacheSafetyMarginSeconds.toInt = 5 := rfl
  unfold Ordering.exchangeExpiry
  rw [Int32.toInt_sub, hmargin, Int.bmod_eq_of_le]
  · unfold Subtractable at h
    omega
  · omega

/-- What `exchange` of Order Service returns from the cache. -/
theorem exchange_vouched {now : Int} {as : List Ordering.ExchangeAction} {s : Ordering.ExchangeState}
    (has : ∀ j token expiresIn, .issue j token expiresIn ∈ as → Subtractable expiresIn)
    (hrun : run Ordering.exchangeStep (start now) as = some s) {i : Nat} {request : Ordering.ExchangeArgs}
    {token : String} (h : Serves Ordering.cacheKey Ordering.exchangeExpiry s i request token) :
    Vouched Ordering.exchangeStep Ordering.ExchangeArgs.audience Int32.toInt Ordering.second
      (start now) as s.now request.audience token := by
  refine vouched_of_serves (fun x y hkey => ?_) (by decide) ?_ hrun h
  · exact congrArg Ordering.CacheKey.audience hkey
  · exact fun j token expiresIn hmem at' => exchangeExpiry_of_subtractable (has j token expiresIn hmem) at'

/-- **No cache serves a token past its end.** In every run of concurrent calls, a token that either
    cache serves was issued for the audience of the call that gets it, with a lifetime above the margin;
    and when it was stored within the margin of its issue, it has not expired. Of Order Service's cache
    this needs lifetimes from which the margin can be subtracted. -/
theorem served_vouched {now now' : Int} {as : List ExchangeAction} {s : ExchangeState}
    {bs : List Ordering.ExchangeAction} {t : Ordering.ExchangeState}
    (hfrontend : run exchangeStep (start now) as = some s)
    (horder : run Ordering.exchangeStep (start now') bs = some t)
    (hbs : ∀ j token expiresIn, .issue j token expiresIn ∈ bs → Subtractable expiresIn) :
    (∀ i request token, Serves cacheKey exchangeExpiry s i request token →
      Vouched exchangeStep ExchangeArgs.audience id 1000 (start now) as s.now request.audience token) ∧
    ∀ i request token, Serves Ordering.cacheKey Ordering.exchangeExpiry t i request token →
      Vouched Ordering.exchangeStep Ordering.ExchangeArgs.audience Int32.toInt Ordering.second (start now') bs
        t.now request.audience token := by
  constructor
  · intro i request token hserves
    exact exchangeForAudience_vouched hfrontend hserves
  · intro i request token hserves
    exact exchange_vouched hbs horder hserves

/-! ## A token of the past -/

/-- A call gets a token with the lifetime `expiresIn` from Keycloak, and an hour later a second call looks. -/
def anHourLater (expiresIn : Int32) : List Ordering.ExchangeAction :=
  [.call ⟨Ordering.sampleJwt (some "j1") (some "u1"), "inventory-service", "inventory"⟩, .look 0, .decide 0,
    .issue 0 "token" expiresIn, .stamp 0, .put 0, .tick 3600000000000,
    .call ⟨Ordering.sampleJwt (some "j1") (some "u1"), "inventory-service", "inventory"⟩, .look 1]

/-- The same two calls, of the frontend, a minute apart. -/
def aMinuteLater (expiresIn : Int) : List ExchangeAction :=
  [.call ⟨"session", "order-service", "order-audience"⟩, .look 0, .decide 0, .issue 0 "token" expiresIn,
   .stamp 0, .put 0, .tick 60000, .call ⟨"session", "order-service", "order-audience"⟩, .look 1]

/-- Tokens for two hours are served an hour and a minute later, and both are vouched for. -/
theorem twoHours_vouched :
    (∃ s, run exchangeStep (start 0) (aMinuteLater 7200) = some s ∧
      Vouched exchangeStep ExchangeArgs.audience id 1000 (start 0) (aMinuteLater 7200) s.now "order-service"
        "token") ∧
    ∃ s, run Ordering.exchangeStep (start 0) (anHourLater 7200) = some s ∧
      Vouched Ordering.exchangeStep Ordering.ExchangeArgs.audience Int32.toInt Ordering.second (start 0)
        (anHourLater 7200) s.now "inventory-service" "token" := by
  have hlifetime : ∀ j token expiresIn, .issue j token expiresIn ∈ anHourLater 7200 →
      Subtractable expiresIn := by
    intro j token expiresIn hmem
    have hexpires : expiresIn = 7200 := by simp_all [anHourLater]
    rw [hexpires]
    unfold Subtractable
    decide
  obtain ⟨hfrontend, horder⟩ :=
    @served_vouched 0 0 (aMinuteLater 7200) _ (anHourLater 7200) _ rfl rfl hlifetime
  constructor
  · exact ⟨_, rfl, hfrontend 1 ⟨"session", "order-service", "order-audience"⟩ "token"
      ⟨_, _, rfl, rfl, rfl, rfl⟩⟩
  · exact ⟨_, rfl, horder 1 ⟨Ordering.sampleJwt (some "j1") (some "u1"), "inventory-service", "inventory"⟩
      "token" ⟨_, _, rfl, rfl, rfl, rfl⟩⟩

/-- **The least `int`.** Order Service's cache serves a token whose lifetime is far below the margin: from
    `-2147483648` the margin is not subtracted but a lifetime of 68 years made. -/
theorem least_expiresIn_served :
    ¬ ∀ (now : Int) (as : List Ordering.ExchangeAction) (s : Ordering.ExchangeState) (i : Nat)
        (request : Ordering.ExchangeArgs) (token : String),
      run Ordering.exchangeStep (start now) as = some s →
      Serves Ordering.cacheKey Ordering.exchangeExpiry s i request token →
      Vouched Ordering.exchangeStep Ordering.ExchangeArgs.audience Int32.toInt Ordering.second (start now) as
        s.now request.audience token := by
  intro hall
  obtain ⟨j, expiresIn, u, w, d, hissue, -, -, -, -, -, hpos⟩ :=
    hall 0 (anHourLater (-2147483648)) _ 1
      ⟨Ordering.sampleJwt (some "j1") (some "u1"), "inventory-service", "inventory"⟩ "token" rfl
      ⟨_, _, rfl, rfl, rfl, rfl⟩
  have hmem := hissue.mem
  have hexpires : expiresIn = -2147483648 := by simp_all [anHourLater]
  rw [hexpires] at hpos
  exact absurd hpos (by decide)

end Gekko.Frontend
