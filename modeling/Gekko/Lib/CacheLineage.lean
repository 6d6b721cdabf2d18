import Gekko.Lib.TimedCache


/-! # `Gekko.Lib.CacheLineage` — which fetch a served value goes back to

The cache of `Gekko.Lib.TimedCache` computes the expiry time of an entry when it has the answer of the
issuer, which can be long after the issuer gave it. So what an expiry time says about the value depends
on three moments: the issue, the computation and the store. `served_lineage` names them for every value
that is served: one call with the same key got the value from the issuer, computed the expiry time and
stored the entry, in that order, and the expiry time is still ahead.
-/

namespace TimedCache

open Machine

variable {ρ κ ν τ : Type*} [DecidableEq κ] (key : ρ → κ) (expiry : Int → τ → Int)

/-- In the run `as` from `s₀`, call `j`, with a request for the key `k`, gets the value from the issuer
in `u`. -/
def Fetched (s₀ : State ρ κ ν τ) (as : List (Action ρ ν τ)) (k : κ) (j : Nat) (value : ν) (lifetime : τ)
    (u : State ρ κ ν τ) : Prop :=
  Takes (step key expiry) s₀ as (.issue j value lifetime) u ∧ ∃ d, u.calls[j]? = some d ∧ key d.request = k

/-- The entry was fetched for the key and stored by one call of the run, no later than `now`. -/
def Stored (s₀ : State ρ κ ν τ) (as : List (Action ρ ν τ)) (now : Int) (k : κ) (entry : Entry ν) : Prop :=
  ∃ j lifetime u w, ∃ stampedAt : Int, Fetched key expiry s₀ as k j entry.value lifetime u ∧
    Takes (step key expiry) s₀ as (.put j) w ∧ u.now ≤ stampedAt ∧ stampedAt ≤ w.now ∧ w.now ≤ now ∧
    entry.expiresAt = expiry stampedAt lifetime

/-- What the phase of call `j` owes to the run. -/
def Phase.Timed (s₀ : State ρ κ ν τ) (as : List (Action ρ ν τ)) (now : Int) (k : κ) (j : Nat) :
    Phase ν τ → Prop
  | .looked (some entry) => Stored key expiry s₀ as now k entry
  | .answered value lifetime => ∃ u, Fetched key expiry s₀ as k j value lifetime u ∧ u.now ≤ now
  | .stamped entry =>
      ∃ lifetime u, ∃ stampedAt : Int, Fetched key expiry s₀ as k j entry.value lifetime u ∧
        u.now ≤ stampedAt ∧ stampedAt ≤ now ∧ entry.expiresAt = expiry stampedAt lifetime
  | .started | .looked none | .fetching | .returned _ | .failed => True

/-- The invariant: every entry, in the cache or in the hands of a call, has its moments in the run so far. -/
structure Timed (s₀ : State ρ κ ν τ) (as : List (Action ρ ν τ)) (s : State ρ κ ν τ) : Prop where
  cache : ∀ k entry, s.cache k = some entry → Stored key expiry s₀ as s.now k entry
  calls : ∀ j (c : Call ρ ν τ), s.calls[j]? = some c → c.phase.Timed key expiry s₀ as s.now (key c.request) j

variable {key expiry} {s₀ s s' t u : State ρ κ ν τ} {as : List (Action ρ ν τ)} {a : Action ρ ν τ}
  {now now' : Int} {k : κ} {j : Nat}

/-! ## The run goes on -/

theorem Fetched.append {value : ν} {lifetime : τ} (h : Fetched key expiry s₀ as k j value lifetime u)
    (bs : List (Action ρ ν τ)) : Fetched key expiry s₀ (as ++ bs) k j value lifetime u :=
  ⟨h.1.append bs, h.2⟩

theorem Stored.append {entry : Entry ν} (h : Stored key expiry s₀ as now k entry) (bs : List (Action ρ ν τ))
    (hnow : now ≤ now') : Stored key expiry s₀ (as ++ bs) now' k entry := by
  obtain ⟨j, lifetime, u, w, stampedAt, hfetched, hput, hstamp, hstored, hw, hexpiry⟩ := h
  exact ⟨j, lifetime, u, w, stampedAt, hfetched.append bs, hput.append bs, hstamp,
         hstored, hw.trans hnow, hexpiry⟩

theorem Phase.Timed.append {phase : Phase ν τ} (h : phase.Timed key expiry s₀ as now k j)
    (bs : List (Action ρ ν τ)) (hnow : now ≤ now') : phase.Timed key expiry s₀ (as ++ bs) now' k j := by
  cases phase with
  | started => trivial
  | looked entry =>
      cases entry with
      | none => trivial
      | some entry => exact Stored.append h bs hnow
  | fetching => trivial
  | answered value lifetime =>
      obtain ⟨u, hfetched, hu⟩ := h
      exact ⟨u, hfetched.append bs, hu.trans hnow⟩
  | stamped entry =>
      obtain ⟨lifetime, u, stampedAt, hfetched, hstamp, hle, hexpiry⟩ := h
      exact ⟨lifetime, u, stampedAt, hfetched.append bs, hstamp, hle.trans hnow, hexpiry⟩
  | returned value => trivial
  | failed => trivial

/-! ## The step of a call -/

/-- The new phase of the call that moves. -/
theorem timed_moved {i : Nat} {c : Call ρ ν τ} {phase : Phase ν τ}
    (hrun : run (step key expiry) s₀ as = some s)
    (hs : Timed key expiry s₀ as s) (hc : s.calls[i]? = some c) (h : Moved key expiry s i c a u phase) :
    phase.Timed key expiry s₀ (as ++ [a]) s.now (key c.request) i := by
  cases h with
  | looked =>
      cases hentry : s.cache (key c.request) with
      | none => trivial
      | some entry => exact (hs.cache _ entry hentry).append _ le_rfl
  | served entry hphase htime => trivial
  | missed => trivial
  | issued value lifetime => exact ⟨s, ⟨takes_last hrun _, c, hc, rfl⟩, le_rfl⟩
  | stamped value lifetime hphase =>
      -- The clock is read in this step, no earlier than the issue.
      have hanswered := hs.calls i c hc
      rw [hphase] at hanswered
      obtain ⟨u, hfetched, hu⟩ := hanswered
      exact ⟨lifetime, u, s.now, hfetched.append _, hu, le_rfl, rfl⟩
  | stored entry hphase => trivial
  | failed => trivial

/-- What the move of a call leaves in the cache. -/
theorem cache_moved {i : Nat} {c : Call ρ ν τ} {phase : Phase ν τ}
    (hrun : run (step key expiry) s₀ as = some s)
    (hs : Timed key expiry s₀ as s) (hc : s.calls[i]? = some c) (h : Moved key expiry s i c a u phase) :
    u.now = s.now ∧ ∀ k entry, u.cache k = some entry → Stored key expiry s₀ (as ++ [a]) s.now k entry := by
  have hkept : ∀ k entry, s.cache k = some entry → Stored key expiry s₀ (as ++ [a]) s.now k entry :=
    fun k entry hk => (hs.cache k entry hk).append _ le_rfl
  cases h with
  | looked => exact ⟨rfl, hkept⟩
  | served entry hphase htime => exact ⟨rfl, hkept⟩
  | missed => exact ⟨rfl, hkept⟩
  | issued value lifetime => exact ⟨rfl, hkept⟩
  | stamped value lifetime hphase => exact ⟨rfl, hkept⟩
  | stored entry hphase =>
      refine ⟨rfl, fun k e hk => ?_⟩
      have hk' : Function.update s.cache (key c.request) (some entry) k = some e := hk
      by_cases hkey : k = key c.request
      · subst hkey
        rw [Function.update_self] at hk'
        cases hk'
        have hstamped := hs.calls i c hc
        rw [hphase] at hstamped
        obtain ⟨lifetime, u, stampedAt, hfetched, hstamp, hle, hexpiry⟩ := hstamped
        exact ⟨i, lifetime, u, s, stampedAt, hfetched.append _, takes_last hrun _,
               hstamp, hle, le_rfl, hexpiry⟩
      · rw [Function.update_of_ne hkey] at hk'
        exact hkept k e hk'
  | failed => exact ⟨rfl, hkept⟩

/-- **Step lemma.** -/
theorem timed_step (hrun : run (step key expiry) s₀ as = some s) (hs : Timed key expiry s₀ as s)
    (h : step key expiry s a = some s') : Timed key expiry s₀ (as ++ [a]) s' := by
  rcases step_moved h with ⟨elapsed, -, rfl⟩ | ⟨request, -, rfl⟩ | ⟨i, c, u, phase, hc, hmoved, rfl⟩
  · have hnow : s.now ≤ s.now + elapsed := by omega
    constructor
    · exact fun k entry hk => (hs.cache k entry hk).append _ hnow
    · exact fun j d hd => (hs.calls j d hd).append _ hnow
  · constructor
    · exact fun k entry hk => (hs.cache k entry hk).append _ le_rfl
    · intro j d hd
      rcases Pool.getElem?_append_cases hd with ⟨-, rfl⟩ | hold
      · trivial
      · exact (hs.calls j d hold).append _ le_rfl
  · obtain ⟨hnow, hcache⟩ := cache_moved hrun hs hc hmoved
    constructor
    · show ∀ k entry, u.cache k = some entry → Stored key expiry s₀ (as ++ [a]) u.now k entry
      rw [hnow]
      exact hcache
    · intro j d hd
      show d.phase.Timed key expiry s₀ (as ++ [a]) u.now (key d.request) j
      rw [hnow]
      rcases Pool.getElem?_set_cases hd with ⟨rfl, rfl⟩ | ⟨-, hold⟩
      · have hphase := timed_moved hrun hs hc hmoved
        exact hphase
      · exact (hs.calls j d hold).append _ le_rfl

theorem timed_start (now : Int) : Timed key expiry s₀ [] (start now : State ρ κ ν τ) := by
  constructor
  · intro k entry hk
    cases hk
  · intro j c hc
    cases hc

theorem timed_run {now : Int} (hrun : run (step key expiry) (start now) as = some s) :
    Timed key expiry (start now) as s :=
  run_history (timed_start now) (fun _ _ _ _ hrun hs h => timed_step hrun hs h) hrun

/-! ## What is served -/

/-- Call `i` is in the state `s` about to serve `value` from the cache, and does so. -/
def Serves (key : ρ → κ) (expiry : Int → τ → Int) (s : State ρ κ ν τ) (i : Nat) (request : ρ)
    (value : ν) : Prop :=
  ∃ s' c, step key expiry s (.decide i) = some s' ∧ s'.calls[i]? = some c ∧ c.request = request ∧
    c.phase = .returned value

/-- A served value was found in the cache, and its expiry time is ahead. -/
theorem looked_of_serves {i : Nat} {request : ρ} {value : ν} (h : Serves key expiry s i request value) :
    ∃ c entry, s.calls[i]? = some c ∧ c.request = request ∧ c.phase = .looked (some entry) ∧
      entry.value = value ∧ s.now < entry.expiresAt := by
  obtain ⟨s', c', hstep, hc', hrequest, hreturned⟩ := h
  rcases step_moved hstep with ⟨elapsed, ha, -⟩ | ⟨request, ha, -⟩ | ⟨j, c, u, phase, hc, hmoved, rfl⟩
  · cases ha
  · cases ha
  · have hself := Pool.getElem?_set_cases hc'
    cases hmoved with
    | served entry hphase htime =>
        rcases hself with ⟨-, rfl⟩ | ⟨hne, -⟩
        · cases hreturned
          exact ⟨c, entry, hc, hrequest, hphase, rfl, htime⟩
        · exact absurd rfl hne
    | missed =>
        rcases hself with ⟨-, rfl⟩ | ⟨hne, -⟩
        · cases hreturned
        · exact absurd rfl hne

/-- **Lineage.** A served value was issued to one call with the same key, which computed its expiry time
    and stored it, in that order; and it is served before that expiry time. -/
theorem served_lineage {now : Int} {i : Nat} {request : ρ} {value : ν}
    (hrun : run (step key expiry) (start now) as = some s) (h : Serves key expiry s i request value) :
    ∃ entry, entry.value = value ∧ s.now < entry.expiresAt ∧
      Stored key expiry (start now) as s.now (key request) entry := by
  obtain ⟨c, entry, hc, rfl, hphase, hvalue, htime⟩ := looked_of_serves h
  have htimed := (timed_run hrun).calls i c hc
  rw [hphase] at htimed
  exact ⟨entry, hvalue, htime, htimed⟩

end TimedCache
