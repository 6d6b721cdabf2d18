import Mathlib.Logic.Function.Basic
import Gekko.Lib.Machine
import Gekko.Lib.Pool


/-! # `Gekko.Inventory.Jwks` — the key cache of Inventory Service and its rate limit

`jwksCache.keyfunc` looks the `kid` of a token up and fetches the key set again when it is unknown and
the last fetch is at least `minInterval` old. The test of the age and the fetch are separate: the lock
is held for the test, released for the request to Keycloak, and taken again by `refresh` to store the
keys together with the time, which happens only when the fetch has succeeded.

The machine interleaves these steps of any number of calls, with any outcome of the fetches.
`fetches_spaced` says what keeps the fetches `minInterval` apart: whenever a call passes the test, no
other call stands between its test and its fetch, and no fetch of the last `minInterval` is under way or
has failed.
-/

namespace Gekko.Inventory.Jwks

open Machine

/-- A member of `keys` in a key set. -/
structure Jwk where
  kid : String
  kty : String
  n : String
  e : String
  deriving DecidableEq, Repr

variable {κ : Type}

/-- The map that `refresh` builds, where `decodeKey` decodes the modulus and the exponent. -/
def keysOf (decodeKey : String → String → Option κ) (set : List Jwk) : String → Option κ :=
  set.foldl
    (fun keys k =>
      if k.kty ≠ "RSA" then keys
      else
        match decodeKey k.n k.e with
        | some key => Function.update keys k.kid (some key)
        | none => keys)
    fun _ => none

inductive Outcome where
  | pending
  | succeeded
  | failed
  deriving DecidableEq, Repr

/-- A request for the key set. -/
structure Fetch where
  startedAt : Int
  outcome : Outcome
  deriving DecidableEq, Repr

/-- Where a call of `keyfunc` is. -/
inductive Phase (κ : Type) where
  | arrived
  /-- The `kid` is unknown and the last fetch is old enough: `refresh` is next. -/
  | stale
  | fetching
  /-- `refresh` has returned without an error. -/
  | refreshed
  | answered (key : Option κ)

/-- A call of `keyfunc`, with the fetch that it has made. -/
structure Call (κ : Type) where
  kid : String
  phase : Phase κ
  fetch : Option Fetch

structure State (κ : Type) where
  now : Int
  keys : String → Option κ
  lastFetch : Int
  calls : List (Call κ)

inductive Act where
  | arrive (kid : String)
  /-- The first section under the lock. -/
  | test (i : Nat)
  /-- `http.Get`. -/
  | start (i : Nat)
  /-- The request fails, or its body cannot be decoded. -/
  | fail (i : Nat)
  /-- The body is decoded, and the keys and the time are stored. -/
  | install (i : Nat) (set : List Jwk)
  /-- The last section under the lock. -/
  | reread (i : Nat)
  deriving DecidableEq, Repr

/-- An act at a time. -/
structure Action where
  time : Int
  act : Act
  deriving DecidableEq, Repr

/-- `minInterval`, in nanoseconds. -/
def minInterval : Int := 10 * 10 ^ 9

/-- `staleEnough`. -/
def State.staleEnough (s : State κ) : Bool := decide (minInterval ≤ s.now - s.lastFetch)

/-- The call after its first section under the lock. -/
def State.tested (s : State κ) (c : Call κ) : Call κ :=
  match s.keys c.kid with
  | some key => { c with phase := .answered (some key) }
  -- A `kid` that is unknown while the last fetch is recent is refused without a fetch.
  | none => if s.staleEnough then { c with phase := .stale } else { c with phase := .answered none }

/-- The call after `http.Get` has been called. -/
def State.started (s : State κ) (c : Call κ) : Call κ :=
  { c with phase := .fetching, fetch := some ⟨s.now, .pending⟩ }

/-- The call with its fetch at an end. -/
def Call.ended (c : Call κ) (phase : Phase κ) (outcome : Outcome) : Call κ :=
  { c with phase := phase, fetch := c.fetch.map fun f => { f with outcome := outcome } }

/-- The act, at the time that the state shows. -/
def State.perform (s : State κ) (decodeKey : String → String → Option κ) : Act → Option (State κ)
  | .arrive kid => some { s with calls := s.calls ++ [⟨kid, .arrived, none⟩] }
  | .test i =>
      match s.calls[i]? with
      | some c =>
          match c.phase with
          | .arrived => some { s with calls := s.calls.set i (s.tested c) }
          | _ => none
      | none => none
  -- The lock is not held here, so other calls can have acted since the test.
  | .start i =>
      match s.calls[i]? with
      | some c =>
          match c.phase with
          | .stale => some { s with calls := s.calls.set i (s.started c) }
          | _ => none
      | none => none
  -- `keyfunc` returns the error of `refresh`; neither the keys nor the time change.
  | .fail i =>
      match s.calls[i]? with
      | some c =>
          match c.phase with
          | .fetching => some { s with calls := s.calls.set i (c.ended (.answered none) .failed) }
          | _ => none
      | none => none
  | .install i set =>
      match s.calls[i]? with
      | some c =>
          match c.phase with
          | .fetching =>
              some
                { s with
                  keys := keysOf decodeKey set
                  lastFetch := s.now
                  calls := s.calls.set i (c.ended .refreshed .succeeded) }
          | _ => none
      | none => none
  -- The answer is what the map holds now, which another call may have replaced.
  | .reread i =>
      match s.calls[i]? with
      | some c =>
          match c.phase with
          | .refreshed => some { s with calls := s.calls.set i { c with phase := .answered (s.keys c.kid) } }
          | _ => none
      | none => none

/-- The state when time has gone on. -/
def State.at (s : State κ) (time : Int) : State κ := { s with now := time }

/-- One step. The clock does not go back. -/
def step (decodeKey : String → String → Option κ) (s : State κ) (a : Action) : Option (State κ) :=
  if a.time < s.now then none else (s.at a.time).perform decodeKey a.act

/-- The cache after the fetch at startup. -/
def start (keys : String → Option κ) (startedAt : Int) : State κ := ⟨startedAt, keys, startedAt, []⟩

/-! ## What a step can do -/

/-- The ways an act can change the state. -/
inductive Performed (s : State κ) : Act → State κ → Prop where
  | arrived (kid : String) : Performed s (.arrive kid) { s with calls := s.calls ++ [⟨kid, .arrived, none⟩] }
  | answered (act : Act) (i : Nat) (c : Call κ) (key : Option κ) (hc : s.calls[i]? = some c) :
      Performed s act { s with calls := s.calls.set i { c with phase := .answered key } }
  | passed (i : Nat) (c : Call κ) (hc : s.calls[i]? = some c) (hphase : c.phase = .arrived)
      (hunknown : s.keys c.kid = none) (hstale : s.staleEnough = true) :
      Performed s (.test i) { s with calls := s.calls.set i { c with phase := .stale } }
  | started (i : Nat) (c : Call κ) (hc : s.calls[i]? = some c) (hphase : c.phase = .stale) :
      Performed s (.start i) { s with calls := s.calls.set i (s.started c) }
  | failed (i : Nat) (c : Call κ) (hc : s.calls[i]? = some c) :
      Performed s (.fail i) { s with calls := s.calls.set i (c.ended (.answered none) .failed) }
  | installed (i : Nat) (c : Call κ) (set : List Jwk) (keys : String → Option κ) (hc : s.calls[i]? = some c) :
      Performed s (.install i set)
        { s with keys := keys, lastFetch := s.now, calls := s.calls.set i (c.ended .refreshed .succeeded) }

variable {decodeKey : String → String → Option κ} {s s' : State κ} {a : Action}

/-- **Inversion of an act.** -/
theorem performed_of_perform {act : Act} (h : s.perform decodeKey act = some s') : Performed s act s' := by
  cases act with
  | arrive kid =>
      cases h
      exact .arrived kid
  -- The test ends in one of three ways, of which only `passed` leads on to a fetch.
  | test i =>
      simp only [State.perform] at h
      split at h
      · rename_i c hc
        split at h
        · rename_i hphase
          cases h
          unfold State.tested
          split
          · exact .answered _ i c _ hc
          · rename_i hunknown
            split
            · rename_i hstale
              exact .passed i c hc hphase hunknown hstale
            · exact .answered _ i c _ hc
        · cases h
      · cases h
  | start i =>
      simp only [State.perform] at h
      split at h
      · rename_i c hc
        split at h
        · rename_i hphase
          cases h
          exact .started i c hc hphase
        · cases h
      · cases h
  | fail i =>
      simp only [State.perform] at h
      split at h
      · rename_i c hc
        split at h
        · cases h
          exact .failed i c hc
        · cases h
      · cases h
  | install i set =>
      simp only [State.perform] at h
      split at h
      · rename_i c hc
        split at h
        · cases h
          exact .installed i c set _ hc
        · cases h
      · cases h
  | reread i =>
      simp only [State.perform] at h
      split at h
      · rename_i c hc
        split at h
        · cases h
          exact .answered _ i c _ hc
        · cases h
      · cases h

theorem step_eq_some (h : step decodeKey s a = some s') :
    s.now ≤ a.time ∧ Performed (s.at a.time) a.act s' := by
  unfold step at h
  split at h
  · cases h
  · rename_i hle
    exact ⟨Int.not_lt.mp hle, performed_of_perform h⟩

/-! ## Fetches that keep their distance -/

/-- Call `i` has made the fetch. -/
def State.Fetches (s : State κ) (i : Nat) (f : Fetch) : Prop := ∃ c, s.calls[i]? = some c ∧ c.fetch = some f

/-- Any two fetches are started at least `minInterval` apart. -/
def Spaced (s : State κ) : Prop :=
  ∀ i j f g, i ≠ j → s.Fetches i f → s.Fetches j g → f.startedAt ≤ g.startedAt →
    f.startedAt + minInterval ≤ g.startedAt

def Phase.isStale : Phase κ → Bool
  | .stale => true
  | _ => false

/-- The call is not about to fetch, and has made no fetch in the last `minInterval` but one that has
succeeded. -/
def Call.Quiet (now : Int) (c : Call κ) : Prop :=
  c.phase.isStale = false ∧ ∀ f ∈ c.fetch, now - f.startedAt < minInterval → f.outcome = .succeeded

instance (now : Int) (c : Call κ) : Decidable (c.Quiet now) := inferInstanceAs (Decidable (_ ∧ _))

/-- Call `i` finds its `kid` unknown and the last fetch old enough. -/
def State.passes (s : State κ) (i : Nat) : Bool :=
  match s.calls[i]? with
  | some c => (s.keys c.kid).isNone && s.staleEnough
  | none => false

/-- When the act lets a call pass the test, all calls are quiet. -/
def Undisturbed (s : State κ) (a : Action) : Prop :=
  match a.act with
  | .test i => (s.at a.time).passes i = true → ∀ d ∈ s.calls, d.Quiet a.time
  | _ => True

instance (s : State κ) : ∀ a : Action, Decidable (Undisturbed s a)
  | ⟨_, .test _⟩ => inferInstanceAs (Decidable (_ → _))
  | ⟨_, .arrive _⟩ => isTrue trivial
  | ⟨_, .start _⟩ => isTrue trivial
  | ⟨_, .fail _⟩ => isTrue trivial
  | ⟨_, .install _ _⟩ => isTrue trivial
  | ⟨_, .reread _⟩ => isTrue trivial

/-! ## The invariant -/

/-- A call that has not fetched has made no fetch. -/
def Call.Fresh (c : Call κ) : Prop :=
  match c.phase with
  | .arrived | .stale => c.fetch = none
  | _ => True

/-- Every fetch was started at least `minInterval` ago. -/
def Rested (s : State κ) : Prop := ∀ j f, s.Fetches j f → f.startedAt + minInterval ≤ s.now

/-- Call `i` is about to fetch. -/
def State.IsStale (s : State κ) (i : Nat) : Prop := ∃ c, s.calls[i]? = some c ∧ c.phase = .stale

structure Inv (s : State κ) : Prop where
  lastFetch : s.lastFetch ≤ s.now
  startedAt : ∀ i f, s.Fetches i f → f.startedAt ≤ s.now
  /-- The time of the last fetch is moved by every fetch that succeeds. -/
  succeeded : ∀ i f, s.Fetches i f → f.outcome = .succeeded → f.startedAt ≤ s.lastFetch
  fresh : ∀ c ∈ s.calls, c.Fresh
  /-- A call that is about to fetch is the only one, and the earlier fetches lie back far enough. -/
  alone : ∀ i, s.IsStale i → Rested s ∧ ∀ j, s.IsStale j → j = i
  spaced : Spaced s

theorem inv_start (keys : String → Option κ) (startedAt : Int) : Inv (start keys startedAt) := by
  have hnone : ∀ i f, ¬ (start keys startedAt).Fetches i f := by
    rintro i f ⟨c, hc, -⟩
    cases hc
  refine ⟨Int.le_refl _, ?_, ?_, ?_, ?_, ?_⟩
  · intro i f hf
    exact absurd hf (hnone i f)
  · intro i f hf
    exact absurd hf (hnone i f)
  · intro c hc
    exact absurd hc List.not_mem_nil
  · rintro i ⟨c, hc, -⟩
    cases hc
  · intro i j f g _ hf
    exact absurd hf (hnone i f)

/-- Time goes on. -/
theorem Inv.at (hs : Inv s) {time : Int} (hle : s.now ≤ time) : Inv (s.at time) where
  lastFetch := Int.le_trans hs.lastFetch hle
  startedAt := fun i f hf => Int.le_trans (hs.startedAt i f hf) hle
  succeeded := hs.succeeded
  fresh := hs.fresh
  alone := by
    intro i hi
    obtain ⟨hrested, halone⟩ := hs.alone i hi
    exact ⟨fun j f hf => Int.le_trans (hrested j f hf) hle, halone⟩
  spaced := hs.spaced

/-- The act starts no fetch and lets no call pass the test. -/
structure Harmless (s s' : State κ) : Prop where
  now : s'.now = s.now
  lastFetch : s.lastFetch ≤ s'.lastFetch ∧ s'.lastFetch ≤ s'.now
  fetches : ∀ i f', s'.Fetches i f' → ∃ f, s.Fetches i f ∧ f.startedAt = f'.startedAt ∧
    (f'.outcome = .succeeded → f.outcome = .succeeded ∨ f'.startedAt ≤ s'.lastFetch)
  fresh : ∀ c ∈ s'.calls, c.Fresh
  stale : ∀ i, s'.IsStale i → s.IsStale i

theorem Inv.of_harmless (hs : Inv s) (h : Harmless s s') : Inv s' where
  lastFetch := h.lastFetch.2
  startedAt := by
    intro i f' hf'
    obtain ⟨f, hf, heq, -⟩ := h.fetches i f' hf'
    rw [h.now, ← heq]
    exact hs.startedAt i f hf
  succeeded := by
    intro i f' hf' hok
    obtain ⟨f, hf, heq, hsucceeded⟩ := h.fetches i f' hf'
    rcases hsucceeded hok with hbefore | hle
    · rw [← heq]
      exact Int.le_trans (hs.succeeded i f hf hbefore) h.lastFetch.1
    · exact hle
  fresh := h.fresh
  alone := by
    intro i hi
    obtain ⟨hrested, halone⟩ := hs.alone i (h.stale i hi)
    refine ⟨?_, fun j hj => halone j (h.stale j hj)⟩
    intro j f' hf'
    obtain ⟨f, hf, heq, -⟩ := h.fetches j f' hf'
    rw [h.now, ← heq]
    exact hrested j f hf
  -- The start of every fetch is an old one.
  spaced := by
    intro i j f' g' hne hf' hg' hle
    obtain ⟨f, hf, hfeq, -⟩ := h.fetches i f' hf'
    obtain ⟨g, hg, hgeq, -⟩ := h.fetches j g' hg'
    rw [← hfeq, ← hgeq] at hle ⊢
    exact hs.spaced i j f g hne hf hg hle

/-- One call is replaced by another in the same place. -/
theorem fetches_set {i j : Nat} {c c' : Call κ} {f' : Fetch} (hcalls : s'.calls = s.calls.set i c')
    (hc : s.calls[i]? = some c) (h : s'.Fetches j f') : (j = i ∧ c'.fetch = some f') ∨ s.Fetches j f' := by
  obtain ⟨d, hd, hfetch⟩ := h
  rw [hcalls] at hd
  rcases Pool.getElem?_set_cases hd with ⟨rfl, rfl⟩ | ⟨-, hd⟩
  · exact Or.inl ⟨rfl, hfetch⟩
  · exact Or.inr ⟨d, hd, hfetch⟩

theorem isStale_set {i j : Nat} {c' : Call κ} (hcalls : s'.calls = s.calls.set i c') (h : s'.IsStale j) :
    (j = i ∧ c'.phase = .stale) ∨ (j ≠ i ∧ s.IsStale j) := by
  obtain ⟨d, hd, hphase⟩ := h
  rw [hcalls] at hd
  rcases Pool.getElem?_set_cases hd with ⟨rfl, rfl⟩ | ⟨hne, hd⟩
  · exact Or.inl ⟨rfl, hphase⟩
  · exact Or.inr ⟨hne, d, hd, hphase⟩

/-- A call is answered, or its fetch comes to an end. -/
theorem harmless_set {i : Nat} {c c' : Call κ} (hs : Inv s) (hnow : s'.now = s.now)
    (hlast : s.lastFetch ≤ s'.lastFetch ∧ s'.lastFetch ≤ s'.now) (hcalls : s'.calls = s.calls.set i c')
    (hc : s.calls[i]? = some c) (hfresh : c'.Fresh) (hphase : c'.phase ≠ .stale)
    (hfetch : ∀ f', c'.fetch = some f' → ∃ f, c.fetch = some f ∧ f.startedAt = f'.startedAt ∧
      (f'.outcome = .succeeded → f.outcome = .succeeded ∨ f'.startedAt ≤ s'.lastFetch)) : Harmless s s' where
  now := hnow
  lastFetch := hlast
  fetches := by
    intro j f' hf'
    -- Only the fetch of the call itself can look different.
    rcases fetches_set hcalls hc hf' with ⟨rfl, hf'⟩ | hf'
    · obtain ⟨f, hf, hrest⟩ := hfetch f' hf'
      exact ⟨f, ⟨c, hc, hf⟩, hrest⟩
    · exact ⟨f', hf', rfl, Or.inl⟩
  fresh := by
    rw [hcalls]
    exact Pool.forall_mem_set hs.fresh hfresh
  stale := by
    intro j hj
    rcases isStale_set hcalls hj with ⟨-, hstale⟩ | ⟨-, hj⟩
    · exact absurd hstale hphase
    · exact hj

/-! ## One step -/

theorem harmless_arrived (hs : Inv s) (kid : String) :
    Harmless s { s with calls := s.calls ++ [⟨kid, .arrived, none⟩] } where
  now := rfl
  lastFetch := ⟨Int.le_refl _, hs.lastFetch⟩
  fetches := by
    rintro i f' ⟨c, hc, hf'⟩
    rcases Pool.getElem?_append_cases hc with ⟨-, rfl⟩ | hc
    · cases hf'
    · exact ⟨f', ⟨c, hc, hf'⟩, rfl, Or.inl⟩
  fresh := Pool.forall_mem_append_singleton hs.fresh rfl
  stale := by
    rintro i ⟨c, hc, hphase⟩
    rcases Pool.getElem?_append_cases hc with ⟨-, rfl⟩ | hc
    · cases hphase
    · exact ⟨c, hc, hphase⟩

/-- A fetch that ends keeps its start. -/
theorem Call.ended_fetch {c : Call κ} {phase : Phase κ} {outcome : Outcome} {f' : Fetch}
    (h : (c.ended phase outcome).fetch = some f') :
    ∃ f, c.fetch = some f ∧ f.startedAt = f'.startedAt ∧ f'.outcome = outcome := by
  obtain ⟨f, hf, rfl⟩ := Option.map_eq_some_iff.mp h
  exact ⟨f, hf, rfl, rfl⟩

/-- A call passes the test while all calls are quiet. -/
theorem inv_passed {i : Nat} {c : Call κ} (hs : Inv s) (hc : s.calls[i]? = some c)
    (hphase : c.phase = .arrived)
    (hstale : s.staleEnough = true) (hquiet : ∀ d ∈ s.calls, d.Quiet s.now) :
    Inv { s with calls := s.calls.set i { c with phase := .stale } } := by
  have hfetch : c.fetch = none := by
    have hfresh := hs.fresh c (List.mem_of_getElem? hc)
    unfold Call.Fresh at hfresh
    rw [hphase] at hfresh
    exact hfresh
  have hold : minInterval ≤ s.now - s.lastFetch := of_decide_eq_true hstale
  -- A fetch of the last `minInterval` would have succeeded and moved the time, and the test would have
  -- failed.
  have hrested : Rested s := by
    rintro j f ⟨d, hd, hf⟩
    by_contra hrecent
    have hok : f.outcome = .succeeded := (hquiet d (List.mem_of_getElem? hd)).2 f hf (by omega)
    have hmoved := hs.succeeded j f ⟨d, hd, hf⟩ hok
    omega
  -- A quiet call is not on its way to a fetch.
  have hnone : ∀ j, ¬ s.IsStale j := by
    rintro j ⟨d, hd, hphase'⟩
    have hnot := (hquiet d (List.mem_of_getElem? hd)).1
    rw [hphase'] at hnot
    cases hnot
  have hsame : ∀ j f, State.Fetches { s with calls := s.calls.set i { c with phase := .stale } } j f →
      s.Fetches j f := by
    intro j f hf
    rcases fetches_set rfl hc hf with ⟨-, hf⟩ | hf
    · have hcf : c.fetch = some f := hf
      rw [hfetch] at hcf
      cases hcf
    · exact hf
  constructor
  · exact hs.lastFetch
  · intro j f hf
    exact hs.startedAt j f (hsame j f hf)
  · intro j f hf
    exact hs.succeeded j f (hsame j f hf)
  · exact Pool.forall_mem_set hs.fresh hfetch
  · intro j hj
    have honly : ∀ k, State.IsStale { s with calls := s.calls.set i { c with phase := .stale } } k →
      k = i := by
      intro k hk
      rcases isStale_set rfl hk with ⟨hki, -⟩ | ⟨-, hk⟩
      · exact hki
      · exact absurd hk (hnone k)
    refine ⟨fun k f hf => hrested k f (hsame k f hf), fun k hk => ?_⟩
    rw [honly k hk, honly j hj]
  · intro j k f g hne hf hg
    exact hs.spaced j k f g hne (hsame j f hf) (hsame k g hg)

/-- The call that has passed fetches. -/
theorem inv_started {i : Nat} {c : Call κ} (hs : Inv s) (hc : s.calls[i]? = some c)
    (hphase : c.phase = .stale) :
    Inv { s with calls := s.calls.set i (s.started c) } := by
  obtain ⟨hrested, halone⟩ := hs.alone i ⟨c, hc, hphase⟩
  have hcases : ∀ j f, State.Fetches { s with calls := s.calls.set i (s.started c) } j f →
      (j = i ∧ f = ⟨s.now, .pending⟩) ∨ s.Fetches j f := by
    intro j f hf
    rcases fetches_set rfl hc hf with ⟨hji, hf⟩ | hf
    · exact Or.inl ⟨hji, (Option.some.inj hf).symm⟩
    · exact Or.inr hf
  have hpos : 0 < minInterval := by decide
  constructor
  · exact hs.lastFetch
  · intro j f hf
    rcases hcases j f hf with ⟨-, rfl⟩ | hf
    · exact Int.le_refl _
    · exact hs.startedAt j f hf
  · intro j f hf hok
    rcases hcases j f hf with ⟨-, rfl⟩ | hf
    · cases hok
    · exact hs.succeeded j f hf hok
  · exact Pool.forall_mem_set hs.fresh trivial
  · intro j hj
    rcases isStale_set rfl hj with ⟨-, hstale⟩ | ⟨hne, hj⟩
    · cases hstale
    · exact absurd (halone j hj) hne
  -- At most one of two fetches is the new one, and every other was started long enough before it.
  · intro j k f g hne hf hg hle
    rcases hcases j f hf with ⟨hji, rfl⟩ | hf
    · rcases hcases k g hg with ⟨hki, rfl⟩ | hg
      · exact absurd (hji.trans hki.symm) hne
      · have hback := hrested k g hg
        simp only [] at hle ⊢
        omega
    · rcases hcases k g hg with ⟨-, rfl⟩ | hg
      · exact hrested j f hf
      · exact hs.spaced j k f g hne hf hg hle

theorem inv_step (hs : Inv s) (ha : Undisturbed s a) (h : step decodeKey s a = some s') : Inv s' := by
  obtain ⟨hle, hperformed⟩ := step_eq_some h
  have hat := hs.at hle
  generalize hact : a.act = act at hperformed
  cases hperformed with
  | arrived kid => exact hat.of_harmless (harmless_arrived hat kid)
  -- An answer changes no fetch.
  | answered _ i c key hc =>
      exact hat.of_harmless (harmless_set hat rfl ⟨Int.le_refl _, hat.lastFetch⟩ rfl hc trivial nofun
        fun f' hf' => ⟨f', hf', rfl, Or.inl⟩)
  | passed i c hc hphase hunknown hstale =>
      have hquiet : ∀ d ∈ s.calls, d.Quiet a.time := by
        have hpasses : (s.at a.time).passes i = true := by
          unfold State.passes
          simp only [hc, hunknown, hstale, Option.isNone_none, Bool.and_self]
        unfold Undisturbed at ha
        rw [hact] at ha
        exact ha hpasses
      exact inv_passed hat hc hphase hstale hquiet
  | started i c hc hphase => exact inv_started hat hc hphase
  | failed i c hc =>
      refine hat.of_harmless (harmless_set hat rfl ⟨Int.le_refl _, hat.lastFetch⟩ rfl hc trivial nofun ?_)
      intro f' hf'
      obtain ⟨f, hf, heq, houtcome⟩ := Call.ended_fetch hf'
      refine ⟨f, hf, heq, fun hok => ?_⟩
      rw [houtcome] at hok
      cases hok
  | installed i c set keys hc =>
      refine hat.of_harmless (harmless_set hat rfl ⟨hat.lastFetch, Int.le_refl _⟩ rfl hc trivial nofun ?_)
      intro f' hf'
      obtain ⟨f, hf, heq, -⟩ := Call.ended_fetch hf'
      refine ⟨f, hf, heq, fun _ => Or.inr ?_⟩
      -- The time is moved to one that is no earlier than the start.
      rw [← heq]
      exact hat.startedAt i f ⟨c, hc, hf⟩

/-- **Fetches keep their distance** in every run in which no call passes the test while another one is
    on its way to a fetch, or while a fetch of the last `minInterval` is under way or has failed. -/
theorem fetches_spaced {keys : String → Option κ} {startedAt : Int} {as : List Action} {t : State κ}
    (has : Along (step decodeKey) Undisturbed (start keys startedAt) as)
    (hrun : run (step decodeKey) (start keys startedAt) as = some t) : Spaced t :=
  (run_invariant_along (fun _ _ _ hs ha h => inv_step hs ha h) (inv_start keys startedAt) has hrun).spaced

/-- A `kid` that nobody has a key for, over and over again. -/
def oneAfterTheOther : List Action :=
  [⟨0, .arrive "forged"⟩, ⟨minInterval, .test 0⟩, ⟨minInterval, .start 0⟩, ⟨minInterval + 1, .install 0 []⟩,
    ⟨minInterval + 1, .arrive "forged"⟩, ⟨minInterval + 2, .reread 0⟩, ⟨2 * minInterval + 1, .test 1⟩,
    ⟨2 * minInterval + 1, .start 1⟩]

/-- Two calls that are tested before either of them has fetched. -/
def together : List Action :=
  [⟨0, .arrive "forged"⟩, ⟨0, .arrive "forged"⟩, ⟨minInterval, .test 0⟩, ⟨minInterval, .test 1⟩,
    ⟨minInterval, .start 0⟩, ⟨minInterval, .start 1⟩]

/-- Two calls one after the other, where the first one's fetch fails. -/
def afterFailure : List Action :=
  [⟨0, .arrive "forged"⟩, ⟨0, .arrive "forged"⟩, ⟨minInterval, .test 0⟩, ⟨minInterval, .start 0⟩,
    ⟨minInterval, .fail 0⟩, ⟨minInterval, .test 1⟩, ⟨minInterval, .start 1⟩]

theorem oneAfterTheOther_spaced :
    ∃ t, run (step fun _ _ => some ()) (start (fun _ => none) 0) oneAfterTheOther = some t ∧
      t.calls.map (fun c => c.fetch.map (·.startedAt)) = [some minInterval, some (2 * minInterval + 1)] ∧
      Spaced t := by
  have hobs : (run (step fun _ _ => some ()) (start (fun _ => none) 0) oneAfterTheOther).map
      (fun t => t.calls.map fun c => c.fetch.map (·.startedAt))
        = some [some minInterval, some (2 * minInterval + 1)] := by decide +kernel
  obtain ⟨t, hrun, hstarts⟩ := Option.map_eq_some_iff.mp hobs
  refine ⟨t, hrun, hstarts, fetches_spaced ?_ hrun⟩
  decide +kernel

theorem fetches_of_map {i : Nat} {f : Fetch} (h : (s.calls.map (·.fetch))[i]? = some (some f)) :
    s.Fetches i f := by
  rw [List.getElem?_map] at h
  obtain ⟨c, hc, hf⟩ := Option.map_eq_some_iff.mp h
  exact ⟨c, hc, hf⟩

/-- **Two fetches at one time**: of two calls that are tested together, and of a call after one that has
failed. -/
theorem fetches_unspaced :
    (∃ t, run (step fun _ _ => some ()) (start (fun _ => none) 0) together = some t ∧ ¬ Spaced t) ∧
      ∃ t, run (step fun _ _ => some ()) (start (fun _ => none) 0) afterFailure = some t ∧ ¬ Spaced t := by
  have hclash : ∀ (t : State Unit) (f g : Fetch), f.startedAt = minInterval → g.startedAt = minInterval →
      t.calls.map (·.fetch) = [some f, some g] → ¬ Spaced t := by
    intro t f g hf hg hfetches hspaced
    have hpos : 0 < minInterval := by decide
    have hle := hspaced 0 1 f g (by decide) (fetches_of_map (by rw [hfetches]; rfl))
      (fetches_of_map (by rw [hfetches]; rfl)) (by omega)
    omega
  constructor
  · have hobs : (run (step fun _ _ => some ()) (start (fun _ => none) 0) together).map
        (fun t => t.calls.map (·.fetch)) =
          some [some ⟨minInterval, .pending⟩, some ⟨minInterval, .pending⟩] := by decide +kernel
    obtain ⟨t, hrun, hfetches⟩ := Option.map_eq_some_iff.mp hobs
    exact ⟨t, hrun, hclash t _ _ rfl rfl hfetches⟩
  · have hobs : (run (step fun _ _ => some ()) (start (fun _ => none) 0) afterFailure).map
        (fun t => t.calls.map (·.fetch))
          = some [some ⟨minInterval, .failed⟩, some ⟨minInterval, .pending⟩] := by decide +kernel
    obtain ⟨t, hrun, hfetches⟩ := Option.map_eq_some_iff.mp hobs
    exact ⟨t, hrun, hclash t _ _ rfl rfl hfetches⟩

end Gekko.Inventory.Jwks
