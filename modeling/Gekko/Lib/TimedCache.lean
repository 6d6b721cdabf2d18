import Mathlib.Logic.Function.Basic
import Gekko.Lib.Machine
import Gekko.Lib.Pool

/-!
# `Gekko.Lib.TimedCache` — a cache with expiry times, shared by concurrent calls

A call looks under the key of its request, serves what it finds while that has not expired, and otherwise
fetches a value from an issuer, stores it and returns it. Calls are not serialised: between any two of the
steps of one call there can be steps of others, and time can pass.

The parameters are the key of a request and the expiry time that a value gets, from the time it is stored at
and the lifetime it was issued with. The one thing a cache promises about what it serves is `provenance`: the
value was issued for a request with the same key. What that is worth depends on what the key says about a
request.
-/

namespace TimedCache

open Machine

/-- A stored value. -/
structure Entry (ν : Type*) where
  value : ν
  expiresAt : Int
  deriving DecidableEq, Repr

/-- What the issuer has handed out, to which request and when. -/
structure Issue (ρ ν τ : Type*) where
  request : ρ
  value : ν
  lifetime : τ
  issuedAt : Int
  deriving DecidableEq, Repr

/-- Where a call is. -/
inductive Phase (ν τ : Type*) where
  | started
  /-- The cache has been read. -/
  | looked (entry : Option (Entry ν))
  /-- The request to the issuer is under way. -/
  | fetching
  /-- The issuer has answered. -/
  | answered (value : ν) (lifetime : τ)
  /-- The expiry time is computed. -/
  | stamped (entry : Entry ν)
  | returned (value : ν)
  | failed
  deriving DecidableEq, Repr

structure Call (ρ ν τ : Type*) where
  request : ρ
  phase : Phase ν τ
  deriving DecidableEq, Repr

structure State (ρ κ ν τ : Type*) where
  now : Int
  cache : κ → Option (Entry ν)
  calls : List (Call ρ ν τ)
  issues : List (Issue ρ ν τ)

inductive Action (ρ ν τ : Type*) where
  | tick (elapsed : Nat)
  | call (request : ρ)
  /-- Call `i` reads the cache. -/
  | look (i : Nat)
  /-- Call `i` compares what it found with the clock. -/
  | decide (i : Nat)
  /-- The issuer answers the request of call `i`. -/
  | issue (i : Nat) (value : ν) (lifetime : τ)
  /-- Call `i` reads the clock and computes the expiry time. -/
  | stamp (i : Nat)
  /-- Call `i` stores its entry and returns. -/
  | put (i : Nat)
  /-- The fetch of call `i` fails, or its answer is lost or of no use. -/
  | fail (i : Nat)

variable {ρ κ ν τ : Type*} [DecidableEq κ] (key : ρ → κ) (expiry : Int → τ → Int)

/-- One step of call `c`: its new phase, and what it does to the cache and the log of issues. -/
def State.advance (s : State ρ κ ν τ) (c : Call ρ ν τ) : Action ρ ν τ → Option (State ρ κ ν τ × Phase ν τ)
  | .look _ =>
      match c.phase with
      | .started => some (s, .looked (s.cache (key c.request)))
      | _ => none
  | .decide _ =>
      match c.phase with
      | .looked (some entry) => some (s, if s.now < entry.expiresAt then .returned entry.value else .fetching)
      | .looked none => some (s, .fetching)
      | _ => none
  | .issue _ value lifetime =>
      match c.phase with
      | .fetching =>
          some ({ s with issues := s.issues ++ [⟨c.request, value, lifetime, s.now⟩] },
                 .answered value lifetime)
      | _ => none
  | .stamp _ =>
      match c.phase with
      | .answered value lifetime => some (s, .stamped ⟨value, expiry s.now lifetime⟩)
      | _ => none
  | .put _ =>
      match c.phase with
      | .stamped entry =>
          some ({ s with cache := Function.update s.cache (key c.request) (some entry) },
                 .returned entry.value)
      | _ => none
  | .fail _ =>
      match c.phase with
      | .fetching | .answered _ _ => some (s, .failed)
      | _ => none
  | _ => none

/-- The call that takes the step. -/
def Action.index : Action ρ ν τ → Option Nat
  | .look i | .decide i | .issue i _ _ | .stamp i | .put i | .fail i => some i
  | .tick _ | .call _ => none

def step (s : State ρ κ ν τ) (a : Action ρ ν τ) : Option (State ρ κ ν τ) :=
  match a with
  | .tick elapsed => some { s with now := s.now + elapsed }
  | .call request => some { s with calls := s.calls ++ [⟨request, .started⟩] }
  | a =>
      a.index.bind fun i => s.calls[i]?.bind fun c => (s.advance key expiry c a).map fun (s', phase) =>
        { s' with calls := s'.calls.set i { c with phase := phase } }

/-- An empty cache. -/
def start (now : Int) : State ρ κ ν τ := ⟨now, fun _ => none, [], []⟩

/-! ## What a call can do -/

/-- The value was issued for a request with this key. -/
def IssuedFor (s : State ρ κ ν τ) (k : κ) (value : ν) : Prop :=
  ∃ x ∈ s.issues, x.value = value ∧ key x.request = k

/-- The values that a phase holds. -/
def Phase.value? : Phase ν τ → Option ν
  | .looked entry => entry.map Entry.value
  | .answered value _ | .returned value => some value
  | .stamped entry => some entry.value
  | .started | .fetching | .failed => none

/-- The steps of call `i`, each with the phase it is taken in and the one it leads to. -/
inductive Moved (s : State ρ κ ν τ) (i : Nat) (c : Call ρ ν τ) :
    Action ρ ν τ → State ρ κ ν τ → Phase ν τ → Prop where
  | looked : Moved s i c (.look i) s (.looked (s.cache (key c.request)))
  | served (entry : Entry ν) (hphase : c.phase = .looked (some entry)) (htime : s.now < entry.expiresAt) :
      Moved s i c (.decide i) s (.returned entry.value)
  | missed : Moved s i c (.decide i) s .fetching
  | issued (value : ν) (lifetime : τ) :
      Moved s i c (.issue i value lifetime)
        { s with issues := s.issues ++ [⟨c.request, value, lifetime, s.now⟩] } (.answered value lifetime)
  | stamped (value : ν) (lifetime : τ) (hphase : c.phase = .answered value lifetime) :
      Moved s i c (.stamp i) s (.stamped ⟨value, expiry s.now lifetime⟩)
  | stored (entry : Entry ν) (hphase : c.phase = .stamped entry) :
      Moved s i c (.put i) { s with cache := Function.update s.cache (key c.request) (some entry) }
        (.returned entry.value)
  | failed : Moved s i c (.fail i) s .failed

/-- The ways one step of a call can change the state. -/
inductive Advanced (s : State ρ κ ν τ) (c : Call ρ ν τ) : State ρ κ ν τ → Phase ν τ → Prop where
  /-- Nothing but the phase changes, and what the phase holds was held before. -/
  | kept (phase : Phase ν τ) (hvalue : ∀ v, phase.value? = some v → c.phase.value? = some v) :
      Advanced s c s phase
  | looked (entry : Option (Entry ν)) (hentry : s.cache (key c.request) = entry) :
      Advanced s c s (.looked entry)
  | issued (value : ν) (lifetime : τ) :
      Advanced s c { s with issues := s.issues ++ [⟨c.request, value, lifetime, s.now⟩] }
        (.answered value lifetime)
  | stored (entry : Entry ν) (hphase : c.phase = .stamped entry) :
      Advanced s c { s with cache := Function.update s.cache (key c.request) (some entry) }
        (.returned entry.value)

variable {key expiry} {s s' t : State ρ κ ν τ} {c : Call ρ ν τ} {a : Action ρ ν τ}

/-- **Inversion of a step of a call.** -/
theorem moved_of_advance {i : Nat} {phase : Phase ν τ} (hi : a.index = some i)
    (h : s.advance key expiry c a = some (s', phase)) : Moved key expiry s i c a s' phase := by
  cases a with
  | tick elapsed => cases hi
  | call request => cases hi
  | look j =>
      cases hi
      simp only [State.advance] at h
      split at h
      · cases h
        exact .looked
      · cases h
  | decide j =>
      cases hi
      simp only [State.advance] at h
      split at h
      · rename_i entry hphase
        cases h
        split
        · rename_i htime
          exact .served entry hphase htime
        · exact .missed
      · cases h
        exact .missed
      · cases h
  | issue j value lifetime =>
      cases hi
      simp only [State.advance] at h
      split at h
      · cases h
        exact .issued value lifetime
      · cases h
  | stamp j =>
      cases hi
      simp only [State.advance] at h
      split at h
      · rename_i value lifetime hphase
        cases h
        exact .stamped value lifetime hphase
      · cases h
  | put j =>
      cases hi
      simp only [State.advance] at h
      split at h
      · rename_i entry hphase
        cases h
        exact .stored entry hphase
      · cases h
  | fail j =>
      cases hi
      simp only [State.advance] at h
      split at h
      · cases h
        exact .failed
      · cases h
        exact .failed
      · cases h

theorem Moved.advanced {i : Nat} {phase : Phase ν τ} (h : Moved key expiry s i c a s' phase) :
    Advanced key s c s' phase := by
  cases h with
  | looked => exact .looked _ rfl
  | served entry hphase htime =>
      refine .kept _ fun v hv => ?_
      rw [hphase]
      exact hv
  | missed => exact .kept _ nofun
  | issued value lifetime => exact .issued value lifetime
  | stamped value lifetime hphase =>
      refine .kept _ fun v hv => ?_
      rw [hphase]
      exact hv
  | stored entry hphase => exact .stored entry hphase
  | failed => exact .kept _ nofun

/-- The step of a call leaves the list of calls to the machine. -/
theorem Advanced.calls {phase : Phase ν τ} (h : Advanced key s c s' phase) : s'.calls = s.calls := by
  cases h <;> rfl

/-- A step is the passing of time, a new call, or a step of a call. -/
theorem step_moved (h : step key expiry s a = some s') :
    (∃ elapsed : Nat, a = .tick elapsed ∧ s' = { s with now := s.now + elapsed }) ∨
    (∃ request, a = .call request ∧ s' = { s with calls := s.calls ++ [⟨request, .started⟩] }) ∨
    (∃ i c u phase, s.calls[i]? = some c ∧ Moved key expiry s i c a u phase ∧
      s' = { u with calls := s.calls.set i { c with phase := phase } }) := by
  -- All six steps of a call go through the same bind, with the index of the call.
  have hcall : ∀ i, a.index = some i → (a.index.bind fun i => s.calls[i]?.bind fun c =>
      (s.advance key expiry c a).map fun (s', phase) =>
        { s' with calls := s'.calls.set i { c with phase := phase } }) = some s' →
      ∃ i c u phase, s.calls[i]? = some c ∧ Moved key expiry s i c a u phase ∧
        s' = { u with calls := s.calls.set i { c with phase := phase } } := by
    intro i hi hstep
    rw [hi, Option.bind_some] at hstep
    obtain ⟨c, hc, hstep⟩ := Option.bind_eq_some_iff.mp hstep
    obtain ⟨⟨u, phase⟩, hadvance, rfl⟩ := Option.map_eq_some_iff.mp hstep
    have hmoved := moved_of_advance hi hadvance
    refine ⟨i, c, u, phase, hc, hmoved, ?_⟩
    show { u with calls := u.calls.set i { c with phase := phase } } = _
    rw [hmoved.advanced.calls]
  cases a with
  | tick elapsed =>
      cases h
      exact Or.inl ⟨elapsed, rfl, rfl⟩
  | call request =>
      cases h
      exact Or.inr (Or.inl ⟨request, rfl, rfl⟩)
  | look i => exact Or.inr (Or.inr (hcall i rfl h))
  | decide i => exact Or.inr (Or.inr (hcall i rfl h))
  | issue i value lifetime => exact Or.inr (Or.inr (hcall i rfl h))
  | stamp i => exact Or.inr (Or.inr (hcall i rfl h))
  | put i => exact Or.inr (Or.inr (hcall i rfl h))
  | fail i => exact Or.inr (Or.inr (hcall i rfl h))

/-- The same, with no more of the step of a call than what it changes. -/
theorem step_cases (h : step key expiry s a = some s') :
    (∃ elapsed : Nat, s' = { s with now := s.now + elapsed }) ∨
    (∃ request, a = .call request ∧ s' = { s with calls := s.calls ++ [⟨request, .started⟩] }) ∨
    (∃ i c u phase, s.calls[i]? = some c ∧ Advanced key s c u phase ∧
      s' = { u with calls := s.calls.set i { c with phase := phase } }) := by
  rcases step_moved h with ⟨elapsed, -, hs'⟩ | hcall | ⟨i, c, u, phase, hc, hmoved, hs'⟩
  · exact Or.inl ⟨elapsed, hs'⟩
  · exact Or.inr (Or.inl hcall)
  · exact Or.inr (Or.inr ⟨i, c, u, phase, hc, hmoved.advanced, hs'⟩)

/-! ## Where served values come from -/

/-- The invariant: whatever the cache or a call holds was issued for the same key. -/
structure Sourced (key : ρ → κ) (s : State ρ κ ν τ) : Prop where
  cache : ∀ k entry, s.cache k = some entry → IssuedFor key s k entry.value
  calls : ∀ c ∈ s.calls, ∀ v, c.phase.value? = some v → IssuedFor key s (key c.request) v

omit [DecidableEq κ] in
theorem IssuedFor.mono {k : κ} {v : ν} (h : IssuedFor key s k v) (hissues : ∀ x ∈ s.issues, x ∈ s'.issues) :
    IssuedFor key s' k v := by
  obtain ⟨x, hx, hvalue, hkey⟩ := h
  exact ⟨x, hissues x hx, hvalue, hkey⟩

theorem sourced_advanced {phase : Phase ν τ} {i : Nat} (hs : Sourced key s) (hc : s.calls[i]? = some c)
    (h : Advanced key s c s' phase) :
    Sourced key { s' with calls := s.calls.set i { c with phase := phase } } := by
  have hmem := List.mem_of_getElem? hc
  cases h with
  | kept _ hvalue =>
      refine ⟨hs.cache, Pool.forall_mem_set hs.calls fun v hv => ?_⟩
      exact hs.calls c hmem v (hvalue v hv)
  | looked entry hentry =>
      refine ⟨hs.cache, Pool.forall_mem_set hs.calls fun v hv => ?_⟩
      obtain ⟨e, rfl, rfl⟩ := Option.map_eq_some_iff.mp hv
      exact hs.cache (key c.request) e hentry
  | issued value lifetime =>
      -- The log only grows, so whatever was issued stays issued.
      have hissues : ∀ x ∈ s.issues, x ∈ s.issues ++ [⟨c.request, value, lifetime, s.now⟩] :=
        fun x hx => List.mem_append_left _ hx
      refine ⟨fun k entry hk => (hs.cache k entry hk).mono hissues, Pool.forall_mem_set ?_ ?_⟩
      · exact fun d hd v hv => (hs.calls d hd v hv).mono hissues
      · intro v hv
        cases hv
        exact ⟨_, List.mem_append_right _ List.mem_cons_self, rfl, rfl⟩
  | stored entry hphase =>
      -- The entry comes from the answer to this call, and it is stored under the key of this call.
      have hentry : IssuedFor key s (key c.request) entry.value :=
        hs.calls c hmem entry.value (by rw [hphase]; rfl)
      refine ⟨fun k e hk => ?_, Pool.forall_mem_set hs.calls fun v hv => ?_⟩
      · have hk' : Function.update s.cache (key c.request) (some entry) k = some e := hk
        by_cases hkey : k = key c.request
        · subst hkey
          rw [Function.update_self] at hk'
          cases hk'
          exact hentry
        · rw [Function.update_of_ne hkey] at hk'
          exact hs.cache k e hk'
      · cases hv
        exact hentry

/-- **Step lemma.** -/
theorem sourced_step (hs : Sourced key s) (h : step key expiry s a = some s') : Sourced key s' := by
  rcases step_cases h with ⟨elapsed, rfl⟩ | ⟨request, -, rfl⟩ | ⟨i, c, u, phase, hc, hadvanced, rfl⟩
  · exact ⟨hs.cache, hs.calls⟩
  · exact ⟨hs.cache, Pool.forall_mem_append_singleton hs.calls nofun⟩
  · exact sourced_advanced hs hc hadvanced

omit [DecidableEq κ] in
theorem sourced_start (now : Int) : Sourced key (start now : State ρ κ ν τ) := by
  constructor
  · intro k entry hk
    cases hk
  · intro c hc
    cases hc

/-- **Provenance.** What a call returns was issued for a request with the key of its own. -/
theorem provenance {now : Int} {as : List (Action ρ ν τ)} {v : ν}
    (hrun : run (step key expiry) (start now) as = some t) (hc : c ∈ t.calls) (hv : c.phase = .returned v) :
    IssuedFor key t (key c.request) v :=
  (run_invariant (fun _ _ _ hs h => sourced_step hs h) (sourced_start now) hrun).calls c hc v
    (by rw [hv]; rfl)

/-! ## The requests of a run -/

/-- The requests that calls are made with. -/
def requests (as : List (Action ρ ν τ)) : List ρ :=
  as.filterMap fun
    | .call request => some request
    | _ => none

theorem mem_requests {as : List (Action ρ ν τ)} {request : ρ} (h : Action.call request ∈ as) :
    request ∈ requests as :=
  List.mem_filterMap.mpr ⟨.call request, h, rfl⟩

/-- The calls and the issues are all about requests that satisfy `P`. -/
structure RequestsIn (P : ρ → Prop) (s : State ρ κ ν τ) : Prop where
  calls : ∀ c ∈ s.calls, P c.request
  issues : ∀ x ∈ s.issues, P x.request

theorem requestsIn_step {P : ρ → Prop} (hs : RequestsIn P s) (ha : ∀ request, a = .call request → P request)
    (h : step key expiry s a = some s') : RequestsIn P s' := by
  rcases step_cases h with ⟨elapsed, rfl⟩ | ⟨request, hcall, rfl⟩ | ⟨i, c, u, phase, hc, hadvanced, rfl⟩
  · exact ⟨hs.calls, hs.issues⟩
  · exact ⟨Pool.forall_mem_append_singleton hs.calls (ha request hcall), hs.issues⟩
  · have hP := hs.calls c (List.mem_of_getElem? hc)
    refine ⟨Pool.forall_mem_set hs.calls hP, ?_⟩
    cases hadvanced with
    | kept _ _ => exact hs.issues
    | looked entry _ => exact hs.issues
    | issued value lifetime => exact Pool.forall_mem_append_singleton hs.issues hP
    | stored entry _ => exact hs.issues

/-- Every call and every issue of a run is about one of its requests. -/
theorem requestsIn_run {now : Int} {as : List (Action ρ ν τ)}
    (hrun : run (step key expiry) (start now) as = some t) : RequestsIn (· ∈ requests as) t := by
  have hstart : RequestsIn (· ∈ requests as) (start now : State ρ κ ν τ) := by
    constructor
    · intro c hc
      cases hc
    · intro x hx
      cases hx
  -- The property is about the actions of this run, so the invariant goes along with their list.
  refine run_invariant_along (G := fun _ a => a ∈ as) (fun _ _ _ hs ha h => ?_) hstart
    (along_of_forall fun a ha => ha) hrun
  refine requestsIn_step hs ?_ h
  rintro request rfl
  exact mem_requests ha

end TimedCache
