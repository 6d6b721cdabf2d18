import Gekko.Lib.Machine
import Gekko.Lib.Pool
import Gekko.Lib.Versions
import Gekko.Warehouse.Jwks


/-! # `Gekko.Warehouse.Refresh` — the key set of Warehouse Service and its background refresh

`AuthContext::verify` looks the `kid` of a token up, and when it is unknown calls `maybe_spawn_refresh`,
which tests the age of `last_fetch`, tries to set the flag `refreshing`, and where it has set it spawns
a task. The task fetches the key set, stores it together with the time if the fetch has succeeded, and
clears the flag. Each of these is one atomic step here, and any number of calls and tasks take theirs in
any order, with any outcome of the fetches.

The documents that Keycloak serves are numbered in the order of time. `Versions.Store` goes along with
the state and remembers which of them is served and which one was stored last.

## Contents
- `single_flight` — at most one task runs, the flag is set as long as it does, and the key set is only
  ever exchanged for that of a document that is no older.
- `refreshes_spaced` — what keeps the fetches `minRefreshInterval` apart: at the step that sets the
  flag, the last fetch is still that old, and no fetch of the last `minRefreshInterval` has failed.
-/

namespace Gekko.Warehouse.Auth

open Machine Versions

/-- Where a call of `verify` is. -/
inductive Phase (κ : Type) where
  | arrived
  /-- The `kid` is unknown: `maybe_spawn_refresh` is called. -/
  | absent
  /-- The last fetch is old enough: `compare_exchange` is next. -/
  | due
  /-- The key is looked up for the verification. -/
  | looking
  | answered (key : Option κ)

/-- A call of `verify`, for the `kid` in the header of its token, if there is one. -/
structure Call (κ : Type) where
  kid : Option String
  phase : Phase κ

/-- Where a background task is. -/
inductive TaskPhase where
  | spawned
  | fetching
  /-- The answer of Keycloak is in, and not decoded yet. -/
  | received (ticket : Ticket)
  /-- `refreshing.store(false)` is next. -/
  | closing
  | done
  deriving DecidableEq, Repr

structure Task where
  /-- The time at which the request for the key set was sent. -/
  startedAt : Option Int
  /-- The keys that were fetched have been stored. -/
  succeeded : Bool
  phase : TaskPhase
  deriving DecidableEq, Repr

structure KeySet (κ : Type) where
  keys : String → Option κ
  lastFetch : Int

structure State (κ : Type) where
  now : Int
  keyset : KeySet κ
  refreshing : Bool
  calls : List (Call κ)
  tasks : List Task
  versions : Store

inductive Act where
  /-- Keycloak serves the next document from now on. -/
  | publish
  | arrive (kid : Option String)
  /-- `contains_key`. -/
  | look (i : Nat)
  /-- The test of `last_fetch`. -/
  | test (i : Nat)
  /-- `compare_exchange`, and `tokio::spawn` where it has succeeded. -/
  | swap (i : Nat)
  /-- `get`. -/
  | find (i : Nat)
  /-- Task `j` sends its request. -/
  | send (j : Nat)
  /-- Keycloak answers the request of task `j` with the document that it serves. -/
  | receive (j : Nat)
  /-- The request of task `j` fails, or its answer cannot be decoded. -/
  | fail (j : Nat)
  /-- Task `j` stores the keys and the time. -/
  | install (j : Nat)
  /-- Task `j` clears the flag. -/
  | clear (j : Nat)
  deriving DecidableEq, Repr

/-- An act at a time. -/
structure Action where
  time : Int
  act : Act
  deriving DecidableEq, Repr

/-- `MIN_REFRESH_INTERVAL`, in nanoseconds. -/
def minRefreshInterval : Int := 10 * 10 ^ 9

variable {κ : Type}

/-- The first thing that `verify` does with the key set. -/
def State.looked (s : State κ) (c : Call κ) : Call κ :=
  match c.kid with
  | some kid => if (s.keyset.keys kid).isSome then { c with phase := .looking }
      else { c with phase := .absent }
  -- `missing kid`
  | none => { c with phase := .answered none }

/-- The last fetch is old enough. -/
def State.due (s : State κ) : Bool := decide (minRefreshInterval ≤ s.now - s.keyset.lastFetch)

def State.tested (s : State κ) (c : Call κ) : Call κ :=
  if s.due then { c with phase := .due } else { c with phase := .looking }

def State.found (s : State κ) (c : Call κ) : Call κ :=
  { c with phase := .answered (c.kid.bind s.keyset.keys) }

/-- The task that `tokio::spawn` starts. -/
def Task.new : Task := ⟨none, false, .spawned⟩

/-- The act, at the time that the state shows. -/
def State.perform (s : State κ) (decodeKey : String → String → Option κ) (docs : Nat → Json) :
    Act → Option (State κ)
  | .publish => some { s with versions := s.versions.publish }
  | .arrive kid => some { s with calls := s.calls ++ [⟨kid, .arrived⟩] }
  | .look i =>
      (s.calls[i]?).bind fun c =>
        match c.phase with
        | .arrived => some { s with calls := s.calls.set i (s.looked c) }
        | _ => none
  | .test i =>
      (s.calls[i]?).bind fun c =>
        match c.phase with
        | .absent => some { s with calls := s.calls.set i (s.tested c) }
        | _ => none
  -- The key set is not locked here, so the test may have been of another one.
  | .swap i =>
      (s.calls[i]?).bind fun c =>
        match c.phase with
        | .due =>
            let calls := s.calls.set i { c with phase := .looking }
            if s.refreshing then some { s with calls := calls }
            else some { s with refreshing := true, calls := calls, tasks := s.tasks ++ [Task.new] }
        | _ => none
  | .find i =>
      (s.calls[i]?).bind fun c =>
        match c.phase with
        | .looking => some { s with calls := s.calls.set i (s.found c) }
        | _ => none
  | .send j =>
      (s.tasks[j]?).bind fun t =>
        match t.phase with
        | .spawned =>
            some { s with tasks := s.tasks.set j { t with startedAt := some s.now, phase := .fetching } }
        | _ => none
  | .receive j =>
      (s.tasks[j]?).bind fun t =>
        match t.phase with
        | .fetching => some { s with tasks := s.tasks.set j { t with phase := .received s.versions.read } }
        | _ => none
  -- Neither the keys nor the time change.
  | .fail j =>
      (s.tasks[j]?).bind fun t =>
        match t.phase with
        | .fetching | .received _ => some { s with tasks := s.tasks.set j { t with phase := .closing } }
        | _ => none
  | .install j =>
      (s.tasks[j]?).bind fun t =>
        match t.phase with
        | .received ticket =>
            (fetchKeys decodeKey (some (docs ticket.version))).map fun keys =>
              { s with
                keyset := ⟨keys, s.now⟩
                versions := s.versions.install ticket
                tasks := s.tasks.set j { t with succeeded := true, phase := .closing } }
        | _ => none
  | .clear j =>
      (s.tasks[j]?).bind fun t =>
        match t.phase with
        | .closing => some { s with refreshing := false, tasks := s.tasks.set j { t with phase := .done } }
        | _ => none

/-- The state when time has gone on. -/
def State.at (s : State κ) (time : Int) : State κ := { s with now := time }

/-- One step. The clock does not go back. -/
def step (decodeKey : String → String → Option κ) (docs : Nat → Json) (s : State κ)
    (a : Action) : Option (State κ) :=
  if a.time < s.now then none else (s.at a.time).perform decodeKey docs a.act

/-- `build_auth_context`, which has fetched document 0. -/
def start (keys : String → Option κ) (startedAt : Int) : State κ :=
  ⟨startedAt, ⟨keys, startedAt⟩, false, [], [], ⟨0, 0, 0⟩⟩

/-! ## What a step can do -/

/-- Call `i` is the one that sets the flag, when its turn comes now. -/
def State.wins (s : State κ) (i : Nat) : Bool :=
  match s.calls[i]? with
  | some ⟨_, .due⟩ => !s.refreshing
  | _ => false

def TaskPhase.isUnanswered : TaskPhase → Bool
  | .fetching | .received _ => true
  | _ => false

/-- The ways an act can change the state. -/
inductive Performed (decodeKey : String → String → Option κ) (docs : Nat → Json)
    (s : State κ) : Act → State κ → Prop where
  | published : Performed decodeKey docs s .publish { s with versions := s.versions.publish }
  | arrived (kid : Option String) (calls : List (Call κ)) :
      Performed decodeKey docs s (.arrive kid) { s with calls := calls }
  | looked (i : Nat) (calls : List (Call κ)) : Performed decodeKey docs s (.look i) { s with calls := calls }
  | tested (i : Nat) (calls : List (Call κ)) : Performed decodeKey docs s (.test i) { s with calls := calls }
  | lost (i : Nat) (calls : List (Call κ)) (hflag : s.refreshing = true) :
      Performed decodeKey docs s (.swap i) { s with calls := calls }
  | won (i : Nat) (calls : List (Call κ)) (hwins : s.wins i = true) (hflag : s.refreshing = false) :
      Performed decodeKey docs s (.swap i)
          { s with refreshing := true, calls := calls, tasks := s.tasks ++ [Task.new] }
  | found (i : Nat) (calls : List (Call κ)) : Performed decodeKey docs s (.find i) { s with calls := calls }
  | sent (j : Nat) (t : Task) (ht : s.tasks[j]? = some t) (hphase : t.phase = .spawned) :
      Performed decodeKey docs s (.send j)
        { s with tasks := s.tasks.set j { t with startedAt := some s.now, phase := .fetching } }
  | received (j : Nat) (t : Task) (ht : s.tasks[j]? = some t) (hphase : t.phase = .fetching) :
      Performed decodeKey docs s (.receive j)
        { s with tasks := s.tasks.set j { t with phase := .received s.versions.read } }
  | failed (j : Nat) (t : Task) (ht : s.tasks[j]? = some t) (hphase : t.phase.isUnanswered = true) :
      Performed decodeKey docs s (.fail j) { s with tasks := s.tasks.set j { t with phase := .closing } }
  | installed (j : Nat) (t : Task) (ticket : Ticket) (keys : String → Option κ) (ht : s.tasks[j]? = some t)
      (hphase : t.phase = .received ticket)
          (hkeys : fetchKeys decodeKey (some (docs ticket.version)) = some keys) :
      Performed decodeKey docs s (.install j)
        { s with
          keyset := ⟨keys, s.now⟩
          versions := s.versions.install ticket
          tasks := s.tasks.set j { t with succeeded := true, phase := .closing } }
  | cleared (j : Nat) (t : Task) (ht : s.tasks[j]? = some t) (hphase : t.phase = .closing) :
      Performed decodeKey docs s (.clear j)
        { s with refreshing := false, tasks := s.tasks.set j { t with phase := .done } }

variable {decodeKey : String → String → Option κ} {docs : Nat → Json} {s s' : State κ} {a : Action}

/-- **Inversion of an act.** -/
theorem performed_of_perform {act : Act} (h : s.perform decodeKey docs act = some s') :
    Performed decodeKey docs s act s' := by
  cases act with
  | publish =>
      cases h
      exact .published
  | arrive kid =>
      cases h
      exact .arrived kid _
  | look i =>
      obtain ⟨c, hc, h⟩ := Option.bind_eq_some_iff.mp h
      split at h
      · cases h
        exact .looked i _
      · cases h
  | test i =>
      obtain ⟨c, hc, h⟩ := Option.bind_eq_some_iff.mp h
      split at h
      · cases h
        exact .tested i _
      · cases h
  -- The flag decides between `lost` and `won`.
  | swap i =>
      obtain ⟨c, hc, h⟩ := Option.bind_eq_some_iff.mp h
      obtain ⟨kid, phase⟩ := c
      split at h
      · rename_i hphase
        cases hphase
        by_cases hflag : s.refreshing = true
        · rw [if_pos hflag] at h
          cases h
          exact .lost i _ hflag
        · rw [if_neg hflag] at h
          cases h
          have hclear : s.refreshing = false := Bool.eq_false_iff.mpr hflag
          refine .won i _ ?_ hclear
          unfold State.wins
          rw [hc, hclear]
          rfl
      · cases h
  | find i =>
      obtain ⟨c, hc, h⟩ := Option.bind_eq_some_iff.mp h
      split at h
      · cases h
        exact .found i _
      · cases h
  | send j =>
      obtain ⟨t, ht, h⟩ := Option.bind_eq_some_iff.mp h
      split at h
      · rename_i hphase
        cases h
        exact .sent j t ht hphase
      · cases h
  | receive j =>
      obtain ⟨t, ht, h⟩ := Option.bind_eq_some_iff.mp h
      split at h
      · rename_i hphase
        cases h
        exact .received j t ht hphase
      · cases h
  | fail j =>
      obtain ⟨t, ht, h⟩ := Option.bind_eq_some_iff.mp h
      split at h
      · rename_i hphase
        cases h
        exact .failed j t ht (by rw [hphase]; rfl)
      · rename_i hphase
        cases h
        exact .failed j t ht (by rw [hphase]; rfl)
      · cases h
  | install j =>
      obtain ⟨t, ht, h⟩ := Option.bind_eq_some_iff.mp h
      split at h
      · rename_i ticket hphase
        obtain ⟨keys, hkeys, rfl⟩ := Option.map_eq_some_iff.mp h
        exact .installed j t ticket keys ht hphase hkeys
      · cases h
  | clear j =>
      obtain ⟨t, ht, h⟩ := Option.bind_eq_some_iff.mp h
      split at h
      · rename_i hphase
        cases h
        exact .cleared j t ht hphase
      · cases h

theorem step_eq_some (h : step decodeKey docs s a = some s') :
    s.now ≤ a.time ∧ Performed decodeKey docs (s.at a.time) a.act s' := by
  unfold step at h
  split at h
  · cases h
  · rename_i hle
    exact ⟨Int.not_lt.mp hle, performed_of_perform h⟩

/-! ## One task at a time -/

def Task.running (t : Task) : Bool :=
  match t.phase with
  | .done => false
  | _ => true

/-- Task `j` has not cleared the flag yet. -/
def State.Runs (s : State κ) (j : Nat) : Prop := ∃ t, s.tasks[j]? = some t ∧ t.running = true

/-- Task `j` is done with its fetch. -/
def State.Over (s : State κ) (j : Nat) : Prop :=
  ∃ t, s.tasks[j]? = some t ∧ (t.phase = .closing ∨ t.phase = .done)

structure Flight (s : State κ) : Prop where
  one : ∀ i j, s.Runs i → s.Runs j → i = j
  flag : s.refreshing = true ↔ ∃ j, s.Runs j
  sound : s.versions.Sound
  /-- Nothing has been stored since the answer came in. -/
  ticket : ∀ t ∈ s.tasks, ∀ k, t.phase = .received k → s.versions.Valid k ∧ s.versions.Fresh k

theorem flight_start (keys : String → Option κ) (startedAt : Int) : Flight (start keys startedAt) := by
  have hnone : ∀ j, ¬ (start keys startedAt).Runs j := by
    rintro j ⟨t, ht, -⟩
    cases ht
  refine ⟨?_, ?_, Nat.le_refl _, ?_⟩
  · intro i j hi
    exact absurd hi (hnone i)
  · constructor
    · intro h
      cases h
    · rintro ⟨j, hj⟩
      exact absurd hj (hnone j)
  · intro t ht
    exact absurd ht List.not_mem_nil

/-- One task is replaced in its place by one that runs as long. -/
theorem runs_set {i j : Nat} {t t' : Task} (htasks : s'.tasks = s.tasks.set j t') (ht : s.tasks[j]? = some t)
    (hrun : t'.running = t.running) : s'.Runs i ↔ s.Runs i := by
  unfold State.Runs
  rw [htasks]
  constructor
  · rintro ⟨u, hu, hrunning⟩
    rcases Pool.getElem?_set_cases hu with ⟨rfl, rfl⟩ | ⟨-, hu⟩
    · exact ⟨t, ht, hrun.symm.trans hrunning⟩
    · exact ⟨u, hu, hrunning⟩
  · rintro ⟨u, hu, hrunning⟩
    obtain ⟨w, hw, heq⟩ :=
      Pool.exists_getElem?_set (R := fun x y : Task => y.running = x.running) (fun _ => rfl) hu ht hrun
    exact ⟨w, hw, heq.trans hrunning⟩

/-- A task takes a step of its fetch, short of storing the keys. -/
theorem flight_set {j : Nat} {t t' : Task} (hs : Flight s) (ht : s.tasks[j]? = some t)
    (hrun : t'.running = t.running)
    (hticket : ∀ k, t'.phase = .received k → s.versions.Valid k ∧ s.versions.Fresh k) :
    Flight { s with tasks := s.tasks.set j t' } := by
  have hruns : ∀ i, State.Runs { s with tasks := s.tasks.set j t' } i ↔ s.Runs i :=
    fun i => runs_set rfl ht hrun
  refine ⟨?_, ?_, hs.sound, Pool.forall_mem_set hs.ticket hticket⟩
  · intro i k hi hk
    exact hs.one i k ((hruns i).mp hi) ((hruns k).mp hk)
  · rw [exists_congr hruns]
    exact hs.flag

/-- The flag was clear, so the new task is the only one. -/
theorem flight_won (hs : Flight s) (hflag : s.refreshing = false) (calls : List (Call κ)) :
    Flight { s with refreshing := true, calls := calls, tasks := s.tasks ++ [Task.new] } := by
  have hnone : ∀ j, ¬ s.Runs j := by
    intro j hj
    have hset := hs.flag.mpr ⟨j, hj⟩
    rw [hflag] at hset
    cases hset
  have honly : ∀ j,
      State.Runs { s with refreshing := true, calls := calls, tasks := s.tasks ++ [Task.new] } j →
      j = s.tasks.length := by
    rintro j ⟨t, ht, hrunning⟩
    rcases Pool.getElem?_append_cases ht with ⟨hj, -⟩ | ht
    · exact hj
    · exact absurd ⟨t, ht, hrunning⟩ (hnone j)
  refine ⟨?_, ?_, hs.sound, Pool.forall_mem_append_singleton hs.ticket nofun⟩
  · intro i j hi hj
    rw [honly i hi, honly j hj]
  · exact iff_of_true rfl ⟨s.tasks.length, Task.new, List.getElem?_concat_length, rfl⟩

/-- The only task that runs stores what it has received, so no answer is in any more. -/
theorem flight_installed {j : Nat} {t : Task} {ticket : Ticket} (hs : Flight s) (ht : s.tasks[j]? = some t)
    (hphase : t.phase = .received ticket) (keys : String → Option κ) :
    Flight
      { s with
        keyset := ⟨keys, s.now⟩
        versions := s.versions.install ticket
        tasks := s.tasks.set j { t with succeeded := true, phase := .closing } } := by
  have hrunning : t.running = true := by
    unfold Task.running
    rw [hphase]
  have hruns : ∀ i, State.Runs { s with tasks := s.tasks.set j { t with
      succeeded := true, phase := .closing } } i ↔
      s.Runs i := fun i => runs_set rfl ht hrunning.symm
  refine ⟨?_, ?_, (hs.ticket t (List.mem_of_getElem? ht) ticket hphase).1.version, ?_⟩
  · intro i k hi hk
    exact hs.one i k ((hruns i).mp hi) ((hruns k).mp hk)
  · exact hs.flag.trans (exists_congr hruns).symm
  · intro u hu k hk
    obtain ⟨i, hi⟩ := List.mem_iff_getElem?.mp hu
    rcases Pool.getElem?_set_cases hi with ⟨-, rfl⟩ | ⟨hne, hi⟩
    · cases hk
    · -- Another task would run beside this one.
      have hother : u.running = true := by
        unfold Task.running
        rw [hk]
      exact absurd (hs.one i j ⟨u, hi, hother⟩ ⟨t, ht, hrunning⟩) hne

/-- The only task that runs clears the flag. -/
theorem flight_cleared {j : Nat} {t : Task} (hs : Flight s) (ht : s.tasks[j]? = some t)
    (hphase : t.phase = .closing) :
    Flight { s with refreshing := false, tasks := s.tasks.set j { t with phase := .done } } := by
  have hrunning : t.running = true := by
    unfold Task.running
    rw [hphase]
  have hnone : ∀ i,
      ¬ State.Runs { s with refreshing := false, tasks := s.tasks.set j { t with phase := .done } } i := by
    rintro i ⟨u, hu, hother⟩
    rcases Pool.getElem?_set_cases hu with ⟨-, rfl⟩ | ⟨hne, hu⟩
    · cases hother
    · exact hne (hs.one i j ⟨u, hu, hother⟩ ⟨t, ht, hrunning⟩)
  refine ⟨?_, ?_, hs.sound, Pool.forall_mem_set hs.ticket nofun⟩
  · intro i k hi
    exact absurd hi (hnone i)
  · constructor
    · intro h
      cases h
    · rintro ⟨i, hi⟩
      exact absurd hi (hnone i)

theorem Flight.at (hs : Flight s) (time : Int) : Flight (s.at time) :=
  ⟨hs.one, hs.flag, hs.sound, hs.ticket⟩

theorem flight_calls (hs : Flight s) (calls : List (Call κ)) :
    Flight { s with calls := calls } := ⟨hs.one, hs.flag, hs.sound, hs.ticket⟩

theorem flight_performed {act : Act} (hs : Flight s) (h : Performed decodeKey docs s act s') :
    Flight s' := by
  cases h with
  | published =>
      refine ⟨hs.one, hs.flag, hs.sound.publish, ?_⟩
      intro t ht k hk
      obtain ⟨hvalid, hfresh⟩ := hs.ticket t ht k hk
      exact ⟨hvalid.publish, hfresh⟩
  | arrived kid calls => exact flight_calls hs calls
  | looked i calls => exact flight_calls hs calls
  | tested i calls => exact flight_calls hs calls
  | lost i calls hflag => exact flight_calls hs calls
  | won i calls hwins hflag => exact flight_won hs hflag calls
  | found i calls => exact flight_calls hs calls
  | sent j t ht hphase => exact flight_set hs ht (by simp [Task.running, hphase]) nofun
  | received j t ht hphase =>
      refine flight_set hs ht (by simp [Task.running, hphase]) ?_
      intro k hk
      cases hk
      exact ⟨hs.sound.read, Store.fresh_read s.versions⟩
  | failed j t ht hphase =>
      have hrunning : t.running = true := by
        revert hphase
        unfold Task.running TaskPhase.isUnanswered
        cases t.phase <;> simp
      exact flight_set hs ht hrunning.symm nofun
  | installed j t ticket keys ht hphase hkeys => exact flight_installed hs ht hphase keys
  | cleared j t ht hphase => exact flight_cleared hs ht hphase

theorem flight_step (hs : Flight s) (h : step decodeKey docs s a = some s') :
    Flight s' :=
  flight_performed (hs.at a.time) (step_eq_some h).2

/-! ## What one step does to the flag and the key set -/

/-- The act sets the flag now. -/
def State.Wins (s : State κ) (a : Action) : Prop := ∃ i, a.act = .swap i ∧ (s.at a.time).wins i = true

structure Guarded (s : State κ) (a : Action) (s' : State κ) : Prop where
  sets : (s.refreshing = false ∧ s'.refreshing = true) ↔ s.Wins a
  clears : (s.refreshing = true ∧ s'.refreshing = false) ↔ ∃ j, a.act = .clear j
  /-- A task is spawned by the step that sets the flag, and by no other. -/
  spawns : s'.tasks.length ≠ s.tasks.length ↔ s.Wins a
  keeps : (∀ j, a.act ≠ .install j) → s'.keyset = s.keyset
  fails : ∀ j, a.act = .fail j → s'.Over j

/-- The flag after an act. -/
def State.flagAfter (s : State κ) : Act → Bool
  | .swap i => s.refreshing || s.wins i
  | .clear _ => false
  | _ => s.refreshing

theorem refreshing_performed {act : Act} (h : Performed decodeKey docs s act s') :
    s'.refreshing = s.flagAfter act := by
  cases h with
  | lost i calls hflag =>
      simp only [State.flagAfter, hflag, Bool.true_or]
  | won i calls hwins hflag =>
      simp only [State.flagAfter, hwins, Bool.or_true]
  | _ => rfl

theorem wins_flag {i : Nat} (h : s.wins i = true) : s.refreshing = false := by
  unfold State.wins at h
  split at h
  · exact (Bool.not_eq_true' _).mp h
  · cases h

theorem flagAfter_sets_iff {act : Act} :
    (s.refreshing = false ∧ s.flagAfter act = true) ↔ ∃ i, act = .swap i ∧ s.wins i = true := by
  constructor
  · rintro ⟨hbefore, hafter⟩
    unfold State.flagAfter at hafter
    split at hafter
    · rename_i i
      exact ⟨i, rfl, (Bool.or_eq_true _ _ ▸ hafter).resolve_left (ne_true_of_eq_false hbefore)⟩
    · cases hafter
    · exact absurd hafter (ne_true_of_eq_false hbefore)
  · rintro ⟨i, rfl, hwins⟩
    refine ⟨wins_flag hwins, ?_⟩
    unfold State.flagAfter
    exact Bool.or_eq_true _ _ ▸ Or.inr hwins

theorem eq_clear_of_flagAfter {act : Act} (hbefore : s.refreshing = true) (hafter : s.flagAfter act = false) :
    ∃ j, act = .clear j := by
  unfold State.flagAfter at hafter
  split at hafter
  · exact absurd (Bool.or_eq_false_iff.mp hafter).1 (ne_false_of_eq_true hbefore)
  · rename_i j
    exact ⟨j, rfl⟩
  · exact absurd hafter (ne_false_of_eq_true hbefore)

theorem length_performed {act : Act} (h : Performed decodeKey docs s act s') :
    s'.tasks.length ≠ s.tasks.length ↔ ∃ i, act = .swap i ∧ s.wins i = true := by
  cases h with
  | lost i calls hflag =>
      refine iff_of_false (fun hne => hne rfl) ?_
      rintro ⟨k, -, hk⟩
      rw [wins_flag hk] at hflag
      cases hflag
  | won i calls hwins hflag =>
      refine iff_of_true ?_ ⟨i, rfl, hwins⟩
      simp only [List.length_append, List.length_singleton]
      omega
  | _ => simp

theorem keyset_performed {act : Act} (h : Performed decodeKey docs s act s') (hnone : ∀ j, act ≠ .install j) :
    s'.keyset = s.keyset := by
  cases h with
  | installed j t ticket keys ht hphase hkeys => exact absurd rfl (hnone j)
  | _ => rfl

theorem guarded_step (hs : Flight s) (h : step decodeKey docs s a = some s') : Guarded s a s' := by
  obtain ⟨time, act⟩ := a
  obtain ⟨-, hperformed⟩ := step_eq_some h
  have hflag : s'.refreshing = (s.at time).flagAfter act := refreshing_performed hperformed
  constructor
  · rw [hflag]
    exact flagAfter_sets_iff (s := s.at time)
  · constructor
    · rintro ⟨hbefore, hafter⟩
      rw [hflag] at hafter
      exact eq_clear_of_flagAfter (s := s.at time) hbefore hafter
    · rintro ⟨j, hact⟩
      have hclear : act = .clear j := hact
      subst hclear
      -- The task that clears the flag has run until now.
      cases hperformed with
      | cleared _ t ht hphase =>
          refine ⟨hs.flag.mpr ⟨j, t, ht, ?_⟩, rfl⟩
          unfold Task.running
          rw [hphase]
  · exact length_performed (s := s.at time) hperformed
  · exact keyset_performed (s := s.at time) hperformed
  · intro j hact
    have hfail : act = .fail j := hact
    subst hfail
    cases hperformed with
    | failed _ t ht hphase =>
        exact ⟨_, List.getElem?_set_self (List.getElem?_eq_some_iff.mp ht).1, Or.inl rfl⟩

/-- A task that is done with its fetch stays so. -/
theorem over_step {j : Nat} (hs : s.Over j) (h : step decodeKey docs s a = some s') : s'.Over j := by
  obtain ⟨t, ht, hover⟩ := hs
  have hset : ∀ {i : Nat} {u u' : Task}, s.tasks[i]? = some u →
      ((u.phase = .closing ∨ u.phase = .done) → u'.phase = .closing ∨ u'.phase = .done) →
      ∃ w, (s.tasks.set i u')[j]? = some w ∧ (w.phase = .closing ∨ w.phase = .done) := by
    intro i u u' hu himp
    obtain ⟨w, hw, hkeep⟩ := Pool.exists_getElem?_set
      (R := fun x y : Task => (x.phase = .closing ∨ x.phase = .done) → y.phase = .closing ∨ y.phase = .done)
      (fun _ => id) ht hu himp
    exact ⟨w, hw, hkeep hover⟩
  obtain ⟨time, act⟩ := a
  cases (step_eq_some h).2 with
  | won i calls hwins hflag => exact ⟨t, Pool.getElem?_append_of_some ht, hover⟩
  | sent i u hu hphase => exact hset hu (by simp [hphase])
  | received i u hu hphase => exact hset hu (by simp [hphase])
  | failed i u hu hphase => exact hset hu fun _ => Or.inl rfl
  | installed i u ticket keys hu hphase hkeys => exact hset hu fun _ => Or.inl rfl
  | cleared i u hu hphase => exact hset hu fun _ => Or.inr rfl
  | _ => exact ⟨t, ht, hover⟩

theorem install_eq_none_of_over {j : Nat} (hs : s.Over j) (ha : a.act = .install j) :
    step decodeKey docs s a = none := by
  rw [Option.eq_none_iff_forall_ne_some]
  intro s' h
  obtain ⟨-, hperformed⟩ := step_eq_some h
  rw [ha] at hperformed
  cases hperformed with
  | installed _ t ticket keys ht hphase hkeys =>
      obtain ⟨u, hu, hover⟩ := hs
      have hsame : u = t := Option.some.inj (hu.symm.trans ht)
      subst hsame
      simp [hphase] at hover

/-- **The number of the stored document does not fall.** -/
theorem installed_le_step (hs : Flight s) (h : step decodeKey docs s a = some s') :
    s.versions.installed ≤ s'.versions.installed := by
  obtain ⟨time, act⟩ := a
  cases (step_eq_some h).2 with
  | installed j t ticket keys ht hphase hkeys =>
      obtain ⟨hvalid, hfresh⟩ := hs.ticket t (List.mem_of_getElem? ht) ticket hphase
      exact Store.installed_le_install hvalid hfresh
  | _ => exact Nat.le_refl _

/-- The keys are those of the document that was stored last. -/
theorem stored_step (hs : fetchKeys decodeKey (some (docs s.versions.installed)) = some s.keyset.keys)
    (h : step decodeKey docs s a = some s') :
    fetchKeys decodeKey (some (docs s'.versions.installed)) = some s'.keyset.keys := by
  obtain ⟨time, act⟩ := a
  cases (step_eq_some h).2 with
  | installed j t ticket keys ht hphase hkeys => exact hkeys
  | _ => exact hs

theorem flight_run {as : List Action} {keys : String → Option κ} {startedAt : Int}
    (hrun : run (step decodeKey docs) (start keys startedAt) as = some s) : Flight s :=
  run_invariant (fun _ _ _ hs h => flight_step hs h) (flight_start keys startedAt) hrun

theorem installed_mono {as : List Action} {t : State κ} (hs : Flight s)
    (hrun : run (step decodeKey docs) s as = some t) : s.versions.installed ≤ t.versions.installed := by
  have hinv : Flight t ∧ s.versions.installed ≤ t.versions.installed := by
    refine run_invariant (I := fun u => Flight u ∧ s.versions.installed ≤ u.versions.installed)
      ?_ ⟨hs, Nat.le_refl _⟩ hrun
    rintro u b u' ⟨hu, hle⟩ h
    exact ⟨flight_step hu h, Nat.le_trans hle (installed_le_step hu h)⟩
  exact hinv.2

theorem stored_run {as : List Action} {keys : String → Option κ} {startedAt : Int}
    (hkeys : fetchKeys decodeKey (some (docs 0)) = some keys)
    (hrun : run (step decodeKey docs) (start keys startedAt) as = some s) :
    fetchKeys decodeKey (some (docs s.versions.installed)) = some s.keyset.keys :=
  run_invariant (I := fun u : State κ =>
                  fetchKeys decodeKey (some (docs u.versions.installed)) = some u.keyset.keys)
    (fun _ _ _ hu h => stored_step hu h) hkeys hrun

/-- **One refresh at a time.** In a state `s` that any run has reached, and for any state `t` that is
reached from it. -/
theorem single_flight {keys : String → Option κ} {startedAt : Int} {as bs : List Action} {t : State κ}
    (hkeys : fetchKeys decodeKey (some (docs 0)) = some keys)
    (hs : run (step decodeKey docs) (start keys startedAt) as = some s)
    (ht : run (step decodeKey docs) s bs = some t) :
    (∀ i j, s.Runs i → s.Runs j → i = j) ∧
      (s.refreshing = true ↔ ∃ j, s.Runs j) ∧
      (∀ a s', step decodeKey docs s a = some s' → Guarded s a s') ∧
      (∀ j, s.Over j → ∀ a, a.act = .install j → step decodeKey docs t a = none) ∧
      fetchKeys decodeKey (some (docs s.versions.installed)) = some s.keyset.keys ∧
      s.versions.installed ≤ t.versions.installed := by
  have hflight := flight_run hs
  refine ⟨hflight.one, hflight.flag, fun a s' h => guarded_step hflight h, ?_, stored_run hkeys hs,
    installed_mono hflight ht⟩
  intro j hj a ha
  have hover : t.Over j := run_invariant (I := fun u => u.Over j) (fun _ _ _ hu h => over_step hu h) hj ht
  exact install_eq_none_of_over hover ha

/-- A key set with one key. -/
def singleton (kid : String) : Json :=
  .obj [("keys", .arr
    [.obj [("kid", .str kid), ("kty", .str "RSA"), ("n", .str "AQAB"), ("e", .str "AQAB")]])]

/-- The second document is for the key that comes after the first rotation. -/
def rotation (version : Nat) : Json := singleton (if version = 0 then "old" else "new")

/-- Keycloak rotates its key, and two tokens come that are signed with the new one. -/
def twoUnknown : List Action :=
  [⟨0, .publish⟩, ⟨1, .arrive (some "new")⟩, ⟨1, .arrive (some "new")⟩, ⟨1, .look 0⟩, ⟨1, .look 1⟩,
    ⟨minRefreshInterval, .test 0⟩, ⟨minRefreshInterval, .test 1⟩, ⟨minRefreshInterval, .swap 1⟩,
    ⟨minRefreshInterval, .swap 0⟩, ⟨minRefreshInterval, .send 0⟩]

def storing : List Action := [⟨minRefreshInterval, .receive 0⟩, ⟨minRefreshInterval + 1, .install 0⟩]

theorem twoUnknown_storing :
    ∃ s t : State Unit, ∃ keys, run (step (fun _ _ => some ()) rotation) (start keys 0) twoUnknown = some s ∧
      run (step (fun _ _ => some ()) rotation) s storing = some t ∧ s.tasks.length = 1 ∧
      (∀ i j, s.Runs i → s.Runs j → i = j) ∧ (s.refreshing = true ↔ ∃ j, s.Runs j) ∧
      s.versions.installed = 0 ∧ t.versions.installed = 1 ∧ s.versions.installed ≤ t.versions.installed := by
  have hkeys : fetchKeys (fun _ _ => some ()) (some (rotation 0)) =
      some (Function.update (fun _ => none) "old" (some ())) := by
    simp [fetchKeys, rotation, singleton, JwkSet.decode, decodeAll, Jwk.decode, textField, insertKey]
  have hobs : (run (step (fun _ _ => some ()) rotation)
      (start (Function.update (fun _ => none) "old" (some ())) 0) twoUnknown).map
      (fun s => (s.tasks.length, s.versions.installed)) = some (1, 0) := by decide +kernel
  have hobs' : (run (step (fun _ _ => some ()) rotation)
      (start (Function.update (fun _ => none) "old" (some ())) 0) (twoUnknown ++ storing)).map
       (fun s => s.versions.installed) = some 1 := by decide +kernel
  obtain ⟨s, hs, hlook⟩ := Option.map_eq_some_iff.mp hobs
  obtain ⟨t, ht, hinstalled⟩ := Option.map_eq_some_iff.mp hobs'
  rw [run_append, hs] at ht
  obtain ⟨hlength, hbefore⟩ := Prod.mk.inj hlook
  obtain ⟨hone, hflag, -, -, -, hle⟩ := single_flight hkeys hs ht
  exact ⟨s, t, _, hs, ht, hlength, hone, hflag, hbefore, hinstalled, hle⟩

/-! ## Refreshes that keep their distance -/

/-- Task `j` has sent its request at the time `b`. -/
def State.Sends (s : State κ) (j : Nat) (b : Int) : Prop := ∃ t, s.tasks[j]? = some t ∧ t.startedAt = some b

/-- Any two background fetches are started at least `minRefreshInterval` apart. -/
def Spaced (s : State κ) : Prop :=
  ∀ i j b c, i ≠ j → s.Sends i b → s.Sends j c → b ≤ c → b + minRefreshInterval ≤ c

/-- The task has sent no request in the last `minRefreshInterval`, or one that has succeeded. -/
def Task.Settled (now : Int) (t : Task) : Prop :=
  ∀ b ∈ t.startedAt, now - b < minRefreshInterval → t.succeeded = true

instance (now : Int) (t : Task) : Decidable (t.Settled now) :=
  inferInstanceAs (Decidable (∀ b ∈ t.startedAt, _ → _))

/-- When the act sets the flag, the last fetch is still old enough and all tasks are settled. -/
def Undisturbed (s : State κ) (a : Action) : Prop :=
  s.Wins a → (s.at a.time).due = true ∧ ∀ t ∈ s.tasks, t.Settled a.time

instance (s : State κ) (a : Action) : Decidable (s.Wins a) :=
  decidable_of_iff ((match a.act with | .swap i => (s.at a.time).wins i | _ => false) = true) (by
    unfold State.Wins
    cases a.act <;> simp)

instance (s : State κ) (a : Action) : Decidable (Undisturbed s a) := inferInstanceAs (Decidable (_ → _))

/-- Task `j` is about to send its request. -/
def State.Spawned (s : State κ) (j : Nat) : Prop := ∃ t, s.tasks[j]? = some t ∧ t.phase = .spawned

structure Paced (s : State κ) : Prop where
  lastFetch : s.keyset.lastFetch ≤ s.now
  startedAt : ∀ j b, s.Sends j b → b ≤ s.now
  /-- The time of the last fetch is moved by every fetch that succeeds. -/
  succeeded : ∀ t ∈ s.tasks, t.succeeded = true → ∀ b ∈ t.startedAt, b ≤ s.keyset.lastFetch
  fresh : ∀ t ∈ s.tasks, t.phase = .spawned → t.succeeded = false
  /-- While a task is about to send its request, the earlier ones lie back far enough. -/
  rested : ∀ i, s.Spawned i → ∀ j b, s.Sends j b → b + minRefreshInterval ≤ s.now
  spaced : Spaced s

theorem paced_start (keys : String → Option κ) (startedAt : Int) : Paced (start keys startedAt) := by
  have hnone : ∀ j b, ¬ (start keys startedAt).Sends j b := by
    rintro j b ⟨t, ht, -⟩
    cases ht
  refine ⟨Int.le_refl _, ?_, ?_, ?_, ?_, ?_⟩
  · intro j b hb
    exact absurd hb (hnone j b)
  · intro t ht
    exact absurd ht List.not_mem_nil
  · intro t ht
    exact absurd ht List.not_mem_nil
  · rintro i ⟨t, ht, -⟩
    cases ht
  · intro i j b c _ hb
    exact absurd hb (hnone i b)

theorem Paced.at (hs : Paced s) {time : Int} (hle : s.now ≤ time) : Paced (s.at time) where
  lastFetch := Int.le_trans hs.lastFetch hle
  startedAt := fun j b hb => Int.le_trans (hs.startedAt j b hb) hle
  succeeded := hs.succeeded
  fresh := hs.fresh
  rested := fun i hi j b hb => Int.le_trans (hs.rested i hi j b hb) hle
  spaced := hs.spaced

theorem sends_set {i j : Nat} {t t' : Task} {b : Int} (htasks : s'.tasks = s.tasks.set j t')
    (ht : s.tasks[j]? = some t) (hstart : t'.startedAt = t.startedAt) (h : s'.Sends i b) : s.Sends i b := by
  obtain ⟨u, hu, hb⟩ := h
  rw [htasks] at hu
  rcases Pool.getElem?_set_cases hu with ⟨rfl, rfl⟩ | ⟨-, hu⟩
  · exact ⟨t, ht, hstart.symm.trans hb⟩
  · exact ⟨u, hu, hb⟩

theorem spawned_set {i j : Nat} {t' : Task} (htasks : s'.tasks = s.tasks.set j t')
    (hphase : t'.phase ≠ .spawned)
    (h : s'.Spawned i) : i ≠ j ∧ s.Spawned i := by
  obtain ⟨u, hu, hspawned⟩ := h
  rw [htasks] at hu
  rcases Pool.getElem?_set_cases hu with ⟨-, rfl⟩ | ⟨hne, hu⟩
  · exact absurd hspawned hphase
  · exact ⟨hne, u, hu, hspawned⟩

/-- A task takes a step after its request has been sent. -/
theorem paced_set {j : Nat} {t t' : Task} (hs : Paced s) (hnow : s'.now = s.now)
    (hlast : s.keyset.lastFetch ≤ s'.keyset.lastFetch ∧ s'.keyset.lastFetch ≤ s'.now)
    (htasks : s'.tasks = s.tasks.set j t') (ht : s.tasks[j]? = some t) (hstart : t'.startedAt = t.startedAt)
    (hphase : t'.phase ≠ .spawned)
    (hsucceeded : t'.succeeded = true → t.succeeded = true ∨ s'.keyset.lastFetch = s'.now) : Paced s' where
  lastFetch := hlast.2
  startedAt := by
    intro i b hb
    rw [hnow]
    exact hs.startedAt i b (sends_set htasks ht hstart hb)
  succeeded := by
    rw [htasks]
    refine Pool.forall_mem_set ?_ ?_
    · intro u hu hok b hb
      exact Int.le_trans (hs.succeeded u hu hok b hb) hlast.1
    · intro hok b hb
      rw [hstart] at hb
      rcases hsucceeded hok with hbefore | hnew
      · exact Int.le_trans (hs.succeeded t (List.mem_of_getElem? ht) hbefore b hb) hlast.1
      · -- The time is moved to one that is no earlier than the start.
        rw [hnew, hnow]
        exact hs.startedAt j b ⟨t, ht, hb⟩
  fresh := by
    rw [htasks]
    exact Pool.forall_mem_set hs.fresh fun hspawned => absurd hspawned hphase
  rested := by
    intro i hi k b hb
    rw [hnow]
    exact hs.rested i (spawned_set htasks hphase hi).2 k b (sends_set htasks ht hstart hb)
  spaced := by
    intro i k b c hne hb hc
    exact hs.spaced i k b c hne (sends_set htasks ht hstart hb) (sends_set htasks ht hstart hc)

/-- The flag is set while no fetch of the last `minRefreshInterval` can have been made. -/
theorem paced_won (hs : Paced s) (calls : List (Call κ)) (hdue : s.due = true)
    (hsettled : ∀ t ∈ s.tasks, t.Settled s.now) :
    Paced { s with refreshing := true, calls := calls, tasks := s.tasks ++ [Task.new] } := by
  have hold : minRefreshInterval ≤ s.now - s.keyset.lastFetch := of_decide_eq_true hdue
  -- A fetch of the last `minRefreshInterval` would have succeeded and moved the time.
  have hrested : ∀ j b, s.Sends j b → b + minRefreshInterval ≤ s.now := by
    rintro j b ⟨t, ht, hb⟩
    by_contra hrecent
    have hmem := List.mem_of_getElem? ht
    have hok : t.succeeded = true := hsettled t hmem b hb (by omega)
    have hmoved := hs.succeeded t hmem hok b hb
    omega
  have hsame : ∀ j b,
      State.Sends { s with refreshing := true, calls := calls, tasks := s.tasks ++ [Task.new] } j b →
      s.Sends j b := by
    rintro j b ⟨t, ht, hb⟩
    rcases Pool.getElem?_append_cases ht with ⟨-, rfl⟩ | ht
    · cases hb
    · exact ⟨t, ht, hb⟩
  constructor
  · exact hs.lastFetch
  · intro j b hb
    exact hs.startedAt j b (hsame j b hb)
  · refine Pool.forall_mem_append_singleton hs.succeeded ?_
    intro hok
    cases hok
  · exact Pool.forall_mem_append_singleton hs.fresh fun _ => rfl
  · intro i _ j b hb
    exact hrested j b (hsame j b hb)
  · intro i j b c hne hb hc
    exact hs.spaced i j b c hne (hsame i b hb) (hsame j c hc)

/-- The only task that runs sends its request. -/
theorem paced_sent {j : Nat} {t : Task} (hs : Paced s) (hflight : Flight s) (ht : s.tasks[j]? = some t)
    (hphase : t.phase = .spawned) :
    Paced { s with tasks := s.tasks.set j { t with startedAt := some s.now, phase := .fetching } } := by
  have hrested := hs.rested j ⟨t, ht, hphase⟩
  have hcases : ∀ i b, State.Sends
      { s with tasks := s.tasks.set j { t with startedAt := some s.now, phase := .fetching } } i b →
      (i = j ∧ b = s.now) ∨ s.Sends i b := by
    rintro i b ⟨u, hu, hb⟩
    rcases Pool.getElem?_set_cases hu with ⟨hij, rfl⟩ | ⟨-, hu⟩
    · exact Or.inl ⟨hij, (Option.some.inj hb).symm⟩
    · exact Or.inr ⟨u, hu, hb⟩
  have hpos : 0 < minRefreshInterval := by decide
  constructor
  · exact hs.lastFetch
  · intro i b hb
    rcases hcases i b hb with ⟨-, rfl⟩ | hb
    · exact Int.le_refl _
    · exact hs.startedAt i b hb
  · refine Pool.forall_mem_set hs.succeeded ?_
    intro hok
    exact absurd hok (ne_true_of_eq_false (hs.fresh t (List.mem_of_getElem? ht) hphase))
  · exact Pool.forall_mem_set hs.fresh nofun
  · intro i hi
    obtain ⟨hne, u, hu, hspawned⟩ := spawned_set rfl (by simp) hi
    -- It would run beside the task that sends.
    refine absurd (hflight.one i j ⟨u, hu, ?_⟩ ⟨t, ht, ?_⟩) hne
    · unfold Task.running
      rw [hspawned]
    · unfold Task.running
      rw [hphase]
  -- At most one of two requests is the new one, and every other was sent long enough before it.
  · intro i k b c hne hb hc hle
    rcases hcases i b hb with ⟨hij, rfl⟩ | hb
    · rcases hcases k c hc with ⟨hkj, rfl⟩ | hc
      · exact absurd (hij.trans hkj.symm) hne
      · have hback := hrested k c hc
        omega
    · rcases hcases k c hc with ⟨-, rfl⟩ | hc
      · exact hrested i b hb
      · exact hs.spaced i k b c hne hb hc hle

theorem paced_calls (hs : Paced s) (calls : List (Call κ)) : Paced { s with calls := calls } :=
  ⟨hs.lastFetch, hs.startedAt, hs.succeeded, hs.fresh, hs.rested, hs.spaced⟩

theorem paced_step (hs : Paced s) (hflight : Flight s) (ha : Undisturbed s a)
    (h : step decodeKey docs s a = some s') :
    Paced s' := by
  obtain ⟨time, act⟩ := a
  obtain ⟨hle, hperformed⟩ := step_eq_some h
  have hat : Paced (s.at time) := hs.at hle
  have hsame : (s.at time).keyset.lastFetch ≤ (s.at time).keyset.lastFetch ∧
      (s.at time).keyset.lastFetch ≤ (s.at time).now := ⟨Int.le_refl _, hat.lastFetch⟩
  cases hperformed with
  | published => exact ⟨hat.lastFetch, hat.startedAt, hat.succeeded, hat.fresh, hat.rested, hat.spaced⟩
  | arrived kid calls => exact paced_calls hat calls
  | looked i calls => exact paced_calls hat calls
  | tested i calls => exact paced_calls hat calls
  | lost i calls hflag => exact paced_calls hat calls
  | won i calls hwins hflag =>
      obtain ⟨hdue, hsettled⟩ := ha ⟨i, rfl, hwins⟩
      exact paced_won hat calls hdue hsettled
  | found i calls => exact paced_calls hat calls
  | sent j t ht hphase => exact paced_sent hat (hflight.at time) ht hphase
  | received j t ht hphase => exact paced_set hat rfl hsame rfl ht rfl nofun Or.inl
  | failed j t ht hphase => exact paced_set hat rfl hsame rfl ht rfl nofun Or.inl
  | installed j t ticket keys ht hphase hkeys =>
      exact paced_set hat rfl ⟨hat.lastFetch, Int.le_refl _⟩ rfl ht rfl nofun fun _ => Or.inr rfl
  | cleared j t ht hphase => exact paced_set hat rfl hsame rfl ht rfl nofun Or.inl

/-- **Refreshes keep their distance** in every run in which the flag is set only while the last fetch is
    old enough and no fetch of the last `minRefreshInterval` has failed. -/
theorem refreshes_spaced {keys : String → Option κ} {startedAt : Int} {as : List Action} {t : State κ}
    (has : Along (step decodeKey docs) Undisturbed (start keys startedAt) as)
    (hrun : run (step decodeKey docs) (start keys startedAt) as = some t) : Spaced t := by
  have hinv : Paced t ∧ Flight t := by
    refine run_invariant_along (I := fun u => Paced u ∧ Flight u) ?_
      ⟨paced_start keys startedAt, flight_start keys startedAt⟩ has hrun
    rintro u b u' ⟨hpaced, hflight⟩ hb h
    exact ⟨paced_step hpaced hflight hb h, flight_step hflight h⟩
  exact hinv.1.spaced

/-- A `kid` that nobody has a key for, over and over again. -/
def repeatedly : List Action :=
  [⟨1, .arrive (some "forged")⟩, ⟨1, .look 0⟩, ⟨minRefreshInterval, .test 0⟩,
   ⟨minRefreshInterval, .swap 0⟩, ⟨minRefreshInterval, .send 0⟩, ⟨minRefreshInterval, .receive 0⟩,
   ⟨minRefreshInterval + 1, .install 0⟩, ⟨minRefreshInterval + 1, .clear 0⟩,
   ⟨minRefreshInterval + 2, .arrive (some "forged")⟩, ⟨minRefreshInterval + 2, .look 1⟩,
   ⟨2 * minRefreshInterval + 1, .test 1⟩, ⟨2 * minRefreshInterval + 1, .swap 1⟩,
   ⟨2 * minRefreshInterval + 1, .send 1⟩]

/-- Two calls one after the other, where the fetch of the first one fails. -/
def afterFailure : List Action :=
  [⟨1, .arrive (some "forged")⟩, ⟨1, .arrive (some "forged")⟩, ⟨1, .look 0⟩, ⟨1, .look 1⟩,
    ⟨minRefreshInterval, .test 0⟩, ⟨minRefreshInterval, .swap 0⟩, ⟨minRefreshInterval, .send 0⟩,
    ⟨minRefreshInterval, .fail 0⟩, ⟨minRefreshInterval, .clear 0⟩, ⟨minRefreshInterval, .test 1⟩,
    ⟨minRefreshInterval, .swap 1⟩, ⟨minRefreshInterval, .send 1⟩]

/-- Two calls that are tested together, the second of which tries to set the flag when the refresh of
    the first one is over. -/
def afterTest : List Action :=
  [⟨1, .arrive (some "forged")⟩, ⟨1, .arrive (some "forged")⟩, ⟨1, .look 0⟩, ⟨1, .look 1⟩,
    ⟨minRefreshInterval, .test 0⟩, ⟨minRefreshInterval, .test 1⟩, ⟨minRefreshInterval, .swap 0⟩,
    ⟨minRefreshInterval, .send 0⟩, ⟨minRefreshInterval, .receive 0⟩, ⟨minRefreshInterval, .install 0⟩,
    ⟨minRefreshInterval, .clear 0⟩, ⟨minRefreshInterval, .swap 1⟩, ⟨minRefreshInterval, .send 1⟩]

theorem repeatedly_spaced :
    ∃ t, run (step (fun _ _ => some ()) rotation) (start (fun _ => none) 0) repeatedly = some t ∧
      t.tasks.map (·.startedAt) = [some minRefreshInterval, some (2 * minRefreshInterval + 1)] ∧
      Spaced t := by
  have hobs : (run (step (fun _ _ => some ()) rotation) (start (fun _ => none) 0) repeatedly).map
      (fun t => t.tasks.map (·.startedAt)) =
        some [some minRefreshInterval, some (2 * minRefreshInterval + 1)] := by
    decide +kernel
  obtain ⟨t, hrun, hstarts⟩ := Option.map_eq_some_iff.mp hobs
  refine ⟨t, hrun, hstarts, refreshes_spaced ?_ hrun⟩
  decide +kernel

theorem sends_of_map {j : Nat} {b : Int} (h : (s.tasks.map (·.startedAt))[j]? = some (some b)) :
    s.Sends j b := by
  rw [List.getElem?_map] at h
  obtain ⟨t, ht, hb⟩ := Option.map_eq_some_iff.mp h
  exact ⟨t, ht, hb⟩

/-- **Two background fetches at one time**: after one that has failed, and on the strength of a test
    that was made before the other one. -/
theorem refreshes_unspaced :
    (∃ t, run (step (fun _ _ => some ()) rotation) (start (fun _ => none) 0) afterFailure = some t ∧
        ¬ Spaced t) ∧
      ∃ t, run (step (fun _ _ => some ()) rotation) (start (fun _ => none) 0) afterTest = some t ∧
        ¬ Spaced t := by
  have hclash : ∀ t : State Unit,
      t.tasks.map (·.startedAt) = [some minRefreshInterval, some minRefreshInterval] → ¬ Spaced t := by
    intro t hstarts hspaced
    have hpos : 0 < minRefreshInterval := by decide
    have hle := hspaced 0 1 _ _ (by decide) (sends_of_map (by rw [hstarts]; rfl))
      (sends_of_map (by rw [hstarts]; rfl)) (Int.le_refl minRefreshInterval)
    omega
  constructor
  · have hobs : (run (step (fun _ _ => some ()) rotation) (start (fun _ => none) 0) afterFailure).map
        (fun t => t.tasks.map (·.startedAt)) = some [some minRefreshInterval, some minRefreshInterval] := by
      decide +kernel
    obtain ⟨t, hrun, hstarts⟩ := Option.map_eq_some_iff.mp hobs
    exact ⟨t, hrun, hclash t hstarts⟩
  · have hobs : (run (step (fun _ _ => some ()) rotation) (start (fun _ => none) 0) afterTest).map
        (fun t => t.tasks.map (·.startedAt)) = some [some minRefreshInterval, some minRefreshInterval] := by
      decide +kernel
    obtain ⟨t, hrun, hstarts⟩ := Option.map_eq_some_iff.mp hobs
    exact ⟨t, hrun, hclash t hstarts⟩

end Gekko.Warehouse.Auth
