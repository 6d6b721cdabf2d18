import Gekko.Inventory.Backing
import Gekko.Ordering.Pipeline

/-!
# `Gekko.Ordering.Concurrent` — concurrent `POST /orders` requests

The handlers of Order Service run concurrently with each other and with everything that goes on at Inventory
and Warehouse Service. A `State` holds the state of those two services, the `POST /orders` requests in the
order they came, and the rows of `orders`, each with the number of the request that inserted it; `step` gives
the atomic steps of the parties.

A handler makes one request to Inventory Service. It is delivered at most once: `arrive` turns a call that is
in flight into a reserve request of `Gekko.Inventory.Reservations`, whose answer `deliver` brings back. Either
of them may never happen, and the handler may give up at any time before the answer has come.
-/

namespace Gekko.Ordering

open Inventory (ProductTable inventoryRoute)
open Warehouse (Stock)

/-- Where a `create` handler is. -/
inductive Phase where
  | received
  /-- `InventoryClient.reserve` is waiting for its answer. -/
  | calling
  /-- `InventoryClient.reserve` has returned. -/
  | decided (reserved : Bool)
  | answered (status : Status)
  deriving DecidableEq, Repr

/-- The one request to Inventory Service that a `create` handler makes. -/
inductive Call where
  | unsent
  | inFlight
  /-- It reached `reserve`, as reserve request `k`. -/
  | arrived (k : Nat)
  deriving DecidableEq, Repr

/-- A `POST /orders` request. -/
structure Post where
  request : OrderCreateRequest
  phase : Phase
  call : Call
  deriving DecidableEq, Repr

/-- What `InventoryClient.reserve` expands the URI template with. -/
def OrderCreateRequest.pathId (request : OrderCreateRequest) : String := request.productId.getD ""

/-- A step of a handler, or of its call, that involves no other party of the model. -/
inductive Move where
  /-- Refused before the handler's own code: no valid token, the role is missing, the body is malformed. -/
  | turnAway (status : Status)
  | exchangeError
  /-- The token is exchanged and the request to Inventory Service sent. -/
  | send
  /-- The router of Inventory Service redirected the request, and `status` is what comes of that. -/
  | stray (status : Status)
  /-- The call fails on the caller's side, whatever becomes of the request. -/
  | abandon
  | saveError
  deriving DecidableEq, Repr

/-- What `create` does when `InventoryClient.reserve` gets `status`. -/
def Post.resume (p : Post) (status : Status) : Post :=
  match inventoryVerdict status with
  | some reserved => { p with phase := .decided reserved }
  | none => { p with phase := .answered 500 }

/-- `create`, step by step. -/
def Post.move (p : Post) : Move → Option Post
  | .turnAway status =>
      match p.phase with
      | .received =>
          if status = 400 ∨ status = 401 ∨ status = 403 then some { p with phase := .answered status }
          else none
      | _ => none
  | .exchangeError =>
      match p.phase with
      | .received => some { p with phase := .answered 500 }
      | _ => none
  | .send =>
      match p.phase, p.call with
      | .received, .unsent => some { p with phase := .calling, call := .inFlight }
      | _, _ => none
  | .stray status =>
      match p.phase, p.call, inventoryRoute p.request.pathId with
      | .calling, .inFlight, none => some (p.resume status)
      | _, _, _ => none
  | .abandon =>
      match p.phase with
      | .calling => some { p with phase := .answered 500 }
      | _ => none
  | .saveError =>
      match p.phase with
      | .decided _ => some { p with phase := .answered 500 }
      | _ => none

structure State where
  inventory : Inventory.State
  posts : List Post
  rows : List (Nat × Order)

inductive Action where
  | post (request : OrderCreateRequest)
  | move (i : Nat) (m : Move)
  /-- The call of request `i` reaches the handler `reserve` of Inventory Service. -/
  | arrive (i : Nat)
  /-- The answer of Inventory Service reaches the handler of request `i`. -/
  | deliver (i : Nat)
  /-- The handler of request `i` saves its order; `reported` when Postgres' answer reaches it. -/
  | save (i : Nat) (reported : Bool)
  /-- A step of Inventory or Warehouse Service. -/
  | inventory (a : Inventory.Action)
  deriving DecidableEq, Repr

/-- The status that `create` gives the order. -/
def orderStatus (reserved : Bool) : OrderStatus := if reserved then .confirmed else .rejected

/-- The call of request `i` has become the newest reserve request. -/
def State.arrived (s : State) (i : Nat) (p : Post) (id : String) : State :=
  let r : Inventory.Reserve := ⟨id, p.request.quantity.toInt, .arrived, .unsent⟩
  { s with
    inventory := { s.inventory with reserves := s.inventory.reserves ++ [r] }
    posts := s.posts.set i { p with call := .arrived s.inventory.reserves.length } }

/-- The handler of request `i` has inserted `order`. -/
def State.saved (s : State) (i : Nat) (p : Post) (order : Order) (reported : Bool) : State :=
  { s with
    posts := s.posts.set i { p with phase := .answered (if reported then 201 else 500) }
    rows := s.rows ++ [(i, order)] }

def step (s : State) : Action → Option State
  | .post request => some { s with posts := s.posts ++ [⟨request, .received, .unsent⟩] }
  | .move i m =>
      match s.posts[i]? with
      | some p =>
          match p.move m with
          | some p' => some { s with posts := s.posts.set i p' }
          | none => none
      | none => none
  | .arrive i =>
      match s.posts[i]? with
      | some p =>
          match p.call, inventoryRoute p.request.pathId with
          | .inFlight, some id => some (s.arrived i p id)
          | _, _ => none
      | none => none
  | .deliver i =>
      match s.posts[i]? with
      | some p =>
          match p.phase, p.call with
          | .calling, .arrived k =>
              match s.inventory.reserves[k]? with
              | some r =>
                  match r.phase with
                  | .answered status => some { s with posts := s.posts.set i (p.resume status) }
                  | _ => none
              | none => none
          | _, _ => none
      | none => none
  | .save i reported =>
      match s.posts[i]? with
      | some p =>
          match p.phase with
          | .decided reserved =>
              match row p.request (orderStatus reserved) with
              | some order => some (s.saved i p order reported)
              | none => none
          | _ => none
      | none => none
  | .inventory a => (Inventory.step s.inventory a).map fun inventory => { s with inventory := inventory }

/-- The services before any request has come. -/
def start (products : ProductTable) (stock : Stock) : State := ⟨Inventory.start products stock, [], []⟩

/-! ## What a move and a step can do -/

/-- The ways a move can change a request. -/
inductive Moved (p : Post) : Post → Prop where
  | ended (status : Status) (hopen : ∀ st, p.phase ≠ .answered st) :
      Moved p { p with phase := .answered status }
  | sent (hphase : p.phase = .received) (hcall : p.call = .unsent) :
      Moved p { p with phase := .calling, call := .inFlight }
  /-- Decided by the answer to a request that the router redirected. -/
  | strayed (reserved : Bool) (hphase : p.phase = .calling)
      (hroute : inventoryRoute p.request.pathId = none) :
      Moved p { p with phase := .decided reserved }

/-- A handler that resumes has decided as the status says, or ends. -/
theorem resume_cases (p : Post) (status : Status) :
    (∃ reserved, inventoryVerdict status = some reserved ∧
      p.resume status = { p with phase := .decided reserved }) ∨
    p.resume status = { p with phase := .answered 500 } := by
  unfold Post.resume
  split
  · rename_i reserved hverdict
    exact Or.inl ⟨reserved, hverdict, rfl⟩
  · exact Or.inr rfl

/-- A handler in another phase has not answered. -/
theorem Post.open_of_phase {p : Post} {phase : Phase} (hphase : p.phase = phase)
    (hopen : ∀ st, phase ≠ .answered st) : ∀ st, p.phase ≠ .answered st := by
  intro st
  rw [hphase]
  exact hopen st

/-- **Inversion of a move.** -/
theorem moved_of_move {p p' : Post} {m : Move} (h : p.move m = some p') : Moved p p' := by
  cases m with
  | turnAway status =>
      simp only [Post.move] at h
      split at h
      · rename_i hphase
        split at h
        · cases h
          exact .ended status (Post.open_of_phase hphase nofun)
        · cases h
      · cases h
  | exchangeError =>
      simp only [Post.move] at h
      split at h
      · rename_i hphase
        cases h
        exact .ended 500 (Post.open_of_phase hphase nofun)
      · cases h
  | send =>
      simp only [Post.move] at h
      split at h
      · rename_i hphase hcall
        cases h
        exact .sent hphase hcall
      · cases h
  | stray status =>
      simp only [Post.move] at h
      split at h
      · rename_i hphase hcall hroute
        cases h
        -- The handler resumes with what came of the redirect.
        rcases resume_cases p status with ⟨reserved, -, hresume⟩ | hresume
        · rw [hresume]
          exact .strayed reserved hphase hroute
        · rw [hresume]
          exact .ended 500 (Post.open_of_phase hphase nofun)
      · cases h
  | abandon =>
      simp only [Post.move] at h
      split at h
      · rename_i hphase
        cases h
        exact .ended 500 (Post.open_of_phase hphase nofun)
      · cases h
  | saveError =>
      simp only [Post.move] at h
      split at h
      · rename_i hphase
        cases h
        exact .ended 500 (Post.open_of_phase hphase nofun)
      · cases h

variable {s s' : State} {i : Nat}

theorem step_move {m : Move} (h : step s (.move i m) = some s') :
    ∃ p p', s.posts[i]? = some p ∧ Moved p p' ∧ s' = { s with posts := s.posts.set i p' } := by
  simp only [step] at h
  split at h
  · rename_i p hp
    split at h
    · rename_i p' hp'
      cases h
      exact ⟨p, p', hp, moved_of_move hp', rfl⟩
    · cases h
  · cases h

theorem step_arrive (h : step s (.arrive i) = some s') :
    ∃ p id, s.posts[i]? = some p ∧ p.call = .inFlight ∧ inventoryRoute p.request.pathId = some id ∧
      s' = s.arrived i p id := by
  simp only [step] at h
  split at h
  · rename_i p hp
    split at h
    · rename_i id hcall hroute
      cases h
      exact ⟨p, id, hp, hcall, hroute, rfl⟩
    · cases h
  · cases h

theorem step_deliver (h : step s (.deliver i) = some s') :
    ∃ p k r status, s.posts[i]? = some p ∧ p.phase = .calling ∧ p.call = .arrived k ∧
      s.inventory.reserves[k]? = some r ∧ r.phase = .answered status ∧
      s' = { s with posts := s.posts.set i (p.resume status) } := by
  simp only [step] at h
  split at h
  · rename_i p hp
    split at h
    · rename_i k hphase hcall
      split at h
      · rename_i r hr
        split at h
        · rename_i status hstatus
          cases h
          exact ⟨p, k, r, status, hp, hphase, hcall, hr, hstatus, rfl⟩
        · cases h
      · cases h
    · cases h
  · cases h

theorem step_save {reported : Bool} (h : step s (.save i reported) = some s') :
    ∃ p reserved order, s.posts[i]? = some p ∧ p.phase = .decided reserved ∧
      row p.request (orderStatus reserved) = some order ∧ s' = s.saved i p order reported := by
  simp only [step] at h
  split at h
  · rename_i p hp
    split at h
    · rename_i reserved hphase
      split at h
      · rename_i order horder
        cases h
        exact ⟨p, reserved, order, hp, hphase, horder, rfl⟩
      · cases h
    · cases h
  · cases h

theorem step_inventory {a : Inventory.Action} (h : step s (.inventory a) = some s') :
    ∃ inventory, Inventory.step s.inventory a = some inventory ∧ s' = { s with inventory := inventory } := by
  obtain ⟨inventory, ha, rfl⟩ := Option.map_eq_some_iff.mp h
  exact ⟨inventory, ha, rfl⟩

/-- **Inventory and Warehouse Service only ever take steps of their own machine.** -/
theorem inventory_step {a : Action} (h : step s a = some s') :
    s'.inventory = s.inventory ∨ ∃ b, Inventory.step s.inventory b = some s'.inventory := by
  cases a with
  | post request =>
      cases h
      exact Or.inl rfl
  | move i m =>
      obtain ⟨p, p', -, -, rfl⟩ := step_move h
      exact Or.inl rfl
  | arrive i =>
      obtain ⟨p, id, -, -, -, rfl⟩ := step_arrive h
      -- The call arrives as a request that Inventory Service may get from anyone.
      exact Or.inr ⟨.arrive id p.request.quantity.toInt, rfl⟩
  | deliver i =>
      obtain ⟨p, k, r, status, -, -, -, -, -, rfl⟩ := step_deliver h
      exact Or.inl rfl
  | save i reported =>
      obtain ⟨p, reserved, order, -, -, -, rfl⟩ := step_save h
      exact Or.inl rfl
  | inventory b =>
      obtain ⟨inventory, hb, rfl⟩ := step_inventory h
      exact Or.inr ⟨b, hb⟩

/-- What every step at Inventory Service keeps, every step of the whole keeps. -/
theorem inventory_invariant {I : Inventory.State → Prop} {a : Action}
    (hstep : ∀ u b u', I u → Inventory.step u b = some u' → I u') (hs : I s.inventory)
    (h : step s a = some s') : I s'.inventory := by
  rcases inventory_step h with heq | ⟨b, hb⟩
  · rw [heq]
    exact hs
  · exact hstep _ b _ hs hb

end Gekko.Ordering
