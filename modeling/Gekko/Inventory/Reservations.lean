import Gekko.Lib.Pool
import Gekko.Warehouse.Stock
import Gekko.Inventory.Products
import Gekko.Inventory.Route

/-!
# `Gekko.Inventory.Reservations` — concurrent `POST /inventory/{id}/reserve` requests

The handlers of Inventory Service run concurrently over one product table, and each of them makes one
request to Warehouse Service, whose script changes the stock in Redis. A `State` holds the two stores, the
reserve requests in the order they arrived, and a log of the script executions; an `Action` is one atomic
step of one of the parties, and `step` says when it is enabled and what it does.

What a step of one handler can do without touching a store is a `Move` of its `Reserve`. The steps that do
touch a store are the execution of the script and the `UPDATE`; both may or may not be reported back
to the caller, so that a lost answer is an action of its own. A request or an answer that is lost in another
place is one that no later action of the run picks up.

Requests are delivered at most once: `execute` and `deliver` both use up what they act on.
-/

namespace Gekko.Inventory

open Warehouse (Stock Exec runScript)

/-- Where a `reserve` handler is. -/
inductive Phase where
  | arrived
  /-- The row is loaded and covers the quantity. -/
  | loaded (product : Product)
  /-- The request to Warehouse Service is under way. -/
  | calling (product : Product)
  /-- Warehouse Service has answered `200`. -/
  | reserved (product : Product)
  | answered (status : Status)
  deriving DecidableEq, Repr

/-- The product a handler holds in its local variable. -/
def Phase.product? : Phase → Option Product
  | .loaded p | .calling p | .reserved p => some p
  | .arrived | .answered _ => none

/-- The one request to Warehouse Service that a `reserve` handler makes. -/
inductive Call where
  | unsent
  | inFlight (branch : String)
  | replied (status : Status)
  deriving DecidableEq, Repr

/-- A `POST /inventory/{id}/reserve` request. -/
structure Reserve where
  productId : String
  quantity : Int
  phase : Phase
  call : Call
  deriving DecidableEq, Repr

/-- A step of a handler, or of its call, that changes no store. -/
inductive Move where
  /-- Refused before the handler's own code: no valid token, the role is missing, the body is malformed. -/
  | turnAway (status : Status)
  | load
  | loadError
  | exchangeError
  /-- The token is exchanged and the request to Warehouse Service sent. -/
  | send
  /-- Warehouse Service answers without having run the script. -/
  | deny (status : Status)
  | deliver
  /-- The call fails on the caller's side, whatever becomes of the request. -/
  | abandon
  | updateError
  deriving DecidableEq, Repr

/-- `reserve`, step by step. -/
def Reserve.move (products : ProductTable) (r : Reserve) : Move → Option Reserve
  | .turnAway status =>
      match r.phase with
      | .arrived =>
          if status = 400 ∨ status = 401 ∨ status = 403 then some { r with phase := .answered status }
          else none
      | _ => none
  | .load =>
      match r.phase with
      | .arrived =>
          match gate (products.row r.productId) r.quantity with
          | .error status => some { r with phase := .answered status }
          | .ok product => some { r with phase := .loaded product }
      | _ => none
  | .loadError =>
      match r.phase with
      | .arrived => some { r with phase := .answered 500 }
      | _ => none
  | .exchangeError =>
      match r.phase with
      | .loaded _ => some { r with phase := .answered 502 }
      | _ => none
  | .send =>
      match r.phase with
      | .loaded product => some { r with phase := .calling product, call := .inFlight product.primaryBranch }
      | _ => none
  -- The call is answered, but the handler has not taken the answer yet.
  | .deny status =>
      match r.call with
      | .inFlight _ => if status = 200 then none else some { r with call := .replied status }
      | _ => none
  | .deliver =>
      match r.phase, r.call with
      | .calling product, .replied status =>
          match warehouseVerdict status with
          | some true => some { r with phase := .reserved product }
          | some false => some { r with phase := .answered 409 }
          | none => some { r with phase := .answered 502 }
      | _, _ => none
  -- The request may still be on its way: `call` stays as it is.
  | .abandon =>
      match r.phase with
      | .calling _ => some { r with phase := .answered 502 }
      | _ => none
  | .updateError =>
      match r.phase with
      | .reserved _ => some { r with phase := .answered 500 }
      | _ => none

structure State where
  products : ProductTable
  stock : Stock
  reserves : List Reserve
  execs : List Exec

inductive Action where
  | arrive (productId : String) (quantity : Int)
  | move (i : Nat) (m : Move)
  /-- The warehouse handler of request `i` runs the script; `reported` when Redis' answer reaches it. -/
  | execute (i : Nat) (reported : Bool)
  /-- The handler of request `i` runs its `UPDATE`; `reported` when MySQL's answer reaches it. -/
  | update (i : Nat) (reported : Bool)
  /-- A reservation at Warehouse Service that no reserve request stands behind. -/
  | direct (branch productId : String) (quantity : Int)
  deriving DecidableEq, Repr

/-- The warehouse handler of request `i` has run the script for the path parameters `b` and `p`. -/
def State.executed (s : State) (i : Nat) (r : Reserve) (b p : String) (reported : Bool) : State :=
  let (exec, stock) := runScript s.stock b p r.quantity (some i)
  let status := if reported then exec.status else 500
  { s with
    stock := stock
    reserves := s.reserves.set i { r with call := .replied status }
    execs := s.execs ++ [exec] }

/-- The handler of request `i` has run its `UPDATE`, which left `products`. -/
def State.updated (s : State) (i : Nat) (r : Reserve) (products : ProductTable) (reported : Bool) : State :=
  let status := if reported then 200 else 500
  { s with
    products := products
    reserves := s.reserves.set i { r with phase := .answered status } }

def step (s : State) : Action → Option State
  | .arrive productId quantity =>
      some { s with reserves := s.reserves ++ [⟨productId, quantity, .arrived, .unsent⟩] }
  | .move i m =>
      match s.reserves[i]? with
      | some r =>
          match r.move s.products m with
          | some r' => some { s with reserves := s.reserves.set i r' }
          | none => none
      | none => none
  -- The script runs for what Warehouse Service reads off the URL, not for the names of the request.
  | .execute i reported =>
      match s.reserves[i]? with
      | some r =>
          match r.call with
          | .inFlight branch =>
              match warehouseRoute branch r.productId with
              | some (b, p) => some (s.executed i r b p reported)
              | none => none
          | _ => none
      | none => none
  | .update i reported =>
      match s.reserves[i]? with
      | some r =>
          match r.phase with
          | .reserved product =>
              -- The value is the one that was loaded, however old it is by now.
              match s.products.update r.productId (product.aggregateStock - r.quantity) with
              | some products => some (s.updated i r products reported)
              | none => none
          | _ => none
      | none => none
  | .direct branch productId quantity =>
      let (exec, stock) := runScript s.stock branch productId quantity none
      some { s with stock := stock, execs := s.execs ++ [exec] }

/-- The stores before any request has arrived. -/
def start (products : ProductTable) (stock : Stock) : State := ⟨products, stock, [], []⟩

/-- The steps of request `i` from its `SELECT` to the answer of Warehouse Service, when all goes well. -/
def upToAnswer (i : Nat) : List Action :=
  [.move i .load, .move i .send, .execute i true, .move i .deliver]

/-! ## What a move and a step can do

Every invariant below is read off these, never off `step` itself. -/

/-- The ways a move can change a reserve request. -/
inductive Moved (products : ProductTable) (r : Reserve) : Reserve → Prop where
  /-- The handler ends with an error status. -/
  | ended (status : Status) (hstatus : 400 ≤ status) (hopen : ∀ st, r.phase ≠ .answered st) :
      Moved products r { r with phase := .answered status }
  | loaded (product : Product) (hphase : r.phase = .arrived)
      (hrow : products.row r.productId = some product) (hgate : r.quantity ≤ product.aggregateStock) :
      Moved products r { r with phase := .loaded product }
  | sent (product : Product) (hphase : r.phase = .loaded product) :
      Moved products r { r with phase := .calling product, call := .inFlight product.primaryBranch }
  | denied (branch : String) (status : Status) (hcall : r.call = .inFlight branch) (hstatus : status ≠ 200) :
      Moved products r { r with call := .replied status }
  | reserved (product : Product) (hphase : r.phase = .calling product) (hcall : r.call = .replied 200) :
      Moved products r { r with phase := .reserved product }

/-- A handler in another phase has not answered. -/
theorem Reserve.open_of_phase {r : Reserve} {phase : Phase} (hphase : r.phase = phase)
    (hopen : ∀ st, phase ≠ .answered st) : ∀ st, r.phase ≠ .answered st := by
  intro st
  rw [hphase]
  exact hopen st

/-- **Inversion of a move.** -/
theorem moved_of_move {products : ProductTable} {r r' : Reserve} {m : Move}
    (h : r.move products m = some r') : Moved products r r' := by
  cases m with
  | turnAway status =>
      simp only [Reserve.move] at h
      split at h
      · rename_i hphase
        split at h
        · rename_i hstatus
          cases h
          refine .ended status ?_ (Reserve.open_of_phase hphase nofun)
          rcases hstatus with rfl | rfl | rfl <;> decide
        · cases h
      · cases h
  | load =>
      simp only [Reserve.move] at h
      split at h
      · rename_i hphase
        split at h
        · rename_i status hgate
          cases h
          exact .ended status (gate_error hgate) (Reserve.open_of_phase hphase nofun)
        · rename_i product hgate
          cases h
          obtain ⟨hrow, hle⟩ := gate_eq_ok_iff.mp hgate
          exact .loaded product hphase hrow hle
      · cases h
  | loadError =>
      simp only [Reserve.move] at h
      split at h
      · rename_i hphase
        cases h
        exact .ended 500 (by decide) (Reserve.open_of_phase hphase nofun)
      · cases h
  | exchangeError =>
      simp only [Reserve.move] at h
      split at h
      · rename_i hphase
        cases h
        exact .ended 502 (by decide) (Reserve.open_of_phase hphase nofun)
      · cases h
  | send =>
      simp only [Reserve.move] at h
      split at h
      · rename_i product hphase
        cases h
        exact .sent product hphase
      · cases h
  | deny status =>
      simp only [Reserve.move] at h
      split at h
      · rename_i branch hcall
        split at h
        · cases h
        · rename_i hstatus
          cases h
          exact .denied branch status hcall hstatus
      · cases h
  | deliver =>
      simp only [Reserve.move] at h
      split at h
      · rename_i product status hphase hcall
        have hopen : ∀ st, r.phase ≠ .answered st := Reserve.open_of_phase hphase nofun
        split at h
        · rename_i hverdict
          cases h
          rw [warehouseVerdict_eq_true_iff.mp hverdict] at hcall
          exact .reserved product hphase hcall
        · cases h
          exact .ended 409 (by decide) hopen
        · cases h
          exact .ended 502 (by decide) hopen
      · cases h
  | abandon =>
      simp only [Reserve.move] at h
      split at h
      · rename_i hphase
        cases h
        exact .ended 502 (by decide) (Reserve.open_of_phase hphase nofun)
      · cases h
  | updateError =>
      simp only [Reserve.move] at h
      split at h
      · rename_i hphase
        cases h
        exact .ended 500 (by decide) (Reserve.open_of_phase hphase nofun)
      · cases h

theorem Moved.fields {products : ProductTable} {r r' : Reserve} (h : Moved products r r') :
    r'.productId = r.productId ∧ r'.quantity = r.quantity := by
  cases h <;> exact ⟨rfl, rfl⟩

/-- A product held after a move was held before it or has just been loaded. -/
theorem Moved.product? {products : ProductTable} {r r' : Reserve} {p : Product} (h : Moved products r r')
    (hp : r'.phase.product? = some p) :
    r.phase.product? = some p ∨ products.row r.productId = some p := by
  cases h with
  | ended status _ _ => cases hp
  | loaded product _ hrow _ =>
      cases hp
      exact Or.inr hrow
  | sent product hphase =>
      cases hp
      rw [hphase]
      exact Or.inl rfl
  | denied branch status _ _ => exact Or.inl hp
  | reserved product hphase _ =>
      cases hp
      rw [hphase]
      exact Or.inl rfl

variable {s s' : State} {i : Nat} {reported : Bool}

theorem step_move {m : Move} (h : step s (.move i m) = some s') :
    ∃ r r', s.reserves[i]? = some r ∧ Moved s.products r r' ∧
      s' = { s with reserves := s.reserves.set i r' } := by
  simp only [step] at h
  split at h
  · rename_i r hr
    split at h
    · rename_i r' hr'
      cases h
      exact ⟨r, r', hr, moved_of_move hr', rfl⟩
    · cases h
  · cases h

theorem step_execute (h : step s (.execute i reported) = some s') :
    ∃ r branch b p, s.reserves[i]? = some r ∧ r.call = .inFlight branch ∧
      warehouseRoute branch r.productId = some (b, p) ∧ s' = s.executed i r b p reported := by
  simp only [step] at h
  split at h
  · rename_i r hr
    split at h
    · rename_i branch hcall
      split at h
      · rename_i b p hroute
        cases h
        exact ⟨r, branch, b, p, hr, hcall, hroute, rfl⟩
      · cases h
    · cases h
  · cases h

theorem step_update (h : step s (.update i reported) = some s') :
    ∃ r product products, s.reserves[i]? = some r ∧ r.phase = .reserved product ∧
      s.products.update r.productId (product.aggregateStock - r.quantity) = some products ∧
      s' = s.updated i r products reported := by
  simp only [step] at h
  split at h
  · rename_i r hr
    split at h
    · rename_i product hphase
      split at h
      · rename_i products hupdate
        cases h
        exact ⟨r, product, products, hr, hphase, hupdate, rfl⟩
      · cases h
    · cases h
  · cases h

/-- Only an arrival brings a quantity that was not there before. -/
theorem reserves_quantity {P : Int → Prop} {a : Action} (hs : ∀ r ∈ s.reserves, P r.quantity)
    (ha : ∀ productId quantity, a = .arrive productId quantity → P quantity) (h : step s a = some s') :
    ∀ r ∈ s'.reserves, P r.quantity := by
  cases a with
  | arrive productId quantity =>
      cases h
      exact Pool.forall_mem_append_singleton hs (ha productId quantity rfl)
  | move i m =>
      obtain ⟨r, r', hr, hmoved, rfl⟩ := step_move h
      refine Pool.forall_mem_set hs ?_
      rw [hmoved.fields.2]
      exact hs r (List.mem_of_getElem? hr)
  | execute i reported =>
      obtain ⟨r, branch, b, p, hr, -, -, rfl⟩ := step_execute h
      exact Pool.forall_mem_set hs (hs r (List.mem_of_getElem? hr))
  | update i reported =>
      obtain ⟨r, product, products, hr, -, -, rfl⟩ := step_update h
      exact Pool.forall_mem_set hs (hs r (List.mem_of_getElem? hr))
  | direct branch productId quantity =>
      cases h
      exact hs

/-- The script is run for the quantities of the requests, and for those of the reservations made directly. -/
theorem execs_quantity {P : Int → Prop} {a : Action} (hs : ∀ e ∈ s.execs, P e.quantity)
    (hreserves : ∀ r ∈ s.reserves, P r.quantity)
    (ha : ∀ branch productId quantity, a = .direct branch productId quantity → P quantity)
    (h : step s a = some s') : ∀ e ∈ s'.execs, P e.quantity := by
  cases a with
  | arrive productId quantity =>
      cases h
      exact hs
  | move i m =>
      obtain ⟨r, r', -, -, rfl⟩ := step_move h
      exact hs
  | execute i reported =>
      obtain ⟨r, branch, b, p, hr, -, -, rfl⟩ := step_execute h
      refine Pool.forall_mem_append_singleton hs ?_
      exact hreserves r (List.mem_of_getElem? hr)
  | update i reported =>
      obtain ⟨r, product, products, -, -, -, rfl⟩ := step_update h
      exact hs
  | direct branch productId quantity =>
      cases h
      exact Pool.forall_mem_append_singleton hs (ha branch productId quantity rfl)

end Gekko.Inventory
