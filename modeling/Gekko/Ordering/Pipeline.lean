import Gekko.Warehouse.Access
import Gekko.Inventory.Products
import Gekko.Inventory.Route

/-!
# `Gekko.Ordering.Pipeline` — one `POST /orders`, from the controller to the three stores

`OrderController.create` exchanges the caller's token and asks Inventory Service to reserve; Inventory
Service checks its aggregate, exchanges the token again and asks Warehouse Service; Warehouse Service
authorises the branch, with a lookup at Employee Service for some callers, and runs the reservation script.
On the way back Inventory Service writes the new aggregate, and Order Service stores the order with the
status that the answer means to it.

Here the request runs alone, so each handler is a function from the world to an answer and a new world.
`Env` says how everything outside the code goes: every place where a step can fail has a field for it, and
the default of each field is that it does not.
-/

namespace Gekko.Ordering

open Warehouse (Stock Exec Lookup runScript authorizeBranch)
open Inventory (ProductTable gate warehouseVerdict warehouseRoute inventoryRoute)

/-- `enum OrderStatus`. -/
inductive OrderStatus where
  | pending | confirmed | rejected
  deriving DecidableEq, Repr

/-- `record OrderCreateRequest`: the strings may be `null`, and the quantity is any `int`. -/
structure OrderCreateRequest where
  customerId : Option String
  productId : Option String
  quantity : Int32
  deriving DecidableEq, Repr

/-- A row of `orders`, less the generated id and the creation time. -/
structure Order where
  customerId : String
  productId : String
  quantity : Int32
  status : OrderStatus
  deriving DecidableEq, Repr

/-- What a `VARCHAR(255) NOT NULL` column of Postgres takes. -/
def Storable (text : Option String) : Prop :=
  ∃ s, text = some s ∧ s.length ≤ 255 ∧ Char.ofNat 0 ∉ s.toList

instance (text : Option String) : Decidable (Storable text) :=
  match text with
  | none => .isFalse fun h => nomatch h
  | some s => decidable_of_iff (s.length ≤ 255 ∧ Char.ofNat 0 ∉ s.toList)
      ⟨fun h => ⟨s, rfl, h⟩, fun ⟨_, he, h⟩ => Option.some.inj he ▸ h⟩

/-- The row that `save` inserts; `none` where the schema refuses it. -/
def row (request : OrderCreateRequest) (status : OrderStatus) : Option Order :=
  if Storable request.customerId ∧ Storable request.productId then
    some ⟨request.customerId.getD "", request.productId.getD "", request.quantity, status⟩
  else none

/-- The three stores, and a log of the executions of the reservation script. -/
structure World where
  products : ProductTable
  stock : Stock
  execs : List Exec
  orders : List Order

/-- How a statement sent to a store ends: it is done, or the caller sees an error, whether or not the
    statement was applied. -/
inductive Completion where
  | done
  | failed (applied : Bool)
  deriving DecidableEq, Repr

/-- How a call to another service ends: the answer arrives, or the caller sees an error (no answer, or one
    that means nothing to it), whether or not the request was executed. -/
inductive Delivery where
  | delivered
  | failed (executed : Bool)
  deriving DecidableEq, Repr

/-- Everything outside the code that a `POST /orders` meets. -/
structure Env where
  /-- Keycloak exchanges the caller's token for `inventory-service`. -/
  exchangeInventory : Bool := true
  callInventory : Delivery := .delivered
  /-- Inventory Service accepts the token it is given. -/
  tokenAtInventory : Bool := true
  loadProduct : Bool := true
  exchangeWarehouse : Bool := true
  callWarehouse : Delivery := .delivered
  tokenAtWarehouse : Bool := true
  exchangeEmployee : Bool := true
  /-- How the lookup of a user name at Employee Service ends. -/
  lookup : String → Lookup
  redisConnection : Bool := true
  script : Completion := .done
  updateAggregate : Completion := .done
  /-- How the client takes the answer to a product id that the router redirects: as a success or an error. -/
  redirectSucceeds : Bool := false
  saveOrder : Completion := .done

variable (env : Env) (claims : Claims)

/-! ## Warehouse Service -/

/-- `reserve_stock`: the status of the answer and the world it leaves. -/
def reserveStock (branch productId : String) (quantity : Int) (w : World) : Status × World :=
  if ¬ env.tokenAtWarehouse then (401, w)
  else
    match authorizeBranch env.exchangeEmployee env.lookup claims branch with
    | .error status => (status, w)
    | .ok () =>
        if ¬ env.redisConnection then (500, w)
        else
          let (exec, stock) := runScript w.stock branch productId quantity none
          let executed := { w with stock := stock, execs := w.execs ++ [exec] }
          match env.script with
          | .done => (exec.status, executed)
          | .failed true => (500, executed)
          | .failed false => (500, w)

/-! ## Inventory Service -/

/-- `reserveAtWarehouse`: reserved, not reserved, or an error. -/
def reserveAtWarehouse (branch productId : String) (quantity : Int) (w : World) : Option Bool × World :=
  match warehouseRoute branch productId with
  | none => (none, w)
  | some (b, p) =>
      let (status, w') := reserveStock env claims b p quantity w
      match env.callWarehouse with
      | .delivered => (warehouseVerdict status, w')
      | .failed true => (none, w')
      | .failed false => (none, w)

/-- `InventoryHandlers.reserve`, behind `authMiddleware`. -/
def reserve (productId : String) (quantity : Int) (w : World) : Status × World :=
  if ¬ env.tokenAtInventory then (401, w)
  else if ¬ claims.hasAnyRole ["inventory-writer"] then (403, w)
  else if ¬ env.loadProduct then (500, w)
  else
    match gate (w.products.row productId) quantity with
    | .error status => (status, w)
    | .ok product =>
        if ¬ env.exchangeWarehouse then (502, w)
        else
          match reserveAtWarehouse env claims product.primaryBranch productId quantity w with
          | (none, w') => (502, w')
          | (some false, w') => (409, w')
          | (some true, w') =>
              let newStock := product.aggregateStock - quantity
              match env.updateAggregate, w'.products.update productId newStock with
              | .done, some products => (200, { w' with products := products })
              | .failed true, some products => (500, { w' with products := products })
              | _, _ => (500, w')

/-! ## Order Service -/

/-- What `InventoryClient.reserve` makes of a status: `409` is the only error status it does not throw on. -/
def inventoryVerdict (status : Status) : Option Bool :=
  if status < 400 then some true
  else if status = 409 then some false
  else none

/-- `InventoryClient.reserve`; `none` when it throws. -/
def clientReserve (productId : Option String) (quantity : Int) (w : World) : Option Bool × World :=
  match inventoryRoute (productId.getD "") with
  | none => (if env.redirectSucceeds then some true else none, w)
  | some id =>
      let (status, w') := reserve env claims id quantity w
      match env.callInventory with
      | .delivered => (inventoryVerdict status, w')
      | .failed true => (none, w')
      | .failed false => (none, w)

/-- `orderRepository.save`: whether it returns, and the world it leaves. -/
def save (order : Option Order) (w : World) : Bool × World :=
  match order, env.saveOrder with
  | some order, .done => (true, { w with orders := w.orders ++ [order] })
  | some order, .failed true => (false, { w with orders := w.orders ++ [order] })
  | _, _ => (false, w)

/-- `OrderController.create`, behind its role check: the status of the answer and the world it leaves. -/
def create (request : OrderCreateRequest) (w : World) : Status × World :=
  if ¬ claims.hasRole "order-writer" then (403, w)
  else if ¬ env.exchangeInventory then (500, w)
  else
    match clientReserve env claims request.productId request.quantity.toInt w with
    | (none, w') => (500, w')
    | (some reserved, w') =>
        let status := if reserved then OrderStatus.confirmed else OrderStatus.rejected
        let (saved, w'') := save env (row request status) w'
        (if saved then 201 else 500, w'')

/-! ## The steps on the way back -/

theorem inventoryVerdict_eq_false_iff {status : Status} :
    inventoryVerdict status = some false ↔ status = 409 := by
  unfold inventoryVerdict
  split
  · rename_i h
    simp only [Option.some.injEq, Bool.true_eq_false, false_iff]
    intro he
    rw [he] at h
    exact absurd h (by decide)
  · split
    · rename_i h
      simp [h]
    · rename_i h
      simp [h]

theorem row_status {request : OrderCreateRequest} {status : OrderStatus} {order : Order}
    (h : row request status = some order) : order.status = status := by
  unfold row at h
  split at h
  · cases h
    rfl
  · cases h

/-- Saving stores the order or leaves the world alone. -/
theorem save_cases (env : Env) (order : Option Order) (w : World) :
    (∃ o, order = some o ∧ (save env order w).2 = { w with orders := w.orders ++ [o] }) ∨
      ((save env order w).1 = false ∧ (save env order w).2 = w) := by
  unfold save
  split
  · exact Or.inl ⟨_, rfl, rfl⟩
  · exact Or.inl ⟨_, rfl, rfl⟩
  · exact Or.inr ⟨rfl, rfl⟩

end Gekko.Ordering
