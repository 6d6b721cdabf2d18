import Gekko.Employee.Redirect
import Gekko.Ordering.Failure


/-! # `Gekko.Ordering.Lookup` — which orders are stored as `REJECTED`

A `REJECTED` order says that the business said no: too little stock, or no access to the branch. Whether
the caller has access may depend on a lookup at Employee Service, and the lookup can fail.
`resolve_own_branch` takes every answer that is no success for a refusal, so the failures that come as a
status, `404` apart, are turned into `403` by Warehouse Service, into `409` by Inventory Service, and
into a stored `REJECTED` order by Order Service.

Where the status is `404`, or the answer is a record, what it says need not be what the caller's own
record says, and the stock entry that counts need not be that of the ordered product at its primary
branch: names are pasted into the URLs as they are.

`stores_rejected_iff` says when an order is stored as `REJECTED`, for every behaviour of the
environment. From it, `Honest`, the statement that rejections are business decisions, holds exactly when
no failed lookup is laundered into one, and nothing that is found elsewhere is held against the order
(`honest_iff`).
-/

namespace Gekko.Ordering

open Warehouse (Lookup EmployeeRecord stockKey runScript_cases authorizeBranch DecidedByBranch isSuccess)
open Inventory (Product gate warehouseRoute inventoryRoute warehouseVerdict_eq_false_iff)
open Employee (Employees Http OwnBranch answer sayingBranch)

/-- The request gets as far as the product row. -/
structure AtInventory (env : Env) (claims : Claims) (request : OrderCreateRequest) : Prop where
  orderWriter : "order-writer" ∈ claims.roles
  exchangeInventory : env.exchangeInventory = true
  routed : inventoryRoute (request.productId.getD "") = some (request.productId.getD "")
  tokenAtInventory : env.tokenAtInventory = true
  inventoryWriter : "inventory-writer" ∈ claims.roles
  loadProduct : env.loadProduct = true

/-- The request gets as far as the handler of Warehouse Service, for the path parameters `b` and `p`. -/
structure AtWarehouse (env : Env) (claims : Claims) (request : OrderCreateRequest) (w : World)
    (product : Product) (b p : String) : Prop where
  atInventory : AtInventory env claims request
  row : w.products.row (request.productId.getD "") = some product
  covered : request.quantity.toInt ≤ product.aggregateStock
  exchangeWarehouse : env.exchangeWarehouse = true
  routed : warehouseRoute product.primaryBranch (request.productId.getD "") = some (b, p)
  tokenAtWarehouse : env.tokenAtWarehouse = true

/-- A rejection that is decided gets into the table: the row fits, and the insert is applied. -/
structure Recorded (env : Env) (request : OrderCreateRequest) : Prop where
  callInventory : env.callInventory = .delivered
  customerId : Storable request.customerId
  productId : Storable request.productId
  saveOrder : env.saveOrder ≠ .failed false

variable {env : Env} {claims : Claims} {request : OrderCreateRequest} {branch productId : String}
  {quantity : Int} {w : World}

/-! ## When a reservation is refused, hop by hop -/

/-- Warehouse Service refuses: no access, or too little stock at the branch. -/
def RefusedAtBranch (env : Env) (claims : Claims) (branch productId : String) (quantity : Int) (w : World) :
    Prop :=
  authorizeBranch env.exchangeEmployee env.lookup claims branch = .error 403 ∨
    (authorizeBranch env.exchangeEmployee env.lookup claims branch = .ok () ∧
      env.redisConnection = true ∧ env.script = .done ∧
        w.stock.current (stockKey branch productId) < quantity)

theorem reserveStock_refuses_iff (env : Env) (claims : Claims) (branch productId : String) (quantity : Int)
    (w : World) :
    ((reserveStock env claims branch productId quantity w).1 = 409 ∨
      (reserveStock env claims branch productId quantity w).1 = 403) ↔
      env.tokenAtWarehouse = true ∧ RefusedAtBranch env claims branch productId quantity w := by
  unfold reserveStock RefusedAtBranch
  cases htoken : env.tokenAtWarehouse with
  | false => simp
  | true =>
      simp only [not_true_eq_false, if_false, true_and]
      cases hauth : authorizeBranch env.exchangeEmployee env.lookup claims branch with
      | error status =>
          rcases Warehouse.authorizeBranch_error hauth with rfl | rfl <;> simp
      | ok _ =>
          cases hredis : env.redisConnection with
          | false => simp
          | true =>
              simp only [not_true_eq_false, if_false, reduceCtorEq, false_or, true_and]
              rcases runScript_cases w.stock branch productId quantity none with
                ⟨hstatus, _, hlt⟩ | ⟨hstatus, _, hle⟩
              · cases hscript : env.script with
                | done => simp [hstatus, hlt]
                | failed applied => cases applied <;> simp
              · have hnot : ¬ w.stock.current (stockKey branch productId) < quantity := Int.not_lt.mpr hle
                cases hscript : env.script with
                | done => simp [hstatus, hnot]
                | failed applied => cases applied <;> simp

theorem reserveAtWarehouse_refuses_iff :
    (reserveAtWarehouse env claims branch productId quantity w).1 = some false ↔
      ∃ b p, warehouseRoute branch productId = some (b, p) ∧ env.callWarehouse = .delivered ∧
        env.tokenAtWarehouse = true ∧ RefusedAtBranch env claims b p quantity w := by
  unfold reserveAtWarehouse
  cases hroute : warehouseRoute branch productId with
  | none => simp
  | some target =>
      obtain ⟨b, p⟩ := target
      have hiff := reserveStock_refuses_iff env claims b p quantity w
      cases hcall : env.callWarehouse with
      | delivered =>
          simp only [warehouseVerdict_eq_false_iff, hiff]
          simp
      | failed executed => cases executed <;> simp

theorem reserve_conflict_iff :
    (reserve env claims productId quantity w).1 = 409 ↔
      env.tokenAtInventory = true ∧ "inventory-writer" ∈ claims.roles ∧ env.loadProduct = true ∧
        ∃ product, w.products.row productId = some product ∧
          (product.aggregateStock < quantity ∨
            (quantity ≤ product.aggregateStock ∧ env.exchangeWarehouse = true ∧
              (reserveAtWarehouse env claims product.primaryBranch productId quantity w).1 =
                some false)) := by
  have hrole := Claims.hasAnyRole_singleton claims "inventory-writer"
  unfold reserve
  cases htoken : env.tokenAtInventory with
  | false => simp
  | true =>
  by_cases hwriter : "inventory-writer" ∈ claims.roles
  swap
  · simp [hrole, hwriter]
  cases hload : env.loadProduct with
  | false => simp [hrole, hwriter]
  | true =>
  simp only [not_true_eq_false, if_false, hrole.mpr hwriter, true_and, hwriter]
  cases hrow : w.products.row productId with
  | none => simp [gate]
  | some product =>
  by_cases hcovered : quantity ≤ product.aggregateStock
  swap
  · have hlt : product.aggregateStock < quantity := Int.not_le.mp hcovered
    simp [gate, hlt]
  have hnot : ¬ product.aggregateStock < quantity := Int.not_lt.mpr hcovered
  simp only [gate, if_neg hnot]
  cases hexchange : env.exchangeWarehouse with
  | false => simp [hnot]
  | true =>
  cases hcall : reserveAtWarehouse env claims product.primaryBranch productId quantity w with
  | mk verdict w₁ =>
  cases verdict with
  | none => simp [hnot, hcall]
  | some reserved =>
  cases reserved with
  | false => simp [hcall, hcovered]
  | true =>
      -- Whatever becomes of the `UPDATE`, the answer is no `409`.
      simp only [not_true_eq_false, if_false]
      split <;> simp [hnot, hcall]

theorem clientReserve_refuses_iff {request : OrderCreateRequest} :
    (clientReserve env claims request.productId quantity w).1 = some false ↔
      inventoryRoute (request.productId.getD "") = some (request.productId.getD "") ∧
        env.callInventory = .delivered ∧
        (reserve env claims (request.productId.getD "") quantity w).1 = 409 := by
  unfold clientReserve
  cases hroute : inventoryRoute (request.productId.getD "") with
  | none => cases env.redirectSucceeds <;> simp
  | some id =>
      cases Inventory.inventoryRoute_eq hroute
      cases hcall : env.callInventory with
      | delivered => simp [inventoryVerdict_eq_false_iff]
      | failed executed => cases executed <;> simp

/-- Saving an order with a status stores it exactly when the row fits and the insert is applied. -/
theorem stores_save_iff {status status' : OrderStatus} {w₁ : World} (horders : w₁.orders = w.orders) :
    Stores status w (save env (row request status') w₁).2 ↔
      status' = status ∧ Storable request.customerId ∧ Storable request.productId ∧
        env.saveOrder ≠ .failed false := by
  have hsome : ∀ order : Order, Stores status w { w₁ with orders := w₁.orders ++ [order] } ↔
      order.status = status := by
    intro order
    constructor
    · rintro ⟨o, ho, hstored⟩
      simp only [horders] at hstored
      rw [List.singleton_inj.mp (List.append_cancel_left hstored)]
      exact ho
    · intro hstatus
      exact ⟨order, hstatus, by rw [horders]⟩
  unfold save row
  by_cases hfits : Storable request.customerId ∧ Storable request.productId
  · rw [if_pos hfits]
    cases hsave : env.saveOrder with
    | done => simp [hsome, hfits.1, hfits.2]
    | failed applied =>
        cases applied with
        | true => simp [hsome, hfits.1, hfits.2]
        | false => simp [not_stores_of_orders_eq horders]
  · rw [if_neg hfits]
    refine iff_of_false (not_stores_of_orders_eq horders) ?_
    rintro ⟨-, hcustomer, hproduct, -⟩
    exact hfits ⟨hcustomer, hproduct⟩

/-- An order is stored as `REJECTED` when the client's call ends in a refusal and the row gets in. -/
theorem stores_rejected_iff_refused :
    Stores .rejected w (create env claims request w).2 ↔
      "order-writer" ∈ claims.roles ∧ env.exchangeInventory = true ∧
        (clientReserve env claims request.productId request.quantity.toInt w).1 = some false ∧
        Storable request.customerId ∧ Storable request.productId ∧ env.saveOrder ≠ .failed false := by
  unfold create
  by_cases hrole : "order-writer" ∈ claims.roles
  swap
  · have hwriter : ¬ claims.hasRole "order-writer" = true := fun h => hrole (Claims.hasRole_iff.mp h)
    simp [hwriter, hrole, not_stores_of_orders_eq]
  have hwriter : claims.hasRole "order-writer" = true := Claims.hasRole_iff.mpr hrole
  cases hexchange : env.exchangeInventory with
  | false => simp [hwriter, not_stores_of_orders_eq]
  | true =>
  cases hcall : clientReserve env claims request.productId request.quantity.toInt w with
  | mk verdict w₁ =>
  obtain ⟨horders, -⟩ := clientReserve_spec hcall
  simp only [hwriter, hrole, not_true_eq_false, if_false, true_and]
  cases verdict with
  | none => simp [not_stores_of_orders_eq horders]
  | some reserved =>
  simp only [stores_save_iff horders]
  cases reserved <;> simp

/-- **When an order is stored as `REJECTED`**: the rejection is recorded, and the aggregate does not cover
    the quantity or Warehouse Service refuses. -/
theorem stores_rejected_iff :
    Stores .rejected w (create env claims request w).2 ↔
      Recorded env request ∧
        ((AtInventory env claims request ∧ ∃ product,
            w.products.row (request.productId.getD "") = some product ∧
              product.aggregateStock < request.quantity.toInt) ∨
          ∃ product b p, AtWarehouse env claims request w product b p ∧ env.callWarehouse = .delivered ∧
            RefusedAtBranch env claims b p request.quantity.toInt w) := by
  rw [stores_rejected_iff_refused, clientReserve_refuses_iff, reserve_conflict_iff]
  constructor
  · rintro ⟨horder, hexchange, ⟨hroute, hcall, htoken, hwriter, hload, product, hrow, hrefused⟩,
            hc, hp, hsave⟩
    have hat : AtInventory env claims request := ⟨horder, hexchange, hroute, htoken, hwriter, hload⟩
    refine ⟨⟨hcall, hc, hp, hsave⟩, ?_⟩
    rcases hrefused with hlt | ⟨hcovered, hexchange', hrefuses⟩
    · exact Or.inl ⟨hat, product, hrow, hlt⟩
    · obtain ⟨b, p, hroute', hdelivered, htoken', hrefused⟩ := reserveAtWarehouse_refuses_iff.mp hrefuses
      exact Or.inr ⟨product, b, p, ⟨hat, hrow, hcovered, hexchange', hroute', htoken'⟩, hdelivered, hrefused⟩
  · rintro ⟨⟨hcall, hc, hp, hsave⟩, ⟨hat, product, hrow, hlt⟩ | ⟨product, b, p, hat, hdelivered, hrefused⟩⟩
    · exact ⟨hat.orderWriter, hat.exchangeInventory, ⟨hat.routed, hcall, hat.tokenAtInventory,
        hat.inventoryWriter, hat.loadProduct, product, hrow, Or.inl hlt⟩, hc, hp, hsave⟩
    · obtain ⟨hat, hrow, hcovered, hexchange', hroute', htoken'⟩ := hat
      have hrefuses := reserveAtWarehouse_refuses_iff.mpr ⟨b, p, hroute', hdelivered, htoken', hrefused⟩
      exact ⟨hat.orderWriter, hat.exchangeInventory, ⟨hat.routed, hcall, hat.tokenAtInventory,
        hat.inventoryWriter, hat.loadProduct, product, hrow, Or.inr ⟨hcovered, hexchange', hrefuses⟩⟩,
        hc, hp, hsave⟩

/-! ## Rejections as business decisions -/

/-- How the lookup of this caller's branch ends. -/
def ownLookup (env : Env) (claims : Claims) : Lookup := env.lookup (claims.preferredUsername.getD "")

/-- The request gets as far as the lookup at Employee Service, for the path parameters `b` and `p`. -/
structure LookupMade (env : Env) (claims : Claims) (request : OrderCreateRequest) (w : World)
    (product : Product) (b p : String) : Prop where
  atWarehouse : AtWarehouse env claims request w product b p
  decidedByBranch : DecidedByBranch claims
  exchangeEmployee : env.exchangeEmployee = true

/-- The lookup has failed: it did not come through, or was answered with a status that is neither a success
    nor "no such employee", or with something that is no employee record. -/
def LookupFailed : Lookup → Prop
  | .unreachable => True
  | .answered status body =>
      if isSuccess status then body.bind EmployeeRecord.decode = none else status ≠ 404

/-- The lookup was answered with a status that is neither a success nor "no such employee". -/
def Misread : Lookup → Prop
  | .unreachable => False
  | .answered status _ => isSuccess status = false ∧ status ≠ 404

/-- The lookup brought a record with this branch. -/
def Brings (found : Lookup) (own : Option String) : Prop :=
  ∃ status json, found = .answered status (some json) ∧ isSuccess status = true ∧
    EmployeeRecord.decode json = some ⟨own⟩

/-- The access rule denies the caller the branch: no role, or only the one that needs an employee
    record, and the caller's own does not exist, has no branch, or has another branch. -/
def RuleDenies (employees : Employees) (claims : Claims) (branch : String) : Prop :=
  ("warehouse-viewer" ∉ claims.roles ∧ "warehouse-viewer-all" ∉ claims.roles) ∨
    (DecidedByBranch claims ∧ ¬ OwnBranch employees claims branch)

/-- A stored rejection has a business reason, and a failed lookup never ends as one. -/
structure Honest (employees : Employees) (env : Env) (claims : Claims)
    (request : OrderCreateRequest) (w : World) : Prop where
  /-- The aggregate or the primary branch has less of the ordered product, or the rule denies the caller. -/
  reason : Stores .rejected w (create env claims request w).2 →
    ∃ product, w.products.row (request.productId.getD "") = some product ∧
      (product.aggregateStock < request.quantity.toInt ∨
        w.stock.current (stockKey product.primaryBranch (request.productId.getD ""))
          < request.quantity.toInt ∨
        RuleDenies employees claims product.primaryBranch)
  failure : ∀ product b p, LookupMade env claims request w product b p → LookupFailed (ownLookup env claims) →
    ¬ Stores .rejected w (create env claims request w).2

/-- The defect is reached: a lookup is made, its status is taken for a refusal, and the refusal gets all the
    way into the table. -/
def Laundered (env : Env) (claims : Claims) (request : OrderCreateRequest) (w : World) : Prop :=
  (∃ product b p, LookupMade env claims request w product b p) ∧ Misread (ownLookup env claims) ∧
    env.callWarehouse = .delivered ∧ Recorded env request

/-- What Warehouse Service holds against an order with the path parameters `b` and `p`, roles and
    misread statuses apart. -/
inductive Objection (env : Env) (claims : Claims) (b p : String) (quantity : Int) (w : World) : Prop where
  /-- The lookup says that there is no such employee. -/
  | unknown (body : Option Json) : DecidedByBranch claims → env.exchangeEmployee = true →
      ownLookup env claims = .answered 404 body → Objection env claims b p quantity w
  | otherBranch (own : Option String) : DecidedByBranch claims → env.exchangeEmployee = true →
      Brings (ownLookup env claims) own → own ≠ some b → Objection env claims b p quantity w
  /-- The caller is let in, and there is too little. -/
  | short : ("warehouse-viewer-all" ∈ claims.roles ∨ ("warehouse-viewer" ∈ claims.roles ∧
        env.exchangeEmployee = true ∧ Brings (ownLookup env claims) (some b))) →
      env.redisConnection = true → env.script = .done → w.stock.current (stockKey b p) < quantity →
      Objection env claims b p quantity w

/-- Something is held against the order where its URL leads, while the product's own entry and the
    caller's own record have nothing against it. -/
structure MisjudgedAt (employees : Employees) (env : Env) (claims : Claims)
    (request : OrderCreateRequest) (w : World) (product : Product) (b p : String) : Prop where
  atWarehouse : AtWarehouse env claims request w product b p
  delivered : env.callWarehouse = .delivered
  recorded : Recorded env request
  enough : request.quantity.toInt ≤
    w.stock.current (stockKey product.primaryBranch (request.productId.getD ""))
  allowed : ¬ RuleDenies employees claims product.primaryBranch
  objection : Objection env claims b p request.quantity.toInt w

def Misjudged (employees : Employees) (env : Env) (claims : Claims) (request : OrderCreateRequest)
    (w : World) : Prop :=
  ∃ product b p, MisjudgedAt employees env claims request w product b p

theorem failed_of_misread {found : Lookup} (h : Misread found) : LookupFailed found := by
  cases found with
  | unreachable => trivial
  | answered status body =>
      simp only [LookupFailed, h.1]
      exact h.2

/-- A failed lookup that ends in a refusal was misread. -/
theorem misread_of_failed (hdecided : DecidedByBranch claims) (hfailed : LookupFailed (ownLookup env claims))
    (h : authorizeBranch env.exchangeEmployee env.lookup claims branch = .error 403) :
    Misread (ownLookup env claims) := by
  rcases Warehouse.authorizeBranch_eq_forbidden_iff.mp h with ⟨hno, -⟩ | ⟨-, hforbidden | ⟨own, hok, -⟩⟩
  · exact absurd hdecided.1 hno
  · obtain ⟨-, status, body, hlookup, hsuccess⟩ := Warehouse.resolveOwnBranch_eq_forbidden_iff.mp hforbidden
    unfold ownLookup at hfailed ⊢
    rw [hlookup] at hfailed ⊢
    simp only [LookupFailed, hsuccess] at hfailed
    exact ⟨hsuccess, hfailed⟩
  · obtain ⟨-, status, json, hlookup, hsuccess, hdecode⟩ := Warehouse.resolveOwnBranch_eq_ok_iff.mp hok
    unfold ownLookup at hfailed
    rw [hlookup] at hfailed
    simp [LookupFailed, hsuccess, hdecode] at hfailed

/-- A caller whose branch decides is let in by a lookup that has not failed. -/
theorem not_failed_of_ok (hdecided : DecidedByBranch claims)
    (h : authorizeBranch env.exchangeEmployee env.lookup claims branch = .ok ()) :
    ¬ LookupFailed (ownLookup env claims) := by
  intro hfailed
  rcases Warehouse.authorizeBranch_eq_ok_iff.mp h with hall | ⟨-, hok⟩
  · exact hdecided.2 hall
  · obtain ⟨-, status, json, hlookup, hsuccess, hdecode⟩ := Warehouse.resolveOwnBranch_eq_ok_iff.mp hok
    unfold ownLookup at hfailed
    rw [hlookup] at hfailed
    simp [LookupFailed, hsuccess, hdecode] at hfailed

/-- Whom Warehouse Service lets in, by what the lookup brought. -/
theorem authorizeBranch_ok_iff_brings :
    authorizeBranch env.exchangeEmployee env.lookup claims branch = .ok () ↔
      "warehouse-viewer-all" ∈ claims.roles ∨
      ("warehouse-viewer" ∈ claims.roles ∧ env.exchangeEmployee = true ∧
        Brings (ownLookup env claims) (some branch)) := by
  rw [Warehouse.authorizeBranch_eq_ok_iff]
  unfold Warehouse.Admits
  rw [Warehouse.resolveOwnBranch_eq_ok_iff]
  rfl

/-- **Why Warehouse Service refuses**: the caller has no role, a status was misread, or something is
    held against the order. -/
theorem refusedAtBranch_iff :
    RefusedAtBranch env claims branch productId quantity w ↔
      ("warehouse-viewer" ∉ claims.roles ∧ "warehouse-viewer-all" ∉ claims.roles) ∨
        (DecidedByBranch claims ∧ env.exchangeEmployee = true ∧ Misread (ownLookup env claims)) ∨
        Objection env claims branch productId quantity w := by
  unfold RefusedAtBranch
  rw [authorizeBranch_ok_iff_brings, Warehouse.authorizeBranch_eq_forbidden_iff,
    Warehouse.resolveOwnBranch_eq_forbidden_iff]
  constructor
  · rintro ((hno | ⟨hdecided, ⟨hexchange, status, body, hlookup, hsuccess⟩ | ⟨own, hok, hother⟩⟩) |
      ⟨hadmitted, hredis, hscript, hlt⟩)
    · exact Or.inl hno
    · by_cases hmissing : status = 404
      · subst hmissing
        exact Or.inr (Or.inr (.unknown body hdecided hexchange hlookup))
      · refine Or.inr (Or.inl ⟨hdecided, hexchange, ?_⟩)
        unfold ownLookup
        rw [hlookup]
        exact ⟨hsuccess, hmissing⟩
    · obtain ⟨hexchange, hbrings⟩ := Warehouse.resolveOwnBranch_eq_ok_iff.mp hok
      exact Or.inr (Or.inr (.otherBranch own hdecided hexchange hbrings hother))
    · exact Or.inr (Or.inr (.short hadmitted hredis hscript hlt))
  · rintro (hno | ⟨hdecided, hexchange, hmisread⟩ | hobjection)
    · exact Or.inl (Or.inl hno)
    · refine Or.inl (Or.inr ⟨hdecided, Or.inl ⟨hexchange, ?_⟩⟩)
      unfold ownLookup at hmisread
      cases hlookup : env.lookup (claims.preferredUsername.getD "") with
      | unreachable =>
          rw [hlookup] at hmisread
          exact absurd hmisread id
      | answered status body =>
          rw [hlookup] at hmisread
          exact ⟨status, body, rfl, hmisread.1⟩
    · cases hobjection with
      | unknown body hdecided hexchange hlookup =>
          exact Or.inl (Or.inr ⟨hdecided, Or.inl ⟨hexchange, 404, body, hlookup, rfl⟩⟩)
      | otherBranch own hdecided hexchange hbrings hother =>
          have hok := Warehouse.resolveOwnBranch_eq_ok_iff.mpr ⟨hexchange, hbrings⟩
          exact Or.inl (Or.inr ⟨hdecided, Or.inr ⟨own, hok, hother⟩⟩)
      | short hadmitted hredis hscript hlt => exact Or.inr ⟨hadmitted, hredis, hscript, hlt⟩

/-- **Rejections are business decisions if and only if no misread status is laundered into one and
    nothing found elsewhere is held against the order.** -/
theorem honest_iff {employees : Employees} :
    Honest employees env claims request w ↔
      ¬ Laundered env claims request w ∧ ¬ Misjudged employees env claims request w := by
  constructor
  · rintro ⟨hreason, hfailure⟩
    constructor
    · rintro ⟨⟨product, b, p, hmade⟩, hmisread, hdelivered, hrecorded⟩
      have hrefused : RefusedAtBranch env claims b p request.quantity.toInt w :=
        refusedAtBranch_iff.mpr (Or.inr (Or.inl ⟨hmade.decidedByBranch, hmade.exchangeEmployee, hmisread⟩))
      have hrejected : Stores .rejected w (create env claims request w).2 :=
        stores_rejected_iff.mpr ⟨hrecorded, Or.inr ⟨product, b, p, hmade.atWarehouse, hdelivered, hrefused⟩⟩
      exact hfailure product b p hmade (failed_of_misread hmisread) hrejected
    · rintro ⟨product, b, p, hat, hdelivered, hrecorded, henough, hallowed, hobjection⟩
      have hrejected : Stores .rejected w (create env claims request w).2 :=
        stores_rejected_iff.mpr ⟨hrecorded,
          Or.inr ⟨product, b, p, hat, hdelivered, refusedAtBranch_iff.mpr (Or.inr (Or.inr hobjection))⟩⟩
      obtain ⟨found, hfound, hlt | hlt | hdenies⟩ := hreason hrejected
      all_goals cases hat.row.symm.trans hfound
      · have hcovered := hat.covered
        omega
      · omega
      · exact hallowed hdenies
  · rintro ⟨hclean, hjudged⟩
    constructor
    · intro hrejected
      obtain ⟨hrecorded, ⟨-, product, hrow, hlt⟩ | ⟨product, b, p, hat, hdelivered, hrefused⟩⟩ :=
        stores_rejected_iff.mp hrejected
      · exact ⟨product, hrow, Or.inl hlt⟩
      · refine ⟨product, hat.row, Or.inr ?_⟩
        by_contra hnone
        obtain ⟨henough, hallowed⟩ := not_or.mp hnone
        rcases refusedAtBranch_iff.mp hrefused with hno | ⟨hdecided, hexchange, hmisread⟩ | hobjection
        · exact hallowed (Or.inl hno)
        · exact hclean ⟨⟨product, b, p, hat, hdecided, hexchange⟩, hmisread, hdelivered, hrecorded⟩
        · exact hjudged ⟨product, b, p, hat, hdelivered, hrecorded, Int.not_lt.mp henough, hallowed,
            hobjection⟩
    · intro product b p hmade hfailed hrejected
      obtain ⟨hrecorded, ⟨-, product', hrow, hlt⟩ | ⟨product', b', p', hat, hdelivered, hrefused⟩⟩ :=
        stores_rejected_iff.mp hrejected
      · -- The lookup was made, so the aggregate covered the quantity.
        rw [hmade.atWarehouse.row] at hrow
        cases hrow
        have hcovered := hmade.atWarehouse.covered
        omega
      · rcases hrefused with hforbidden | ⟨hok, -⟩
        · have hmisread := misread_of_failed hmade.decidedByBranch hfailed hforbidden
          exact hclean ⟨⟨product, b, p, hmade⟩, hmisread, hdelivered, hrecorded⟩
        · exact not_failed_of_ok hmade.decidedByBranch hok hfailed

/-! ## Where names lead to themselves -/

/-- The lookup reports what the caller's record says. -/
structure Reports (employees : Employees) (env : Env) (claims : Claims) : Prop where
  unknown : ∀ body username, ownLookup env claims = .answered 404 body →
    claims.preferredUsername = some username → employees username = none
  brings : ∀ own, Brings (ownLookup env claims) own →
    ∃ username employee, claims.preferredUsername = some username ∧
      employees username = some employee ∧ EmployeeRecord.decode (.obj employee.members) = some ⟨own⟩

/-- Employee Service reports the record of a caller whose name leads to itself. -/
theorem reports_answer {employees : Employees} {http : Http}
    (hlookup : env.lookup = answer http employees claims)
    (huser : ∀ username, claims.preferredUsername = some username →
      http.leads username = .employee username) :
    Reports employees env claims := by
  cases hname : claims.preferredUsername with
  | none =>
      have hown : ownLookup env claims = .answered 404 (some (Employee.detail "Not Found")) := by
        unfold ownLookup
        rw [hlookup, hname, Option.getD_none, Employee.answer_empty]
      constructor
      · intro _ _ _ hsome
        cases hname.symm.trans hsome
      · rintro own ⟨status, json, hanswer, hsuccess, -⟩
        cases hown.symm.trans hanswer
        cases hsuccess
  | some username =>
      cases hemployee : employees username with
      | none =>
          have hown : ownLookup env claims = .answered 404 (some (Employee.detail "employee not found")) := by
            unfold ownLookup
            rw [hlookup, hname, Option.getD_some,
              Employee.answer_self (huser username hname) hname, hemployee]
          constructor
          · intro _ _ _ hsome
            cases hname.symm.trans hsome
            exact hemployee
          · rintro own ⟨status, json, hanswer, hsuccess, -⟩
            cases hown.symm.trans hanswer
            cases hsuccess
      | some employee =>
          have hown : ownLookup env claims = .answered 200 (some (.obj employee.members)) := by
            unfold ownLookup
            rw [hlookup, hname, Option.getD_some,
              Employee.answer_self (huser username hname) hname, hemployee]
          constructor
          · intro _ _ hanswer
            cases hown.symm.trans hanswer
          · rintro own ⟨status, json, hanswer, -, hdecode⟩
            cases hown.symm.trans hanswer
            exact ⟨username, employee, hname, hemployee, hdecode⟩

/-- **Where the URLs lead to the entry and to the record that are meant**, only a misread status makes a
    rejection dishonest. -/
theorem honest_iff_not_laundered {employees : Employees} (hreports : Reports employees env claims)
    (hroute : ∀ product, w.products.row (request.productId.getD "") = some product →
      warehouseRoute product.primaryBranch (request.productId.getD "")
        = some (product.primaryBranch, request.productId.getD "")) :
    Honest employees env claims request w ↔ ¬ Laundered env claims request w := by
  rw [honest_iff]
  refine and_iff_left ?_
  rintro ⟨product, b, p, hat, -, -, henough, hallowed, hobjection⟩
  cases (hroute product hat.row).symm.trans hat.routed
  have hown (hdecided : DecidedByBranch claims) : OwnBranch employees claims product.primaryBranch := by
    by_contra hnot
    exact hallowed (Or.inr ⟨hdecided, hnot⟩)
  cases hobjection with
  | unknown body hdecided _ hlookup =>
      obtain ⟨username, employee, hname, hemployee, -⟩ := hown hdecided
      cases (hreports.unknown body username hlookup hname).symm.trans hemployee
  | otherBranch own hdecided _ hbrings hother =>
      obtain ⟨username, employee, hname, hemployee, hbranch⟩ := hown hdecided
      obtain ⟨username', employee', hname', hemployee', hdecode⟩ := hreports.brings own hbrings
      cases hname.symm.trans hname'
      cases hemployee.symm.trans hemployee'
      cases ((Warehouse.decode_obj_eq_branch_iff employee.nodup).mpr hbranch).symm.trans hdecode
      exact hother rfl
  | short _ _ _ hlt => omega

/-! ## An outage that is stored as a rejection -/

/-- Employee Service answers the lookup with an internal error. -/
def employeeServiceDown : Env := { lookup := fun _ => .answered 500 none }

/-- A caller of the sales department, whose branch is looked up. -/
def salesClaims : Claims :=
  ⟨"u2", some "yamada-sales", ["order-writer", "inventory-writer", "warehouse-viewer"]⟩

/-- The sales department is in Tokyo. -/
def salesEmployees : Employees := fun username =>
  if username = "yamada-sales" then some (sayingBranch (.str "tokyo")) else none

/-- The lookup fails, the caller is from the primary branch, both stocks cover the quantity, and the
    order is stored as `REJECTED`. -/
theorem employeeServiceDown_rejects :
    LookupMade employeeServiceDown salesClaims sampleRequest sampleWorld
      ⟨"product-A", "Product A", 10, "tokyo"⟩ "tokyo" "product-A" ∧
    LookupFailed (ownLookup employeeServiceDown salesClaims) ∧
    OwnBranch salesEmployees salesClaims "tokyo" ∧
    sampleWorld.stock.current (stockKey "tokyo" "product-A") = 10 ∧
    (create employeeServiceDown salesClaims sampleRequest sampleWorld).2.orders
      = [⟨"customer-1", "product-A", 3, .rejected⟩] := by
  refine ⟨⟨⟨⟨by decide, rfl, by decide +kernel, rfl, by decide, rfl⟩, by decide +kernel, by decide, rfl,
    by decide +kernel, rfl⟩, by unfold DecidedByBranch; decide, rfl⟩, ?_, ?_, by decide +kernel,
    by decide +kernel⟩
  · show (500 : Nat) ≠ 404
    decide
  · exact ⟨"yamada-sales", sayingBranch (.str "tokyo"), rfl, rfl, rfl⟩

end Gekko.Ordering
