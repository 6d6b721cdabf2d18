import Gekko.Employee.Redirect
import Gekko.Ordering.Failure


/-! # `Gekko.Ordering.Healthy` — what a `POST /orders` does when everything works

With every service and database healthy, whether an order is confirmed depends on roles in three
services, on an attribute in a fourth, and on the stock in two stores.

Inventory Service and Warehouse Service paste names into URLs as they are. So the stock entry and the
employee record that count are those where the names lead (`AtBranch`, `LedBranch`), and `Granted` says
of these what the handlers ask of them. `create_healthy` is the whole chain in two lines: the quantity
is taken exactly when it is granted, and a `CONFIRMED` order is stored if its row fits as well.
-/

namespace Gekko.Ordering

open Warehouse (EmployeeRecord stockKey runScript runScript_cases authorizeBranch resolveOwnBranch
  isSuccess authorizeBranch_eq_ok_iff resolveOwnBranch_eq_ok_iff)
open Inventory (Product IntColumn gate warehouseVerdict warehouseRoute inventoryRoute gate_eq_ok_iff)
open Employee (Employees Http answer)

/-- All services and databases work. `redirectSucceeds` is what Order Service's client makes of a redirect. -/
def healthy (http : Http) (redirectSucceeds : Bool) (employees : Employees) (claims : Claims) : Env :=
  { lookup := answer http employees claims, redirectSucceeds := redirectSucceeds }

/-! ## What the chain decides by -/

/-- The row of the order fits its columns. -/
structure Fits (request : OrderCreateRequest) : Prop where
  customerId : Storable request.customerId
  productId : Storable request.productId

/-- The request gets to Warehouse Service, where the path parameters are `b` and `p`. -/
structure AtBranch (claims : Claims) (request : OrderCreateRequest) (product : Product)
    (b p : String) : Prop where
  orderWriter : "order-writer" ∈ claims.roles
  inventoryRouted : inventoryRoute product.id = some product.id
  inventoryWriter : "inventory-writer" ∈ claims.roles
  aggregate : request.quantity.toInt ≤ product.aggregateStock
  warehouseRouted : warehouseRoute product.primaryBranch product.id = some (b, p)

/-- What the user name of the caller leads to is shown to them, and has this branch. -/
def LedBranch (http : Http) (employees : Employees) (claims : Claims) (branch : String) : Prop :=
  match http.leads (claims.preferredUsername.getD "") with
  | .employee name =>
      (claims.preferredUsername = some name ∨ "hr-viewer" ∈ claims.roles) ∧
        ∃ employee, employees name = some employee ∧
          Json.member? "branch" employee.members = some (.str branch)
  | .elsewhere path =>
      ∃ status json, http.elsewhere path = .answered status (some json) ∧ isSuccess status = true ∧
        EmployeeRecord.decode json = some ⟨some branch⟩
  | .lost => False

/-- The roles let the caller in at the branch, by themselves or with what the user name leads to. -/
def Admitted (http : Http) (employees : Employees) (claims : Claims) (branch : String) : Prop :=
  "warehouse-viewer-all" ∈ claims.roles ∨
    ("warehouse-viewer" ∈ claims.roles ∧ LedBranch http employees claims branch)

/-- Where the names lead, the caller is let in and the stock covers the quantity. -/
def Granted (http : Http) (employees : Employees) (claims : Claims) (request : OrderCreateRequest)
    (product : Product) (w : World) : Prop :=
  ∃ b p, AtBranch claims request product b p ∧ Admitted http employees claims b ∧
    request.quantity.toInt ≤ w.stock.current (stockKey b p)

/-- No reserve request is made of the product id, and the redirect that is answered is taken for a success. -/
structure Waved (redirectSucceeds : Bool) (claims : Claims) (product : Product) : Prop where
  orderWriter : "order-writer" ∈ claims.roles
  redirected : inventoryRoute product.id = none
  succeeds : redirectSucceeds = true

variable {http : Http} {redirectSucceeds : Bool} {employees : Employees} {claims : Claims} {w : World}
  {product : Product} {id b p : String} {quantity : Int} {status : Status} {w₁ : World}

/-! ## The chain, hop by hop -/

/-- What Warehouse Service reads from the answer to the lookup. -/
theorem resolveOwnBranch_iff_ledBranch :
    resolveOwnBranch true (answer http employees claims) claims = .ok (some b) ↔
    LedBranch http employees claims b := by
  rw [resolveOwnBranch_eq_ok_iff]
  unfold LedBranch
  cases hleads : http.leads (claims.preferredUsername.getD "") with
  | lost =>
      rw [Employee.answer_of_lost hleads]
      simp
  | elsewhere path =>
      rw [Employee.answer_of_elsewhere hleads]
      simp
  | employee name =>
      by_cases hshown : claims.preferredUsername = some name ∨ "hr-viewer" ∈ claims.roles
      · rw [Employee.answer_of_shown hleads hshown]
        simp only [hshown, true_and]
        cases employees name with
        | none => simp [isSuccess]
        | some employee =>
            constructor
            · rintro ⟨status, json, hanswer, -, hdecode⟩
              cases hanswer
              exact ⟨employee, rfl, (Warehouse.decode_obj_eq_branch_iff employee.nodup).mp hdecode⟩
            · rintro ⟨found, hfound, hbranch⟩
              cases hfound
              exact ⟨200, _, rfl, rfl, (Warehouse.decode_obj_eq_branch_iff employee.nodup).mpr hbranch⟩
      · rw [Employee.answer_of_not_shown hleads hshown]
        simp [hshown, isSuccess]

/-- Who is let in at a branch. -/
theorem authorizeBranch_iff_admitted :
    authorizeBranch true (answer http employees claims) claims b = .ok () ↔
    Admitted http employees claims b := by
  rw [authorizeBranch_eq_ok_iff]
  unfold Warehouse.Admits Admitted
  rw [resolveOwnBranch_iff_ledBranch]

/-- Warehouse Service, for a caller who is let in. -/
theorem reserveStock_of_admitted (h : Admitted http employees claims b) :
    reserveStock (healthy http redirectSucceeds employees claims) claims b p quantity w
      = ((runScript w.stock b p quantity none).1.status,
          { w with
            stock := (runScript w.stock b p quantity none).2
            execs := w.execs ++ [(runScript w.stock b p quantity none).1] }) := by
  have hauth := authorizeBranch_iff_admitted.mpr h
  unfold reserveStock healthy
  simp only [hauth]
  rfl

/-- Warehouse Service, for a caller who is not. -/
theorem reserveStock_of_error
    (h : authorizeBranch true (answer http employees claims) claims b = .error status)
    (p : String) (quantity : Int) (w : World) :
    reserveStock (healthy http redirectSucceeds employees claims) claims b p quantity w = (status, w) := by
  unfold reserveStock healthy
  simp only [h]
  rfl

/-- Inventory Service, with what its call to Warehouse Service brings. -/
theorem reserve_healthy (hrow : w.products.row id = some product)
    (hroute : warehouseRoute product.primaryBranch id = some (b, p))
    (hwriter : "inventory-writer" ∈ claims.roles) (haggregate : quantity ≤ product.aggregateStock)
    (hstock : reserveStock (healthy http redirectSucceeds employees claims) claims b p quantity w =
      (status, w₁)) :
    reserve (healthy http redirectSucceeds employees claims) claims id quantity w =
      match warehouseVerdict status with
      | none => (502, w₁)
      | some false => (409, w₁)
      | some true =>
          match w₁.products.update id (product.aggregateStock - quantity) with
          | some products => (200, { w₁ with products := products })
          | none => (500, w₁) := by
  have hgate : gate (w.products.row id) quantity = .ok product := gate_eq_ok_iff.mpr ⟨hrow, haggregate⟩
  have hrole : claims.hasAnyRole ["inventory-writer"] = true :=
    (Claims.hasAnyRole_singleton claims "inventory-writer").mpr hwriter
  have hcall : reserveAtWarehouse (healthy http redirectSucceeds employees claims) claims
      product.primaryBranch id quantity w = (warehouseVerdict status, w₁) := by
    unfold reserveAtWarehouse
    simp only [hroute, hstock]
    rfl
  unfold reserve
  simp only [hgate, hcall, hrole]
  simp only [healthy, not_true_eq_false, if_false]
  cases warehouseVerdict status with
  | none => rfl
  | some reserved =>
      cases reserved with
      | false => rfl
      | true =>
          simp only
          cases w₁.products.update id (product.aggregateStock - quantity) with
          | none => rfl
          | some products => rfl

/-- **Where the names lead, everything a reservation needs is there, so it is made.** -/
theorem reserve_of_granted (hrow : w.products.row id = some product)
    (hroute : warehouseRoute product.primaryBranch id = some (b, p)) (hquantity : 1 ≤ quantity)
    (hwriter : "inventory-writer" ∈ claims.roles) (haggregate : quantity ≤ product.aggregateStock)
    (hadmitted : Admitted http employees claims b) (hcovers : quantity ≤ w.stock.current (stockKey b p)) :
    ∃ w', reserve (healthy http redirectSucceeds employees claims) claims id quantity w = (200, w') ∧
      w'.orders = w.orders ∧ w'.stock = w.stock.decrBy (stockKey b p) quantity := by
  have hfits := w.products.stockFits hrow
  have hcolumn : IntColumn (product.aggregateStock - quantity) := by
    unfold IntColumn at hfits ⊢
    omega
  have hstock : reserveStock (healthy http redirectSucceeds employees claims) claims b p quantity w = _ :=
    reserveStock_of_admitted hadmitted
  rcases runScript_cases w.stock b p quantity none with ⟨_, _, hlt⟩ | ⟨hstatus, htaken, _⟩
  · exact absurd hcovers (by omega)
  · rw [hstatus] at hstock
    obtain ⟨products, hupdate⟩ := w.products.exists_update id hcolumn
    have hreserve := reserve_healthy hrow hroute hwriter haggregate hstock
    simp only [show warehouseVerdict 200 = some true from rfl, hupdate] at hreserve
    exact ⟨_, hreserve, rfl, htaken⟩

/-- Warehouse Service turns the caller away, or cannot find out where they belong. -/
theorem reserve_of_error (hrow : w.products.row id = some product)
    (hroute : warehouseRoute product.primaryBranch id = some (b, p))
    (hwriter : "inventory-writer" ∈ claims.roles) (haggregate : quantity ≤ product.aggregateStock)
    (herror : authorizeBranch true (answer http employees claims) claims b = .error status) :
    reserve (healthy http redirectSucceeds employees claims) claims id quantity w
      = (if status = 403 then 409 else 502, w) := by
  have hreserve : reserve (healthy http redirectSucceeds employees claims) claims id quantity w = _ :=
    reserve_healthy hrow hroute hwriter haggregate (reserveStock_of_error herror p quantity w)
  rcases Warehouse.authorizeBranch_error herror with rfl | rfl
  · exact hreserve
  · exact hreserve

/-- The branch does not have enough. -/
theorem reserve_of_short (hrow : w.products.row id = some product)
    (hroute : warehouseRoute product.primaryBranch id = some (b, p))
    (hwriter : "inventory-writer" ∈ claims.roles) (haggregate : quantity ≤ product.aggregateStock)
    (hadmitted : Admitted http employees claims b) (hshort : ¬ quantity ≤ w.stock.current (stockKey b p)) :
    ∃ w', reserve (healthy http redirectSucceeds employees claims) claims id quantity w = (409, w') ∧
      w'.orders = w.orders ∧ Untouched w w' := by
  have hstock : reserveStock (healthy http redirectSucceeds employees claims) claims b p quantity w = _ :=
    reserveStock_of_admitted hadmitted
  rcases runScript_cases w.stock b p quantity none with ⟨hstatus, hsame, _⟩ | ⟨_, _, hcovers⟩
  · rw [hstatus] at hstock
    exact ⟨_, reserve_healthy hrow hroute hwriter haggregate hstock, rfl, hsame, rfl⟩
  · exact absurd hcovers hshort

/-! ## The whole request -/

variable {request : OrderCreateRequest}

/-- The controller, once the answer of Inventory Service is known. -/
theorem create_of_reserve (hrequest : request.productId = some product.id)
    (hroute : inventoryRoute product.id = some product.id) (hrole : "order-writer" ∈ claims.roles)
    (hreserve : reserve (healthy http redirectSucceeds employees claims) claims product.id
      request.quantity.toInt w = (status, w₁)) :
    create (healthy http redirectSucceeds employees claims) claims request w =
      match inventoryVerdict status with
      | none => (500, w₁)
      | some reserved =>
          let (saved, w') := save (healthy http redirectSucceeds employees claims)
            (row request (if reserved then .confirmed else .rejected)) w₁
          (if saved then 201 else 500, w') := by
  have hwriter : claims.hasRole "order-writer" = true := Claims.hasRole_iff.mpr hrole
  have hcall : clientReserve (healthy http redirectSucceeds employees claims) claims request.productId
      request.quantity.toInt w = (inventoryVerdict status, w₁) := by
    unfold clientReserve
    rw [hrequest, Option.getD_some, hroute]
    simp only [hreserve]
    rfl
  unfold create
  simp only [hwriter, hcall]
  cases inventoryVerdict status <;> rfl

theorem create_of_no_role (hrole : "order-writer" ∉ claims.roles) :
    create (healthy http redirectSucceeds employees claims) claims request w = (403, w) := by
  have hwriter : ¬ claims.hasRole "order-writer" = true := fun h => hrole (Claims.hasRole_iff.mp h)
  unfold create
  rw [if_pos hwriter]

/-- The controller, for a product id that the router of Inventory Service redirects. -/
theorem create_of_redirected (hrequest : request.productId = some product.id)
    (hroute : inventoryRoute product.id = none) (hrole : "order-writer" ∈ claims.roles) :
    create (healthy http redirectSucceeds employees claims) claims request w =
      if redirectSucceeds then
        let (saved, w') := save (healthy http redirectSucceeds employees claims) (row request .confirmed) w
        (if saved then 201 else 500, w')
      else (500, w) := by
  have hwriter : claims.hasRole "order-writer" = true := Claims.hasRole_iff.mpr hrole
  have hcall : clientReserve (healthy http redirectSucceeds employees claims) claims request.productId
      request.quantity.toInt w = (if redirectSucceeds then some true else none, w) := by
    unfold clientReserve
    rw [hrequest, Option.getD_some, hroute]
    rfl
  unfold create
  simp only [hwriter, hcall]
  cases redirectSucceeds <;> rfl

/-- Saving succeeds exactly when the row fits. -/
theorem save_done (env : Env) (henv : env.saveOrder = .done) (request : OrderCreateRequest)
    (status : OrderStatus) (w₁ : World) :
    (∃ order : Order, Fits request ∧ order.status = status ∧
        save env (row request status) w₁ = (true, { w₁ with orders := w₁.orders ++ [order] })) ∨
      (¬ Fits request ∧ save env (row request status) w₁ = (false, w₁)) := by
  unfold row save
  by_cases hfits : Storable request.customerId ∧ Storable request.productId
  · rw [if_pos hfits, henv]
    exact Or.inl ⟨_, ⟨hfits.1, hfits.2⟩, rfl, rfl⟩
  · rw [if_neg hfits]
    exact Or.inr ⟨fun h => hfits ⟨h.customerId, h.productId⟩, rfl⟩

/-- An order that is saved as `CONFIRMED` is stored exactly when its row fits. -/
theorem stores_confirmed_iff (env : Env) (henv : env.saveOrder = .done) (horders : w₁.orders = w.orders) :
    Stores .confirmed w (save env (row request .confirmed) w₁).2 ↔ Fits request := by
  rcases save_done env henv request .confirmed w₁ with ⟨order, hfits, hstatus, hsaved⟩ | ⟨hfits, hsaved⟩
  · rw [hsaved]
    exact iff_of_true ⟨order, hstatus, congrArg (· ++ [order]) horders⟩ hfits
  · rw [hsaved]
    exact iff_of_false (not_stores_of_orders_eq horders) hfits

/-- What becomes of an order whose reservation was refused or not decided. -/
theorem create_of_refused (hrequest : request.productId = some product.id)
    (hroute : inventoryRoute product.id = some product.id) (hrole : "order-writer" ∈ claims.roles)
    (hreserve : reserve (healthy http redirectSucceeds employees claims) claims product.id
      request.quantity.toInt w = (status, w₁))
    (herror : 400 ≤ status) (horders : w₁.orders = w.orders) (huntouched : Untouched w w₁) :
    ¬ Stores .confirmed w (create (healthy http redirectSucceeds employees claims) claims request w).2 ∧
      Untouched w (create (healthy http redirectSucceeds employees claims) claims request w).2 ∧
      ((status = 409 ∧ Fits request) ∧
          (create (healthy http redirectSucceeds employees claims) claims request w).1 = 201 ∨
        ¬ (status = 409 ∧ Fits request) ∧
          (create (healthy http redirectSucceeds employees claims) claims request w).1 = 500 ∧
          (create (healthy http redirectSucceeds employees claims) claims request w).2.orders =
            w.orders) := by
  rw [create_of_reserve hrequest hroute hrole hreserve]
  by_cases hconflict : status = 409
  · have hverdict : inventoryVerdict status = some false := inventoryVerdict_eq_false_iff.mpr hconflict
    simp only [hverdict, Bool.false_eq_true, if_false]
    rcases save_done (healthy http redirectSucceeds employees claims) rfl request .rejected w₁ with
      ⟨order, hfits, hrejected, hsaved⟩ | ⟨hfits, hsaved⟩
    · rw [hsaved]
      refine ⟨?_, ⟨huntouched.stock, huntouched.products⟩, Or.inl ⟨⟨hconflict, hfits⟩, rfl⟩⟩
      rintro ⟨o, hconfirmed, hstored⟩
      have hlast : order = o := by
        simp only [horders] at hstored
        exact List.singleton_inj.mp (List.append_cancel_left hstored)
      rw [← hlast, hrejected] at hconfirmed
      cases hconfirmed
    · rw [hsaved]
      exact ⟨not_stores_of_orders_eq horders, huntouched, Or.inr ⟨fun h => hfits h.2, rfl, horders⟩⟩
  · have hverdict : inventoryVerdict status = none := by
      unfold inventoryVerdict
      rw [if_neg (Nat.not_lt.mpr herror), if_neg hconflict]
    simp only [hverdict]
    exact ⟨not_stores_of_orders_eq horders, huntouched, Or.inr ⟨fun h => hconflict h.1, trivial, horders⟩⟩

/-- The stock is not what it was after a piece has been taken. -/
theorem not_untouched_of_decrBy {key : String} (hquantity : 1 ≤ quantity)
    (hstock : w₁.stock = w.stock.decrBy key quantity) : ¬ Untouched w w₁ := by
  intro huntouched
  have hcurrent : w₁.stock.current key = w.stock.current key - quantity := by
    rw [hstock, Warehouse.Stock.current_decrBy_self]
  rw [huntouched.stock] at hcurrent
  omega

theorem save_stock (env : Env) (order : Option Order) (w₁ : World) :
    (save env order w₁).2.stock = w₁.stock ∧ (save env order w₁).2.products = w₁.products := by
  rcases save_cases env order w₁ with ⟨o, -, hsaved⟩ | ⟨-, hsaved⟩
  · rw [hsaved]
    exact ⟨rfl, rfl⟩
  · rw [hsaved]
    exact ⟨rfl, rfl⟩

/-- **Without a grant, nothing is reserved.** -/
theorem reserve_of_not_granted (hrow : w.products.row product.id = some product)
    (hrole : "order-writer" ∈ claims.roles) (hrouted : inventoryRoute product.id = some product.id)
    (h : ¬ Granted http employees claims request product w) :
    ∃ status w', reserve (healthy http redirectSucceeds employees claims) claims
      product.id request.quantity.toInt w
        = (status, w') ∧ 400 ≤ status ∧ w'.orders = w.orders ∧ Untouched w w' := by
  by_cases hwriter : "inventory-writer" ∈ claims.roles
  swap
  · have hnone : ¬ claims.hasAnyRole ["inventory-writer"] = true := by
      rw [Claims.hasAnyRole_singleton]
      exact hwriter
    refine ⟨403, w, ?_, by decide, rfl, Untouched.refl w⟩
    unfold reserve
    simp only [healthy, not_true_eq_false, if_false, hnone]
    rfl
  by_cases haggregate : request.quantity.toInt ≤ product.aggregateStock
  swap
  · have hgate : gate (w.products.row product.id) request.quantity.toInt = .error 409 := by
      rw [hrow, gate]
      exact if_pos (by omega)
    have hany : claims.hasAnyRole ["inventory-writer"] = true :=
      (Claims.hasAnyRole_singleton claims "inventory-writer").mpr hwriter
    refine ⟨409, w, ?_, by decide, rfl, Untouched.refl w⟩
    unfold reserve
    simp only [healthy, not_true_eq_false, if_false, hany, hgate]
  cases hroute : warehouseRoute product.primaryBranch product.id with
  | none =>
      have hgate : gate (w.products.row product.id) request.quantity.toInt = .ok product :=
        gate_eq_ok_iff.mpr ⟨hrow, haggregate⟩
      have hany : claims.hasAnyRole ["inventory-writer"] = true :=
        (Claims.hasAnyRole_singleton claims "inventory-writer").mpr hwriter
      refine ⟨502, w, ?_, by decide, rfl, Untouched.refl w⟩
      unfold reserve reserveAtWarehouse
      simp only [healthy, not_true_eq_false, if_false, hany, hgate, hroute]
  | some target =>
      obtain ⟨b, p⟩ := target
      cases hauth : authorizeBranch true (answer http employees claims) claims b with
      | error status =>
          refine ⟨_, w, reserve_of_error hrow hroute hwriter haggregate hauth, ?_, rfl, Untouched.refl w⟩
          split <;> decide
      | ok _ =>
          have hadmitted := authorizeBranch_iff_admitted.mp hauth
          have hshort : ¬ request.quantity.toInt ≤ w.stock.current (stockKey b p) := fun hcovers =>
            h ⟨b, p, ⟨hrole, hrouted, hwriter, haggregate, hroute⟩, hadmitted, hcovers⟩
          obtain ⟨w', hreserve, horders, huntouched⟩ :=
            reserve_of_short hrow hroute hwriter haggregate hadmitted hshort
          exact ⟨409, w', hreserve, by decide, horders, huntouched⟩

/-- **What the chain does**: it takes the quantity exactly when it is granted where the names lead, and
    then stores the order as `CONFIRMED` if its row fits. -/
theorem create_healthy (hrequest : request.productId = some product.id)
    (hrow : w.products.row product.id = some product) (hquantity : 1 ≤ request.quantity.toInt) :
    (Stores .confirmed w (create (healthy http redirectSucceeds employees claims) claims request w).2 ↔
      (Granted http employees claims request product w ∨ Waved redirectSucceeds claims product) ∧
      Fits request) ∧
    (Untouched w (create (healthy http redirectSucceeds employees claims) claims request w).2 ↔
      ¬ Granted http employees claims request product w) := by
  by_cases hrole : "order-writer" ∈ claims.roles
  swap
  · rw [create_of_no_role hrole]
    have hnot : ¬ Granted http employees claims request product w :=
      fun ⟨_, _, hat, _⟩ => hrole hat.orderWriter
    refine ⟨iff_of_false (not_stores_of_orders_eq rfl) ?_, iff_of_true (Untouched.refl w) hnot⟩
    rintro ⟨hgranted | hwaved, -⟩
    · exact hnot hgranted
    · exact hrole hwaved.orderWriter
  cases hroute : inventoryRoute product.id with
  | none =>
      have hnot : ¬ Granted http employees claims request product w := by
        rintro ⟨b, p, hat, -⟩
        rw [hat.inventoryRouted] at hroute
        cases hroute
      rw [create_of_redirected hrequest hroute hrole]
      cases redirectSucceeds with
      | true =>
          have hwaved : Waved true claims product := ⟨hrole, hroute, rfl⟩
          have hconfirmed : Stores .confirmed w
              (save (healthy http true employees claims) (row request .confirmed) w).2
              ↔ Fits request := stores_confirmed_iff _ rfl rfl
          obtain ⟨hstock, hproducts⟩ :=
            save_stock (healthy http true employees claims) (row request .confirmed) w
          refine ⟨?_, iff_of_true ⟨hstock, hproducts⟩ hnot⟩
          exact hconfirmed.trans ⟨fun hfits => ⟨Or.inr hwaved, hfits⟩, And.right⟩
      | false =>
          refine ⟨iff_of_false (not_stores_of_orders_eq rfl) ?_, iff_of_true (Untouched.refl w) hnot⟩
          rintro ⟨hgranted | hwaved, -⟩
          · exact hnot hgranted
          · cases hwaved.succeeds
  | some target =>
      cases Inventory.inventoryRoute_eq hroute
      have hwaved : ¬ Waved redirectSucceeds claims product := by
        intro hwaved
        rw [hwaved.redirected] at hroute
        cases hroute
      by_cases hgranted : Granted http employees claims request product w
      · obtain ⟨b, p, hat, hadmitted, hcovers⟩ := hgranted
        obtain ⟨w₁, hreserve, horders, hstock⟩ :=
          @reserve_of_granted http redirectSucceeds employees claims w product product.id b p _ hrow
            hat.warehouseRouted hquantity hat.inventoryWriter hat.aggregate hadmitted hcovers
        rw [create_of_reserve hrequest hroute hrole hreserve]
        have hconfirmed : Stores .confirmed w
            (save (healthy http redirectSucceeds employees claims) (row request .confirmed) w₁).2 ↔
              Fits request :=
          stores_confirmed_iff _ rfl horders
        have hsaved :=
          (save_stock (healthy http redirectSucceeds employees claims) (row request .confirmed) w₁).1
        refine ⟨hconfirmed.trans
          ⟨fun hfits => ⟨Or.inl ⟨b, p, hat, hadmitted, hcovers⟩, hfits⟩, And.right⟩, ?_⟩
        exact iff_of_false (not_untouched_of_decrBy hquantity (hsaved.trans hstock))
          fun hnot => hnot ⟨b, p, hat, hadmitted, hcovers⟩
      · obtain ⟨status, w₁, hreserve, herror, horders, huntouched⟩ :=
          @reserve_of_not_granted http redirectSucceeds employees claims w product
            request hrow hrole hroute hgranted
        obtain ⟨hnot, hsame, -⟩ := create_of_refused hrequest hroute hrole hreserve herror horders huntouched
        refine ⟨iff_of_false hnot ?_, iff_of_true hsame hgranted⟩
        rintro ⟨h | h, -⟩
        · exact hgranted h
        · exact hwaved h

end Gekko.Ordering
