import Gekko.Ordering.Pipeline

/-!
# `Gekko.Ordering.Failure` — what a `POST /orders` leaves behind when it fails

One request touches three stores one after the other, without a common transaction and without a step that
takes anything back. So the point of failure decides what remains: a failure before the reservation script
ran, or a refusal by it, leaves the stock alone; a failure after a successful script leaves the branch
without the pieces, the aggregate lowered or not, and no order.

`Untouched` and `Taken` are the two things that can happen to the stock. Each handler's specification says
which of them goes with which answer, and the specification of `create` is put together from them.
-/

namespace Gekko.Ordering

open Warehouse (Stock Exec Lookup stockKey runScript runScript_cases authorizeBranch)
open Inventory (ProductTable Product gate warehouseVerdict warehouseRoute inventoryRoute gate_eq_ok_iff
  warehouseVerdict_eq_true_iff warehouseVerdict_eq_false_iff)

/-- Neither the branch stock nor the product table has changed. -/
structure Untouched (w w' : World) : Prop where
  stock : w'.stock = w.stock
  products : w'.products = w.products

/-- The script has run successfully with the path parameters `b` and `p`, and nothing else has changed the
    stock. -/
structure TakenFrom (b p : String) (quantity : Int) (w w' : World) : Prop where
  covered : quantity ≤ w.stock.current (stockKey b p)
  stock : w'.stock = w.stock.decrBy (stockKey b p) quantity

/-- The script has taken `quantity` of the product where its URL leads to, and the aggregate is as before or
    lowered by `quantity`. -/
def Taken (productId : String) (quantity : Int) (w w' : World) : Prop :=
  ∃ product b p, w.products.row productId = some product ∧
    warehouseRoute product.primaryBranch productId = some (b, p) ∧ TakenFrom b p quantity w w' ∧
    (w'.products = w.products ∨
      w.products.update productId (product.aggregateStock - quantity) = some w'.products)

theorem Untouched.refl (w : World) : Untouched w w := ⟨rfl, rfl⟩

variable {env : Env} {claims : Claims} {branch productId : String} {quantity : Int} {w w' : World}
  {status : Status}

/-! ## Warehouse Service -/

/-- A reservation at Warehouse Service touches nothing but the stock, and the stock only by a successful
    script; a refusal means that nothing was taken, a success that it was. -/
theorem reserveStock_spec (h : reserveStock env claims branch productId quantity w = (status, w')) :
    w'.orders = w.orders ∧ w'.products = w.products ∧
      ((status ≠ 200 ∧ w'.stock = w.stock) ∨
        (status ≠ 403 ∧ status ≠ 409 ∧ TakenFrom branch productId quantity w w')) := by
  unfold reserveStock at h
  split at h
  · cases h
    exact ⟨rfl, rfl, Or.inl ⟨by decide, rfl⟩⟩
  · split at h
    · rename_i st hdenied
      cases h
      refine ⟨rfl, rfl, Or.inl ⟨?_, rfl⟩⟩
      rcases Warehouse.authorizeBranch_error hdenied with rfl | rfl <;> decide
    · split at h
      · cases h
        exact ⟨rfl, rfl, Or.inl ⟨by decide, rfl⟩⟩
      · -- The script is reached: what it did decides, unless its answer is lost.
        simp only at h
        rcases runScript_cases w.stock branch productId quantity none with
          ⟨hstatus, hstock, _⟩ | ⟨hstatus, hstock, hle⟩
        · split at h
          · cases h
            refine ⟨rfl, rfl, Or.inl ⟨?_, hstock⟩⟩
            rw [hstatus]
            decide
          · cases h
            exact ⟨rfl, rfl, Or.inl ⟨by decide, hstock⟩⟩
          · cases h
            exact ⟨rfl, rfl, Or.inl ⟨by decide, rfl⟩⟩
        · split at h
          · cases h
            refine ⟨rfl, rfl, Or.inr ⟨?_, ?_, hle, hstock⟩⟩
            · rw [hstatus]
              decide
            · rw [hstatus]
              decide
          · cases h
            exact ⟨rfl, rfl, Or.inr ⟨by decide, by decide, hle, hstock⟩⟩
          · cases h
            exact ⟨rfl, rfl, Or.inl ⟨by decide, rfl⟩⟩

/-! ## Inventory Service -/

/-- The call to Warehouse Service as its caller sees it: a refusal means that nothing was taken, a success
    that it was, and an error leaves both possible. -/
theorem reserveAtWarehouse_spec {verdict : Option Bool}
    (h : reserveAtWarehouse env claims branch productId quantity w = (verdict, w')) :
    w'.orders = w.orders ∧ w'.products = w.products ∧
      ((verdict ≠ some true ∧ w'.stock = w.stock) ∨
        (verdict ≠ some false ∧ ∃ b p, warehouseRoute branch productId = some (b, p) ∧
          TakenFrom b p quantity w w')) := by
  unfold reserveAtWarehouse at h
  split at h
  · cases h
    exact ⟨rfl, rfl, Or.inl ⟨nofun, rfl⟩⟩
  · rename_i b p hroute
    cases hcall : reserveStock env claims b p quantity w with
    | mk st w₁ =>
        obtain ⟨horders, hproducts, hstock⟩ := reserveStock_spec hcall
        simp only [hcall] at h
        split at h
        · cases h
          refine ⟨horders, hproducts, ?_⟩
          rcases hstock with ⟨hst, hsame⟩ | ⟨hst, hst', htaken⟩
          · exact Or.inl ⟨fun hv => hst (warehouseVerdict_eq_true_iff.mp hv), hsame⟩
          · refine Or.inr ⟨fun hv => ?_, b, p, hroute, htaken⟩
            rcases warehouseVerdict_eq_false_iff.mp hv with he | he
            · exact hst' he
            · exact hst he
        · cases h
          refine ⟨horders, hproducts, ?_⟩
          rcases hstock with ⟨_, hsame⟩ | ⟨_, _, htaken⟩
          · exact Or.inl ⟨nofun, hsame⟩
          · exact Or.inr ⟨nofun, b, p, hroute, htaken⟩
        · cases h
          exact ⟨rfl, rfl, Or.inl ⟨nofun, rfl⟩⟩

/-- A reserve request stores no order; `200` means that the quantity was taken, `409` that it was not. -/
theorem reserve_spec (h : reserve env claims productId quantity w = (status, w')) :
    w'.orders = w.orders ∧
      ((status ≠ 200 ∧ Untouched w w') ∨ (status ≠ 409 ∧ Taken productId quantity w w')) := by
  unfold reserve at h
  split at h
  · cases h
    exact ⟨rfl, Or.inl ⟨by decide, Untouched.refl w⟩⟩
  split at h
  · cases h
    exact ⟨rfl, Or.inl ⟨by decide, Untouched.refl w⟩⟩
  split at h
  · cases h
    exact ⟨rfl, Or.inl ⟨by decide, Untouched.refl w⟩⟩
  split at h
  · rename_i st hgate
    cases h
    refine ⟨rfl, Or.inl ⟨fun hok => ?_, Untouched.refl w⟩⟩
    rw [hok] at hgate
    exact absurd (Inventory.gate_error hgate) (by decide)
  rename_i product hgate
  obtain ⟨hrow, _⟩ := gate_eq_ok_iff.mp hgate
  split at h
  · cases h
    exact ⟨rfl, Or.inl ⟨by decide, Untouched.refl w⟩⟩
  cases hcall : reserveAtWarehouse env claims product.primaryBranch productId quantity w with
  | mk verdict w₁ =>
      obtain ⟨horders, hproducts, hstock⟩ := reserveAtWarehouse_spec hcall
      rw [hcall] at h
      cases verdict with
      | none =>
          simp only at h
          cases h
          refine ⟨horders, ?_⟩
          rcases hstock with ⟨_, hsame⟩ | ⟨_, b, p, hroute, htaken⟩
          · exact Or.inl ⟨by decide, hsame, hproducts⟩
          · exact Or.inr ⟨by decide, product, b, p, hrow, hroute, htaken, Or.inl hproducts⟩
      | some reserved =>
          cases reserved with
          | false =>
              simp only at h
              cases h
              rcases hstock with ⟨_, hsame⟩ | ⟨hne, _⟩
              · exact ⟨horders, Or.inl ⟨by decide, hsame, hproducts⟩⟩
              · exact absurd rfl hne
          | true =>
              rcases hstock with ⟨hne, _⟩ | ⟨_, b, p, hroute, htaken⟩
              · exact absurd rfl hne
              simp only at h
              rw [hproducts] at h
              split at h
              · rename_i products _ hupdate
                cases h
                exact ⟨horders, Or.inr ⟨by decide, product, b, p, hrow, hroute,
                  ⟨htaken.covered, htaken.stock⟩, Or.inr hupdate⟩⟩
              · rename_i products _ hupdate
                cases h
                exact ⟨horders, Or.inr ⟨by decide, product, b, p, hrow, hroute,
                  ⟨htaken.covered, htaken.stock⟩, Or.inr hupdate⟩⟩
              · cases h
                exact ⟨horders, Or.inr ⟨by decide, product, b, p, hrow, hroute, htaken, Or.inl hproducts⟩⟩

/-! ## Order Service -/

/-- The client's call as the controller sees it. -/
theorem clientReserve_spec {productId : Option String} {verdict : Option Bool}
    (h : clientReserve env claims productId quantity w = (verdict, w')) :
    w'.orders = w.orders ∧
      (Untouched w w' ∨ (verdict ≠ some false ∧ Taken (productId.getD "") quantity w w')) := by
  unfold clientReserve at h
  split at h
  · cases h
    exact ⟨rfl, Or.inl (Untouched.refl w)⟩
  · rename_i id hroute
    cases Inventory.inventoryRoute_eq hroute
    cases hcall : reserve env claims (productId.getD "") quantity w with
    | mk st w₁ =>
        obtain ⟨horders, hstock⟩ := reserve_spec hcall
        simp only [hcall] at h
        split at h
        · cases h
          refine ⟨horders, hstock.imp And.right fun htaken => ⟨fun hv => ?_, htaken.2⟩⟩
          exact htaken.1 (inventoryVerdict_eq_false_iff.mp hv)
        · cases h
          exact ⟨horders, hstock.imp And.right fun htaken => ⟨nofun, htaken.2⟩⟩
        · cases h
          exact ⟨rfl, Or.inl (Untouched.refl w)⟩

/-- The request has stored an order with the given status. -/
def Stores (status : OrderStatus) (w w' : World) : Prop :=
  ∃ order, order.status = status ∧ w'.orders = w.orders ++ [order]

/-- Where no order is added, none is stored, in whatever status. -/
theorem not_stores_of_orders_eq {w' : World} {status : OrderStatus} (h : w'.orders = w.orders) :
    ¬ Stores status w w' := by
  rintro ⟨order, -, hstored⟩
  have hlength := congrArg List.length (h.symm.trans hstored)
  simp only [List.length_append, List.length_singleton] at hlength
  omega

/-- **What a `POST /orders` can do.** It stores no order, a `REJECTED` one with the stock untouched, or a
    `CONFIRMED` one; and where it touches the stock, it has taken exactly the quantity. -/
theorem create_spec {request : OrderCreateRequest} (h : create env claims request w = (status, w')) :
    (w'.orders = w.orders ∧
      (Untouched w w' ∨ Taken (request.productId.getD "") request.quantity.toInt w w')) ∨
    (Stores .rejected w w' ∧ Untouched w w') ∨ Stores .confirmed w w' := by
  unfold create at h
  split at h
  · cases h
    exact Or.inl ⟨rfl, Or.inl (Untouched.refl w)⟩
  split at h
  · cases h
    exact Or.inl ⟨rfl, Or.inl (Untouched.refl w)⟩
  cases hcall : clientReserve env claims request.productId request.quantity.toInt w with
  | mk verdict w₁ =>
      obtain ⟨horders, hstock⟩ := clientReserve_spec hcall
      rw [hcall] at h
      cases verdict with
      | none =>
          simp only at h
          cases h
          exact Or.inl ⟨horders, hstock.imp_right And.right⟩
      | some reserved =>
          simp only at h
          cases h
          rcases save_cases env (row request (if reserved then .confirmed else .rejected)) w₁ with
            ⟨o, horder, hsaved⟩ | ⟨_, hsame⟩
          · rw [hsaved]
            have hstatus := row_status horder
            cases reserved with
            | true => exact Or.inr (Or.inr ⟨o, hstatus, by rw [horders]⟩)
            | false =>
                -- The answer was a refusal, so nothing was taken.
                rcases hstock with huntouched | ⟨hne, _⟩
                · exact Or.inr (Or.inl ⟨⟨o, hstatus, by rw [horders]⟩, huntouched.stock, huntouched.products⟩)
                · exact absurd rfl hne
          · rw [hsame]
            exact Or.inl ⟨horders, hstock.imp_right And.right⟩

/-- **Without a `CONFIRMED` order.** When a `POST /orders` ends without storing a `CONFIRMED` order, either
    the stock in both stores is what it was, or no order is stored and a successful execution of the script
    has lowered exactly the entry it addressed by exactly the quantity, with the aggregate as it was or
    lowered by the quantity too. -/
theorem create_without_confirmed {request : OrderCreateRequest}
    (hnot : ¬ Stores .confirmed w (create env claims request w).2) :
    (Untouched w (create env claims request w).2 ∧
      ((create env claims request w).2.orders = w.orders ∨
        Stores .rejected w (create env claims request w).2)) ∨
    ((create env claims request w).2.orders = w.orders ∧
      Taken (request.productId.getD "") request.quantity.toInt w (create env claims request w).2) := by
  rcases create_spec (Prod.eta (create env claims request w)).symm with
    ⟨horders, huntouched | htaken⟩ | ⟨hrejected, huntouched⟩ | hconfirmed
  · exact Or.inl ⟨huntouched, Or.inl horders⟩
  · exact Or.inr ⟨horders, htaken⟩
  · exact Or.inl ⟨huntouched, Or.inr hrejected⟩
  · exact absurd hconfirmed hnot

/-! ## An `UPDATE` that fails after the reservation -/

/-- A caller with every role the chain asks for. -/
def sampleClaims : Claims :=
  ⟨"u1", some "sato-logistics", ["order-writer", "inventory-writer", "warehouse-viewer-all"]⟩

/-- Ten pieces of one product, in the aggregate and at its primary branch. -/
def sampleWorld : World where
  products := Inventory.sampleProducts
  stock := Warehouse.sampleStock
  execs := []
  orders := []

def sampleRequest : OrderCreateRequest := ⟨some "customer-1", some "product-A", 3⟩

/-- Everything works except for the `UPDATE` of `aggregate_stock`. -/
def updateFails : Env := { lookup := fun _ => .unreachable, updateAggregate := .failed false }

/-- No order is stored, and yet three pieces are gone from the branch. -/
theorem updateFails_leaves_branch_short :
    (create updateFails sampleClaims sampleRequest sampleWorld).1 = 500 ∧
    (create updateFails sampleClaims sampleRequest sampleWorld).2.orders = [] ∧
    (create updateFails sampleClaims sampleRequest sampleWorld).2.products.aggregate "product-A" = some 10 ∧
    sampleWorld.stock.current (stockKey "tokyo" "product-A") = 10 ∧
    (create updateFails sampleClaims sampleRequest sampleWorld).2.stock.current
      (stockKey "tokyo" "product-A") = 7 := by
  decide +kernel

theorem updateFails_without_confirmed :
    (Untouched sampleWorld (create updateFails sampleClaims sampleRequest sampleWorld).2 ∧
      ((create updateFails sampleClaims sampleRequest sampleWorld).2.orders = sampleWorld.orders ∨
        Stores .rejected sampleWorld (create updateFails sampleClaims sampleRequest sampleWorld).2)) ∨
    ((create updateFails sampleClaims sampleRequest sampleWorld).2.orders = sampleWorld.orders ∧
      Taken "product-A" 3 sampleWorld (create updateFails sampleClaims sampleRequest sampleWorld).2) := by
  have horders : (create updateFails sampleClaims sampleRequest sampleWorld).2.orders = [] := by
    decide +kernel
  apply create_without_confirmed
  rintro ⟨order, -, hstored⟩
  rw [horders] at hstored
  exact absurd hstored.symm (List.append_ne_nil_of_right_ne_nil _ (List.cons_ne_nil _ _))

end Gekko.Ordering
