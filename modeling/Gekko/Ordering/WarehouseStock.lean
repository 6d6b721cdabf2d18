import Gekko.Inventory.StockRoute
import Gekko.Warehouse.Viewers


/-! # `Gekko.Ordering.WarehouseStock` — a product id through three services

`GET /warehouse-stock/{productId}` of Order Service is relayed by Inventory Service to Warehouse
Service. The product id is decoded and put into a URL again at each of the two hops: by Spring's URI
template, which encodes it strictly, and by `fmt.Sprintf`, which does not. Between the services there
are token exchanges, connections and middleware, each of which can end the request.

`faithful_iff` says for which product ids a success is an answer about that product.
-/

namespace Gekko.Ordering

open Inventory (Leads Verbatim)
open Warehouse (Caller Redis Response Stock refuse)

/-- What becomes of a request before it reaches the router of the next service. -/
inductive Hop where
  /-- There is no connection, or no answer. -/
  | lost
  /-- The middleware answers. -/
  | refused (status : Status) (hstatus : 400 ≤ status)
  | arrives

/-- Everything but the product id that the request depends on. -/
structure StockWorld where
  /-- Keycloak exchanges the token for `inventory-service`. -/
  exchangeInventory : Bool
  toInventory : Hop
  /-- Keycloak exchanges the token for `warehouse-service`. -/
  exchangeWarehouse : Bool
  toWarehouse : Hop
  stock : Stock
  caller : Caller
  redis : Redis
  /-- What Redis answers to `KEYS stock:*:{product_id}`. -/
  keys : String → List String

variable (parses : List UInt8 → Bool) (w : StockWorld)

/-- What Inventory Service gets for the request line that it sends; `none` without an answer. -/
def warehouseAnswer (target : List UInt8 × List UInt8) : Option Response :=
  match w.toWarehouse with
  | .lost => none
  | .refused status _ => some (refuse status)
  | .arrives =>
      if ¬ parses (target.1 ++ target.2) then some (refuse 400)
      else
        match Inventory.matchStock target.1 with
        | none => some (refuse 404)
        | some productId =>
            some (Warehouse.getStockByBranches w.stock w.caller productId w.redis (w.keys productId))

/-- `InventoryHandlers.getWarehouseStock`. -/
def inventoryGetWarehouseStock (productId : String) : Response :=
  if ¬ w.exchangeWarehouse then refuse 502
  else
    match Inventory.sentTarget (Inventory.stockPrefix ++ Utf8.encode productId) with
    | none => refuse 500
    | some target =>
        match warehouseAnswer parses w target with
        | none => refuse 502
        | some response => response

/-- What `InventoryClient.getWarehouseStock` gets; `none` without an answer. -/
def inventoryAnswer (productId : String) : Option Response :=
  match w.toInventory with
  | .lost => none
  | .refused status _ => some (refuse status)
  | .arrives =>
      match Inventory.inventoryRoute productId with
      | none => some (refuse 404)
      | some id => some (inventoryGetWarehouseStock parses w id)

/-- `WarehouseStockController.getWarehouseStock`. Only an `HttpClientErrorException` is caught. -/
def getWarehouseStock (productId : String) : Response :=
  if ¬ w.exchangeInventory then refuse 500
  else
    match inventoryAnswer parses w productId with
    | none => refuse 500
    | some response =>
        if 500 ≤ response.status then refuse 500
        else if 400 ≤ response.status then response
        else ⟨200, response.body⟩

/-- A success is an answer about the stock of this product, whatever else happens. -/
def Faithful (productId : String) : Prop :=
  ∀ w, (getWarehouseStock parses w productId).status = 200 →
    ∃ branches, (getWarehouseStock parses w productId).body = .branchStock productId branches

/-! ## What comes back -/

/-- A success about some product that satisfies `P`, or a refusal. -/
def Answers (P : String → Prop) (response : Response) : Prop :=
  (∃ id branches, P id ∧ response = ⟨200, .branchStock id branches⟩) ∨
    ∃ status, 400 ≤ status ∧ response = refuse status

variable {parses w} {productId id : String}

theorem Answers.imp {P Q : String → Prop} {response : Response} (h : Answers P response)
    (hPQ : ∀ id, P id → Q id) :
    Answers Q response := by
  rcases h with ⟨id, branches, hP, heq⟩ | hrefused
  · exact Or.inl ⟨id, branches, hPQ id hP, heq⟩
  · exact Or.inr hrefused

theorem answers_refuse {P : String → Prop} {status : Status} (h : 400 ≤ status) : Answers P (refuse status) :=
  Or.inr ⟨status, h, rfl⟩

theorem getStockByBranches_answers (σ : Stock) (caller : Caller) (id : String) (redis : Redis)
    (keys : List String) :
    Answers (· = id) (Warehouse.getStockByBranches σ caller id redis keys) := by
  unfold Warehouse.getStockByBranches
  split
  · exact answers_refuse (by decide)
  · split
    · exact answers_refuse (by decide)
    · split
      · exact Or.inl ⟨id, _, rfl, rfl⟩
      · split
        · rename_i status hresolve
          rcases Warehouse.resolveOwnBranch_error hresolve with rfl | rfl
          · exact answers_refuse (by decide)
          · exact answers_refuse (by decide)
        · exact Or.inl ⟨id, _, rfl, rfl⟩
        · exact Or.inl ⟨id, _, rfl, rfl⟩

/-- Inventory Service answers about the product that its URL leads to. -/
theorem inventoryGetWarehouseStock_answers :
    Answers (fun id => Inventory.stockRoute parses productId = some id)
      (inventoryGetWarehouseStock parses w productId) := by
  unfold inventoryGetWarehouseStock
  split
  · exact answers_refuse (by decide)
  · cases htarget : Inventory.sentTarget (Inventory.stockPrefix ++ Utf8.encode productId) with
    | none => exact answers_refuse (by decide)
    | some target =>
        simp only [warehouseAnswer]
        cases w.toWarehouse with
        | lost => exact answers_refuse (by decide)
        | refused status hstatus => exact answers_refuse hstatus
        | arrives =>
            by_cases hparses : parses (target.1 ++ target.2) = true
            · rw [if_neg (not_not.mpr hparses)]
              cases hmatch : Inventory.matchStock target.1 with
              | none => exact answers_refuse (by decide)
              | some id =>
                  have hroute : Inventory.stockRoute parses productId = some id := by
                    unfold Inventory.stockRoute
                    rw [htarget, Option.bind_some, if_pos hparses, hmatch]
                  exact (getStockByBranches_answers w.stock w.caller id w.redis (w.keys id)).imp fun _ heq =>
                    heq ▸ hroute
            · rw [if_pos hparses]
              exact answers_refuse (by decide)

theorem inventoryAnswer_answers {response : Response}
    (h : inventoryAnswer parses w productId = some response) :
    Answers (fun id => Inventory.stockRoute parses productId = some id) response := by
  unfold inventoryAnswer at h
  split at h
  · cases h
  · rename_i status hstatus _
    cases h
    exact answers_refuse hstatus
  · split at h
    · cases h
      exact answers_refuse (by decide)
    · rename_i id hroute
      cases h
      -- The first hop has encoded the product id.
      rw [Inventory.inventoryRoute_eq hroute]
      exact inventoryGetWarehouseStock_answers

/-- A success of Order Service is about the product that Inventory Service's URL leads to. -/
theorem getWarehouseStock_of_success (h : (getWarehouseStock parses w productId).status = 200) :
    ∃ id branches, Inventory.stockRoute parses productId = some id ∧
      getWarehouseStock parses w productId = ⟨200, .branchStock id branches⟩ := by
  unfold getWarehouseStock at h ⊢
  by_cases hexchange : w.exchangeInventory = true
  · rw [if_neg (not_not.mpr hexchange)] at h ⊢
    cases hanswer : inventoryAnswer parses w productId with
    | none =>
        rw [hanswer] at h
        exact absurd h (by decide)
    | some response =>
        rw [hanswer] at h
        rcases inventoryAnswer_answers hanswer with ⟨id, branches, hroute, rfl⟩ | ⟨status, hstatus, rfl⟩
        · exact ⟨id, branches, hroute, rfl⟩
        · -- A refusal is relayed, or turned into another one.
          have hne : status ≠ 200 := by
            rintro rfl
            exact absurd hstatus (by decide)
          simp only at h
          split at h
          · exact absurd h (by decide)
          · split at h
            · exact absurd h hne
            · rename_i hlow
              exact absurd hstatus hlow
  · rw [if_pos hexchange] at h
    exact absurd h (by decide)

/-! ## An answer that comes -/

/-- Ten pieces of `product-A` at one branch, a caller who sees all branches, and nothing in the way. -/
def openWorld : StockWorld where
  exchangeInventory := true
  toInventory := .arrives
  exchangeWarehouse := true
  toWarehouse := .arrives
  stock := Warehouse.recordAll [⟨"tokyo", "product-A", 10⟩]
  caller := Warehouse.allCaller
  redis := ⟨true, true⟩
  keys := fun productId => if productId = "product-A" then [Warehouse.stockKey "tokyo" "product-A"] else []

/-- With nothing in the way, the answer is about the product that the URL leads to. -/
theorem getWarehouseStock_openWorld (hinventory : Inventory.inventoryRoute productId = some productId)
    (hstock : Inventory.stockRoute parses productId = some id) :
    ∃ branches, getWarehouseStock parses openWorld productId = ⟨200, .branchStock id branches⟩ := by
  obtain ⟨target, htarget, hmatch⟩ := Option.bind_eq_some_iff.mp hstock
  have hparses : parses (target.1 ++ target.2) = true := by
    by_contra hnot
    rw [if_neg hnot] at hmatch
    cases hmatch
  rw [if_pos hparses] at hmatch
  obtain ⟨branches, hget⟩ : ∃ branches, Warehouse.getStockByBranches openWorld.stock openWorld.caller id
      openWorld.redis (openWorld.keys id) = ⟨200, .branchStock id branches⟩ :=
    ⟨_, Warehouse.getStockByBranches_of_all (by decide)⟩
  have hwarehouse : warehouseAnswer parses openWorld target = some ⟨200, .branchStock id branches⟩ := by
    show (if ¬ parses (target.1 ++ target.2) = true then some (refuse 400) else _) = _
    rw [if_neg (not_not.mpr hparses), hmatch]
    exact congrArg some hget
  have hanswer : inventoryGetWarehouseStock parses openWorld productId = ⟨200, .branchStock id branches⟩ := by
    show (if ¬ true = true then refuse 502 else _) = _
    rw [if_neg (not_not.mpr rfl), htarget]
    simp only [hwarehouse]
  have hrelayed : inventoryAnswer parses openWorld productId = some ⟨200, .branchStock id branches⟩ := by
    unfold inventoryAnswer
    rw [hinventory]
    exact congrArg some hanswer
  refine ⟨branches, ?_⟩
  show (if ¬ true = true then refuse 500 else _) = _
  rw [if_neg (not_not.mpr rfl), hrelayed]
  rfl

/-- **A success is about the product that was asked for**, exactly when its id can stand in a path as it
    is, or in no request that is answered. -/
theorem faithful_iff (parses : List UInt8 → Bool) (productId : String) :
    Faithful parses productId ↔ (Leads parses productId → Verbatim productId) := by
  constructor
  · intro hfaithful hleads
    by_contra hverbatim
    obtain ⟨id, hstock⟩ := Inventory.leads_iff.mp hleads
    -- The id has one of the three characters, so the first hop lets it through.
    have hne : ∀ plain, Verbatim plain → productId ≠ plain := fun plain hplain heq => hverbatim (heq ▸ hplain)
    have hinventory := Inventory.inventoryRoute_of_ne (hne "" ⟨by decide, by decide, by decide⟩)
      (hne "." ⟨by decide, by decide, by decide⟩) (hne ".." ⟨by decide, by decide, by decide⟩)
    obtain ⟨branches, hanswer⟩ := getWarehouseStock_openWorld hinventory hstock
    obtain ⟨branches', hbody⟩ := hfaithful openWorld (by rw [hanswer])
    rw [hanswer] at hbody
    cases hbody
    exact hverbatim ((Inventory.stockRoute_eq_self_iff hstock).mp rfl)
  · intro h w hsuccess
    obtain ⟨id, branches, hstock, hanswer⟩ := getWarehouseStock_of_success hsuccess
    have hverbatim := h (Inventory.leads_iff.mpr ⟨id, hstock⟩)
    rw [(Inventory.stockRoute_eq_self_iff hstock).mpr hverbatim] at hanswer
    exact ⟨branches, by rw [hanswer]⟩

/-- **Another product's stock.** What stands behind a question mark is not asked for: the answer for
    `product-A?x` is the stock of `product-A`. -/
theorem question_mark_unfaithful :
    (getWarehouseStock (fun _ => true) openWorld "product-A?x")
      = ⟨200, .branchStock "product-A" [("tokyo", 10)]⟩ ∧
    ¬ Faithful (fun _ => true) "product-A?x" := by
  have hanswer : getWarehouseStock (fun _ => true) openWorld "product-A?x"
      = ⟨200, .branchStock "product-A" [("tokyo", 10)]⟩ := by
    decide +kernel
  refine ⟨hanswer, fun hfaithful => ?_⟩
  obtain ⟨branches, hbody⟩ := hfaithful openWorld (by rw [hanswer])
  rw [hanswer] at hbody
  exact absurd (Warehouse.Body.branchStock.inj hbody).1 (by decide)

end Gekko.Ordering
