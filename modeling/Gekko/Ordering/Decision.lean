import Gekko.Ordering.Healthy


/-! # `Gekko.Ordering.Decision` — when a `POST /orders` is confirmed

`Permitted` and `Enough` state in one place when an order is to be confirmed, from the caller's claims,
the employee record under the caller's own name, and the two stocks of the product.

The chain of handlers computes it from what its URLs lead to, and two things come between. The names may
lead to another stock entry or to another record. And Order Service reserves first and inserts the order
last, and checks nothing of the customer id before, so a customer id that the column refuses lets the
reservation go through and the insert fail.

`decides_iff` says that the decision is met exactly when neither gets in its way (`Concurs`). For names
that lead to themselves, as plain ones do, only the row is left (`decides_iff_fits`).
-/

namespace Gekko.Ordering

open Warehouse (EmployeeRecord stockKey authorizeBranch resolveOwnBranch isSuccess DecidedByBranch)
open Inventory (Product gate warehouseRoute inventoryRoute gate_eq_ok_iff)
open Employee (Document Employees Http OwnBranch SameOwn Strays answer sampleHttp sayingBranch)
open Whatwg (PlainName)

/-! ## What is expected -/

/-- The access rules of the four services, for a product with this primary branch. -/
structure Permitted (employees : Employees) (claims : Claims) (branch : String) : Prop where
  orderWriter : "order-writer" ∈ claims.roles
  inventoryWriter : "inventory-writer" ∈ claims.roles
  branchAccess : "warehouse-viewer-all" ∈ claims.roles ∨
    ("warehouse-viewer" ∈ claims.roles ∧ OwnBranch employees claims branch)

/-- Both stocks cover the quantity. -/
structure Enough (w : World) (product : Product) (quantity : Int) : Prop where
  aggregate : quantity ≤ product.aggregateStock
  branch : quantity ≤ w.stock.current (stockKey product.primaryBranch product.id)

/-- Two requests are answered alike and leave the same stock and the same orders. -/
structure SameOutcome (a b : Status × World) : Prop where
  status : a.1 = b.1
  stock : a.2.stock = b.2.stock
  products : a.2.products = b.2.products
  orders : a.2.orders = b.2.orders

/-- What is expected of a `POST /orders` for an existing product: it is confirmed exactly when it is
    permitted and there is enough; otherwise no stock changes; and no employee's record but the caller's
    plays a part. -/
structure Decides (http : Http) (redirectSucceeds : Bool) (employees : Employees) (claims : Claims)
    (request : OrderCreateRequest) (product : Product) (w : World) : Prop where
  confirmed :
    Stores .confirmed w (create (healthy http redirectSucceeds employees claims) claims request w).2 ↔
      Permitted employees claims product.primaryBranch ∧ Enough w product request.quantity.toInt
  unaffected :
    ¬ Stores .confirmed w (create (healthy http redirectSucceeds employees claims) claims request w).2 →
      Untouched w (create (healthy http redirectSucceeds employees claims) claims request w).2
  ownRecordOnly : ∀ others : Employees, SameOwn claims employees others →
    SameOutcome (create (healthy http redirectSucceeds employees claims) claims request w)
      (create (healthy http redirectSucceeds others claims) claims request w)

/-! ## What can come between -/

/-- Names and columns do not get in the way of the decision. -/
structure Concurs (http : Http) (redirectSucceeds : Bool) (employees : Employees) (claims : Claims)
    (request : OrderCreateRequest) (product : Product) (w : World) : Prop where
  /-- Where the names lead, the decision is that of the product's own branch and the caller's own record. -/
  decision : (Permitted employees claims product.primaryBranch ∧ Enough w product request.quantity.toInt) ↔
    (Granted http employees claims request product w ∨ (Waved redirectSucceeds claims product ∧ Fits request))
  /-- What is taken can be recorded. -/
  fits : Granted http employees claims request product w → Fits request
  /-- The record of somebody else is not looked up, or neither a row nor the stock can tell. -/
  ownName : ∀ b p, AtBranch claims request product b p → Strays http claims →
    ¬ Fits request ∧ ¬ request.quantity.toInt ≤ w.stock.current (stockKey b p)

variable {http : Http} {redirectSucceeds : Bool} {employees others : Employees} {claims : Claims} {w : World}
  {product : Product} {b p : String}

/-! ## Whose record counts -/

theorem SameOutcome.symm {a c : Status × World} (h : SameOutcome a c) : SameOutcome c a :=
  ⟨h.status.symm, h.stock.symm, h.products.symm, h.orders.symm⟩

theorem SameOutcome.trans {a c d : Status × World} (h : SameOutcome a c) (h' : SameOutcome c d) :
    SameOutcome a d :=
  ⟨h.status.trans h'.status, h.stock.trans h'.stock, h.products.trans h'.products, h.orders.trans h'.orders⟩

/-- The outcome depends on the employee table only through the decision of Warehouse Service. -/
theorem create_congr (hrequest : request.productId = some product.id)
    (hrow : w.products.row product.id = some product)
    (h : ∀ b p, AtBranch claims request product b p →
      authorizeBranch true (answer http others claims) claims b
        = authorizeBranch true (answer http employees claims) claims b) :
    create (healthy http redirectSucceeds others claims) claims request w
      = create (healthy http redirectSucceeds employees claims) claims request w := by
  by_cases hrole : "order-writer" ∈ claims.roles
  swap
  · rw [create_of_no_role hrole, create_of_no_role hrole]
  cases hrouted : inventoryRoute product.id with
  | none =>
      rw [create_of_redirected hrequest hrouted hrole, create_of_redirected hrequest hrouted hrole]
      rfl
  | some target =>
      cases Inventory.inventoryRoute_eq hrouted
      suffices hreserve :
          reserve (healthy http redirectSucceeds others claims) claims product.id
            request.quantity.toInt w =
          reserve (healthy http redirectSucceeds employees claims) claims product.id
            request.quantity.toInt w by
        rw [create_of_reserve hrequest hrouted hrole hreserve, create_of_reserve hrequest hrouted hrole rfl]
        rfl
      unfold reserve
      simp only [healthy, not_true_eq_false, if_false]
      by_cases hwriter : claims.hasAnyRole ["inventory-writer"] = true
      swap
      · simp only [hwriter, not_false_eq_true, if_true, Bool.false_eq_true]
      cases hgate : gate (w.products.row product.id) request.quantity.toInt with
      | error status => simp only [hwriter, not_true_eq_false, if_false]
      | ok found =>
          obtain ⟨hfound, haggregate⟩ := gate_eq_ok_iff.mp hgate
          cases hrow.symm.trans hfound
          have hcall :
              reserveAtWarehouse (healthy http redirectSucceeds others claims) claims
                product.primaryBranch product.id request.quantity.toInt w =
              reserveAtWarehouse (healthy http redirectSucceeds employees claims) claims
                product.primaryBranch product.id request.quantity.toInt w := by
            unfold reserveAtWarehouse
            cases hroute : warehouseRoute product.primaryBranch product.id with
            | none => rfl
            | some target =>
                obtain ⟨b, p⟩ := target
                have hauth := h b p
                  ⟨hrole, hrouted, (Claims.hasAnyRole_singleton claims "inventory-writer").mp hwriter,
                   haggregate, hroute⟩
                unfold reserveStock healthy
                simp only [hauth]
          unfold healthy at hcall
          simp only [hwriter, not_true_eq_false, if_false, hcall]

/-- A caller who is led to somebody else's record is decided about by that record. -/
theorem authorizeBranch_of_strays {name : String} (hbranch : DecidedByBranch claims)
    (hhr : "hr-viewer" ∈ claims.roles)
    (hleads : http.leads (claims.preferredUsername.getD "") = .employee name) (record : Option Document) :
    authorizeBranch true (answer http (Function.update employees name record) claims) claims b =
      match record with
      | none => .error 403
      | some employee =>
          match EmployeeRecord.decode (.obj employee.members) with
          | none => .error 502
          | some read => if read.branch = some b then .ok () else .error 403 := by
  rw [Warehouse.authorizeBranch_of_decidedByBranch hbranch]
  unfold resolveOwnBranch
  simp only [Employee.answer_of_shown hleads (Or.inr hhr), Function.update_self]
  cases record with
  | none => rfl
  | some employee =>
      simp only [show isSuccess 200 = true from rfl, Option.bind_some]
      cases EmployeeRecord.decode (.obj employee.members) <;> rfl

/-- A request that gets to Warehouse Service and is granted nothing. -/
theorem create_of_short (hrequest : request.productId = some product.id)
    (hrow : w.products.row product.id = some product) (hat : AtBranch claims request product b p)
    (hshort : ¬ request.quantity.toInt ≤ w.stock.current (stockKey b p)) (hfits : ¬ Fits request) :
    SameOutcome (create (healthy http redirectSucceeds employees claims) claims request w) (500, w) := by
  have hgranted : ¬ Granted http employees claims request product w := by
    rintro ⟨b', p', hat', -, hcovers⟩
    cases hat.warehouseRouted.symm.trans hat'.warehouseRouted
    exact hshort hcovers
  obtain ⟨status, w₁, hreserve, herror, horders, huntouched⟩ :=
    @reserve_of_not_granted http redirectSucceeds employees claims w product request hrow hat.orderWriter
      hat.inventoryRouted hgranted
  obtain ⟨-, hsame, ⟨⟨-, h⟩, -⟩ | ⟨-, hstatus, hnone⟩⟩ :=
    create_of_refused hrequest hat.inventoryRouted hat.orderWriter hreserve herror horders huntouched
  · exact absurd h hfits
  · exact ⟨hstatus, hsame.stock, hsame.products, hnone⟩

/-- The record of somebody else can be any. -/
theorem sameOwn_update {name : String} (hnot : claims.preferredUsername ≠ some name)
    (record : Option Document) : SameOwn claims employees (Function.update employees name record) := by
  intro username hname
  have hne : username ≠ name := by
    rintro rfl
    exact hnot hname
  exact (Function.update_of_ne hne _ _).symm

/-- If the row fits, the status tells a record that is not there, for which the order is stored as
    `REJECTED`, from an unreadable one, for which it is not. -/
theorem not_fits_of_sameOutcome {name : String} (hrequest : request.productId = some product.id)
    (hrow : w.products.row product.id = some product) (hat : AtBranch claims request product b p)
    (hbranch : DecidedByBranch claims) (hhr : "hr-viewer" ∈ claims.roles)
    (hleads : http.leads (claims.preferredUsername.getD "") = .employee name)
    (h : ∀ r r' : Option Document,
      SameOutcome
        (create (healthy http redirectSucceeds (Function.update employees name r) claims) claims request w)
        (create (healthy http redirectSucceeds (Function.update employees name r') claims)
          claims request w)) :
    ¬ Fits request := by
  intro hfits
  have hreserve := fun r status hauth => @reserve_of_error http redirectSucceeds
    (Function.update employees name r) claims w product product.id b p request.quantity.toInt status hrow
    hat.warehouseRouted hat.inventoryWriter hat.aggregate hauth
  have hmissing := hreserve none 403 (authorizeBranch_of_strays hbranch hhr hleads none)
  have hunreadable := hreserve (some (sayingBranch (.bool true))) 502
    (authorizeBranch_of_strays hbranch hhr hleads (some (sayingBranch (.bool true))))
  obtain ⟨-, -, ⟨-, hcreated⟩ | ⟨hnot, -⟩⟩ :=
    create_of_refused hrequest hat.inventoryRouted hat.orderWriter hmissing (by decide) rfl
      (Untouched.refl w)
  · obtain ⟨-, -, ⟨⟨hconflict, -⟩, -⟩ | ⟨-, hfailed, -⟩⟩ :=
      create_of_refused hrequest hat.inventoryRouted hat.orderWriter hunreadable (by decide) rfl
        (Untouched.refl w)
    · cases hconflict
    · have hstatus := (h none (some (sayingBranch (.bool true)))).status
      rw [hcreated, hfailed] at hstatus
      cases hstatus
  · exact hnot ⟨rfl, hfits⟩

/-- If the stock covers the quantity, the stock tells a record that has the branch, for which it is
    taken, from one that is not there, for which it is not. -/
theorem short_of_sameOutcome {name : String} (hrequest : request.productId = some product.id)
    (hrow : w.products.row product.id = some product) (hquantity : 1 ≤ request.quantity.toInt)
    (hat : AtBranch claims request product b p)
    (hbranch : DecidedByBranch claims) (hhr : "hr-viewer" ∈ claims.roles)
    (hleads : http.leads (claims.preferredUsername.getD "") = .employee name)
    (h : ∀ r r' : Option Document,
      SameOutcome
        (create (healthy http redirectSucceeds (Function.update employees name r) claims) claims request w)
        (create (healthy http redirectSucceeds (Function.update employees name r') claims)
          claims request w)) :
    ¬ request.quantity.toInt ≤ w.stock.current (stockKey b p) := by
  intro hcovers
  have hauth := fun r => @authorizeBranch_of_strays http employees claims b name hbranch hhr hleads r
  have huntouched := fun r => (@create_healthy http redirectSucceeds (Function.update employees name r)
    claims w product request hrequest hrow hquantity).2
  have hgranted : Granted http (Function.update employees name (some (sayingBranch (.str b))))
      claims request product w := by
    refine ⟨b, p, hat, authorizeBranch_iff_admitted.mp ?_, hcovers⟩
    rw [hauth]
    simp [sayingBranch, EmployeeRecord.decode, Warehouse.decodeBranch]
  have hdenied : ¬ Granted http (Function.update employees name none) claims request product w := by
    rintro ⟨b', p', hat', hadmitted, -⟩
    cases hat.warehouseRouted.symm.trans hat'.warehouseRouted
    cases (hauth none).symm.trans (authorizeBranch_iff_admitted.mpr hadmitted)
  have hleft := (huntouched none).mpr hdenied
  have houtcome := h (some (sayingBranch (.str b))) none
  exact (huntouched _).mp
    ⟨houtcome.stock.trans hleft.stock, houtcome.products.trans hleft.products⟩ hgranted

/-- **Whose record plays a part.** Only the caller's own does, exactly when the caller is not led to the
    record of somebody else, or nothing comes of it. -/
theorem ownRecordOnly_iff (hrequest : request.productId = some product.id)
    (hrow : w.products.row product.id = some product) (hquantity : 1 ≤ request.quantity.toInt) :
    (∀ others : Employees, SameOwn claims employees others →
      SameOutcome (create (healthy http redirectSucceeds employees claims) claims request w)
        (create (healthy http redirectSucceeds others claims) claims request w)) ↔
      ∀ b p, AtBranch claims request product b p → Strays http claims →
        ¬ Fits request ∧ ¬ request.quantity.toInt ≤ w.stock.current (stockKey b p) := by
  constructor
  · rintro hsame b p hat ⟨hbranch, hhr, name, hleads, hnot⟩
    -- Whatever the record is that the name leads to, the outcome is the same.
    have htables := fun r r' =>
      (hsame _ (sameOwn_update hnot r)).symm.trans (hsame _ (sameOwn_update hnot r'))
    exact ⟨not_fits_of_sameOutcome hrequest hrow hat hbranch hhr hleads htables,
      short_of_sameOutcome hrequest hrow hquantity hat hbranch hhr hleads htables⟩
  · intro hnamed others hown
    by_cases hat : ∃ b p, AtBranch claims request product b p ∧ Strays http claims
    · obtain ⟨b, p, hat, hstrays⟩ := hat
      obtain ⟨hfits, hshort⟩ := hnamed b p hat hstrays
      exact (create_of_short hrequest hrow hat hshort hfits).trans
        (create_of_short hrequest hrow hat hshort hfits).symm
    · have hauth : ∀ b p, AtBranch claims request product b p →
          authorizeBranch true (answer http others claims) claims b
            = authorizeBranch true (answer http employees claims) claims b := fun b p h =>
        Warehouse.authorizeBranch_congr
          (fun hbranch => (Employee.answer_congr hbranch (fun hstrays => hat ⟨b, p, h, hstrays⟩) hown).symm) b
      rw [create_congr hrequest hrow hauth]
      exact ⟨rfl, rfl, rfl, rfl⟩

/-! ## When the decision is met -/

/-- **The chain computes the decision, except where names lead elsewhere or the row does not fit.** For
    an existing product and a quantity of at least 1, whatever the names are, the order is decided as
    `Permitted` and `Enough` say if and only if names and columns do not get in the way. -/
theorem decides_iff (hrequest : request.productId = some product.id)
    (hrow : w.products.row product.id = some product) (hquantity : 1 ≤ request.quantity.toInt) :
    Decides http redirectSucceeds employees claims request product w ↔
      Concurs http redirectSucceeds employees claims request product w := by
  obtain ⟨hconfirmed, huntouched⟩ :=
    @create_healthy http redirectSucceeds employees claims w product request hrequest hrow hquantity
  have hown := @ownRecordOnly_iff http redirectSucceeds employees claims w product
    request hrequest hrow hquantity
  -- Once what is granted fits, only a waved order can be lost for its row.
  have hsplit (hfits : Granted http employees claims request product w → Fits request) :
      ((Granted http employees claims request product w ∨ Waved redirectSucceeds claims product) ∧
       Fits request) ↔
        (Granted http employees claims request product w ∨
         (Waved redirectSucceeds claims product ∧ Fits request)) := by
    constructor
    · rintro ⟨h | h, hrow⟩
      · exact Or.inl h
      · exact Or.inr ⟨h, hrow⟩
    · rintro (h | ⟨h, hrow⟩)
      · exact ⟨Or.inl h, hfits h⟩
      · exact ⟨Or.inr h, hrow⟩
  constructor
  · intro hdecides
    have hfits : Granted http employees claims request product w → Fits request := by
      intro hgranted
      by_contra hnot
      exact huntouched.mp (hdecides.unaffected fun h => hnot (hconfirmed.mp h).2) hgranted
    exact ⟨hdecides.confirmed.symm.trans (hconfirmed.trans (hsplit hfits)), hfits,
      hown.mp hdecides.ownRecordOnly⟩
  · intro hconcurs
    have hstored := hconfirmed.trans (hsplit hconcurs.fits)
    refine ⟨hstored.trans hconcurs.decision.symm, fun hnot => huntouched.mpr fun h => ?_,
      hown.mpr hconcurs.ownName⟩
    exact hnot (hstored.mpr (Or.inl h))

/-- **For names that lead to themselves**, the order is decided as it should be if and only if its row
    fits or it is not to be confirmed in any case. -/
theorem decides_iff_fits (hrequest : request.productId = some product.id)
    (hrow : w.products.row product.id = some product) (hquantity : 1 ≤ request.quantity.toInt)
    (hinventory : inventoryRoute product.id = some product.id)
    (hwarehouse : warehouseRoute product.primaryBranch product.id = some (product.primaryBranch, product.id))
    (huser : ∀ username, claims.preferredUsername = some username →
      http.leads username = .employee username) :
    Decides http redirectSucceeds employees claims request product w ↔
      (Fits request ∨
        ¬ (Permitted employees claims product.primaryBranch ∧ Enough w product request.quantity.toInt)) := by
  have hled : ∀ branch, LedBranch http employees claims branch ↔ OwnBranch employees claims branch := by
    intro branch
    unfold LedBranch OwnBranch
    cases hname : claims.preferredUsername with
    | none => simp [Employee.leads_empty, http.nameless, isSuccess]
    | some username => simp [huser username hname]
  have hgranted : Granted http employees claims request product w ↔
      Permitted employees claims product.primaryBranch ∧ Enough w product request.quantity.toInt := by
    unfold Granted Admitted
    constructor
    · rintro ⟨b, p, hat, hadmitted, hcovers⟩
      cases hwarehouse.symm.trans hat.warehouseRouted
      rw [hled] at hadmitted
      exact ⟨⟨hat.orderWriter, hat.inventoryWriter, hadmitted⟩, hat.aggregate, hcovers⟩
    · rintro ⟨hpermitted, henough⟩
      refine ⟨_, _, ⟨hpermitted.orderWriter, hinventory, hpermitted.inventoryWriter,
        henough.aggregate, hwarehouse⟩, ?_, henough.branch⟩
      rw [hled]
      exact hpermitted.branchAccess
  have hwaved : ¬ Waved redirectSucceeds claims product := by
    intro h
    cases hinventory.symm.trans h.redirected
  have hstrays : ¬ Strays http claims := by
    rintro ⟨-, -, name, hleads, hnot⟩
    cases hname : claims.preferredUsername with
    | none =>
        rw [hname, Option.getD_none, Employee.leads_empty] at hleads
        cases hleads
    | some username =>
        rw [hname, Option.getD_some, huser username hname] at hleads
        cases hleads
        exact hnot hname
  rw [decides_iff hrequest hrow hquantity, ← hgranted]
  constructor
  · intro hconcurs
    by_cases h : Granted http employees claims request product w
    · exact Or.inl (hconcurs.fits h)
    · exact Or.inr h
  · intro h
    refine ⟨hgranted.symm.trans ⟨Or.inl, ?_⟩, fun hyes => h.resolve_right (not_not.mpr hyes), ?_⟩
    · rintro (hyes | ⟨hno, -⟩)
      · exact hyes
      · exact absurd hno hwaved
    · exact fun _ _ _ hno => absurd hno hstrays

/-- So it is for plain names. -/
theorem decides_iff_fits_of_plain (hrequest : request.productId = some product.id)
    (hrow : w.products.row product.id = some product) (hquantity : 1 ≤ request.quantity.toInt)
    (hid : PlainName product.id) (hbranch : PlainName product.primaryBranch)
    (huser : ∀ username, claims.preferredUsername = some username → PlainName username) :
    Decides http redirectSucceeds employees claims request product w ↔
      (Fits request ∨
        ¬ (Permitted employees claims product.primaryBranch ∧ Enough w product request.quantity.toInt)) :=
  decides_iff_fits hrequest hrow hquantity (Inventory.inventoryRoute_of_plain hid)
    (Inventory.warehouseRoute_of_plain (Inventory.plainSegment_of_plainName hbranch)
      (Inventory.plainSegment_of_plainName hid))
    fun username hname => Employee.leads_of_plain (huser username hname)

/-! ## A customer id that is missing -/

def sampleProduct : Product := ⟨"product-A", "Product A", 10, "tokyo"⟩

/-- An empty employee table; the caller of the sample needs no record. -/
def noEmployees : Employees := fun _ => none

/-- The order form left the customer id out. -/
def withoutCustomer : OrderCreateRequest := { sampleRequest with customerId := none }

/-- The order is permitted and there is enough, but it is not stored, and the stock is gone. -/
theorem withoutCustomer_takes_stock :
    (Permitted noEmployees sampleClaims sampleProduct.primaryBranch ∧ Enough sampleWorld sampleProduct 3) ∧
    (create (healthy sampleHttp false noEmployees sampleClaims) sampleClaims
      withoutCustomer sampleWorld).1 = 500 ∧
    (create (healthy sampleHttp false noEmployees sampleClaims) sampleClaims
      withoutCustomer sampleWorld).2.orders = [] ∧
    sampleWorld.stock.current (stockKey "tokyo" "product-A") = 10 ∧
    (create (healthy sampleHttp false noEmployees sampleClaims) sampleClaims
      withoutCustomer sampleWorld).2.stock.current (stockKey "tokyo" "product-A") = 7 := by
  refine ⟨⟨⟨by decide, by decide, Or.inl (by decide)⟩, ⟨by decide, by decide +kernel⟩⟩, ?_⟩
  decide +kernel

theorem sampleRequest_decided :
    Decides sampleHttp false noEmployees sampleClaims sampleRequest sampleProduct sampleWorld := by
  have hat : AtBranch sampleClaims sampleRequest sampleProduct "tokyo" "product-A" :=
    ⟨by decide, by decide +kernel, by decide, by decide, by decide +kernel⟩
  have hgranted : Granted sampleHttp noEmployees sampleClaims sampleRequest sampleProduct sampleWorld :=
    ⟨"tokyo", "product-A", hat, Or.inl (by decide), by decide +kernel⟩
  have hexpected : Permitted noEmployees sampleClaims sampleProduct.primaryBranch ∧
      Enough sampleWorld sampleProduct sampleRequest.quantity.toInt :=
    ⟨⟨by decide, by decide, Or.inl (by decide)⟩, ⟨by decide, by decide +kernel⟩⟩
  apply (decides_iff rfl (by decide +kernel) (by decide)).mpr
  refine ⟨iff_of_true hexpected (Or.inl hgranted), fun _ => ⟨by decide, by decide⟩, ?_⟩
  intro b p _ hstrays
  exact absurd hstrays.hrViewer (by decide)

end Gekko.Ordering
