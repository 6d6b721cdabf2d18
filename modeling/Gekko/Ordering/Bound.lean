import Gekko.Inventory.Drawdown
import Gekko.Ordering.Confirmed

/-!
# `Gekko.Ordering.Bound` — what can be confirmed in all

For each product, the positive quantities of the orders stored as `CONFIRMED` add up to at most the stock that
its primary branch held at the start, as long as no request has a negative quantity. Two things come together:
the orders are matched one to one with executions of the script (`Gekko.Ordering.Confirmed`), and all that the
executions drew on a key is bounded by its first level, because the stock is a ledger
(`Gekko.Inventory.Drawdown`). A negative quantity passes the checks of all three services and is drawn like
any other, which raises the stock.
-/

namespace Gekko.Ordering

open Machine
open Inventory (ProductTable drawnBy)
open Warehouse (Stock Exec stockKey)

/-- What an order contributes to the positive quantities confirmed for a product. -/
def Order.sold (id : String) (order : Order) : Int :=
  if order.productId = id ∧ order.status = .confirmed then max order.quantity.toInt 0 else 0

/-- The sum of the positive quantities of the orders for a product stored as `CONFIRMED`. -/
def State.sold (s : State) (id : String) : Int := (s.rows.map fun x => x.2.sold id).sum

/-- The quantities that come with the step are not negative. -/
def Action.NonNegative : Action → Prop
  | .post request => 0 ≤ request.quantity.toInt
  | .inventory (.arrive _ quantity) => 0 ≤ quantity
  | .inventory (.direct _ _ quantity) => 0 ≤ quantity
  | _ => True

/-- The quantities in a state are not negative. -/
structure NonNegative (s : State) : Prop where
  posts : ∀ p ∈ s.posts, 0 ≤ p.request.quantity.toInt
  reserves : ∀ r ∈ s.inventory.reserves, 0 ≤ r.quantity
  execs : ∀ e ∈ s.inventory.execs, 0 ≤ e.quantity

variable {s s' : State} {a : Action} {products : ProductTable} {id branch : String}

theorem nonNegative_step (hs : NonNegative s) (ha : a.NonNegative) (h : step s a = some s') :
    NonNegative s' := by
  cases a with
  | post request =>
      cases h
      exact ⟨Pool.forall_mem_append_singleton hs.posts ha, hs.reserves, hs.execs⟩
  | move i m =>
      obtain ⟨p, p', hp, hmoved, rfl⟩ := step_move h
      refine ⟨Pool.forall_mem_set hs.posts ?_, hs.reserves, hs.execs⟩
      rw [(continues_of_moved hmoved).request]
      exact hs.posts p (List.mem_of_getElem? hp)
  | arrive i =>
      obtain ⟨p, pathId, hp, -, -, rfl⟩ := step_arrive h
      have hquantity := hs.posts p (List.mem_of_getElem? hp)
      exact ⟨Pool.forall_mem_set hs.posts hquantity, Pool.forall_mem_append_singleton hs.reserves hquantity,
        hs.execs⟩
  | deliver i =>
      obtain ⟨p, k, r, status, hp, hphase, -, -, -, rfl⟩ := step_deliver h
      refine ⟨Pool.forall_mem_set hs.posts ?_, hs.reserves, hs.execs⟩
      rw [(continues_resume hphase status).request]
      exact hs.posts p (List.mem_of_getElem? hp)
  | save i reported =>
      obtain ⟨p, reserved, order, hp, -, -, rfl⟩ := step_save h
      exact ⟨Pool.forall_mem_set hs.posts (hs.posts p (List.mem_of_getElem? hp)), hs.reserves, hs.execs⟩
  | inventory b =>
      obtain ⟨inventory, hb, rfl⟩ := step_inventory h
      refine ⟨hs.posts, Inventory.reserves_quantity hs.reserves ?_ hb,
        Inventory.execs_quantity hs.execs hs.reserves ?_ hb⟩
      · rintro productId quantity rfl
        exact ha
      · rintro b p quantity rfl
        exact ha

theorem nonNegative_start (products : ProductTable) (stock : Stock) : NonNegative (start products stock) := by
  constructor
  · intro p hp
    cases hp
  · intro r hr
    cases hr
  · intro e he
    cases he

/-- Every run of orders is a run of the ledger that the branch stock is. -/
theorem ledger_run {stock : Stock} {as : List Action} {t : State}
    (hrun : run step (start products stock) as = some t) :
    ∃ ds, run Ledger.step ⟨stock.current, fun _ => 0⟩ ds = some t.inventory.ledger := by
  have hsim : ∀ s a s' u, s.inventory.ledger = u → step s a = some s' →
      ∃ ds u', run Ledger.step u ds = some u' ∧ s'.inventory.ledger = u' := by
    rintro s a s' _ rfl h
    rcases inventory_step h with heq | ⟨b, hb⟩
    · exact ⟨[], s.inventory.ledger, rfl, by rw [heq]⟩
    · obtain ⟨ds, hds⟩ := Inventory.ledger_run_step hb
      exact ⟨ds, s'.inventory.ledger, hds, rfl⟩
  obtain ⟨ds, u, hds, hu⟩ := run_simulation hsim (u := ⟨stock.current, fun _ => 0⟩) rfl hrun
  exact ⟨ds, hu ▸ hds⟩

/-- What was drawn on a key is bounded by its first level. -/
theorem drawn_le_stock {stock : Stock} {as : List Action} {t : State} {key : String}
    (hstock : 0 ≤ stock.current key) (hrun : run step (start products stock) as = some t) :
    t.inventory.drawn key ≤ stock.current key := by
  obtain ⟨ds, hds⟩ := ledger_run hrun
  have hle : t.inventory.drawn key ≤ stock.current key + 0 := Ledger.drawn_le hstock hds
  rwa [Int.add_zero] at hle

theorem drawnBy_nonneg {key : String} {e : Exec} (h : 0 ≤ e.quantity) : 0 ≤ drawnBy key e := by
  unfold drawnBy
  split
  · exact h
  · exact Int.le_refl 0

/-- An order contributes no more than the execution it is matched with drew. -/
theorem sold_le_drawnBy {order : Order} {e : Exec} (hbranch : products.branch id = some branch)
    (hmatches : Matches products order e) (hquantity : 0 ≤ e.quantity) :
    order.sold id ≤ drawnBy (stockKey branch id) e := by
  unfold Order.sold
  split
  · rename_i h
    obtain ⟨rfl, -⟩ := h
    have hsame : e.branch = branch := Option.some.inj (hmatches.branch.symm.trans hbranch)
    have hkey : e.key = stockKey branch order.productId := by
      unfold Exec.key
      rw [hsame, hmatches.productId]
    rw [drawnBy, if_pos ⟨hmatches.status, hkey⟩, ← hmatches.quantity]
    omega
  · exact drawnBy_nonneg hquantity

theorem sold_le_zero {order : Order} (h : ¬ order.status = .confirmed) : order.sold id ≤ 0 := by
  unfold Order.sold
  rw [if_neg fun hc => h hc.2]

/-- The confirmed quantities of a product are covered by what was drawn on its key. -/
theorem sold_le_drawn (hs : s.Backed products) (hnonneg : NonNegative s)
    (hbranch : products.branch id = some branch) : s.sold id ≤ s.inventory.drawn (stockKey branch id) := by
  obtain ⟨f, hf, hmatches⟩ := hs
  refine Pool.sum_map_le_of_injective hf (fun n => ?_) (fun n hn => sold_le_zero hn) fun e he => ?_
  · exact sold_le_drawnBy hbranch (hmatches n) (hnonneg.execs _ (List.get_mem _ _))
  · exact drawnBy_nonneg (hnonneg.execs e he)

/-- **No more is confirmed than was there.** In every run of addressed requests without negative quantities,
    and in every state it reaches, the positive quantities of the orders for a product stored as `CONFIRMED`
    add up to at most the stock of its primary branch at the start. -/
theorem sold_le_stock {stock : Stock} {as : List Action} {t : State}
    (hbranch : products.branch id = some branch) (hstock : 0 ≤ stock.current (stockKey branch id))
    (has : ∀ a ∈ as, a.Addressed products ∧ a.NonNegative)
    (hrun : run step (start products stock) as = some t) :
    t.sold id ≤ stock.current (stockKey branch id) := by
  have hbacked := (sound_run (fun a ha => (has a ha).1) hrun).rows_backed
  have hnonneg : NonNegative t :=
    run_invariant_along (G := fun _ a => a.NonNegative) (fun _ _ _ hs ha h => nonNegative_step hs ha h)
      (nonNegative_start products stock) (along_of_forall fun a ha => (has a ha).2) hrun
  calc t.sold id ≤ t.inventory.drawn (stockKey branch id) := sold_le_drawn hbacked hnonneg hbranch
    _ ≤ stock.current (stockKey branch id) := drawn_le_stock hstock hrun

/-! ## A negative quantity between two orders -/

/-- Orders for ten, for minus five, and for five pieces of a product with a stock of ten. -/
def refilled : List Action :=
  smoothly 0 ⟨some "customer-1", some "product-A", 10⟩ ++ smoothly 1 ⟨some "customer-1", some "product-A", -5⟩
    ++ smoothly 2 ⟨some "customer-1", some "product-A", 5⟩

/-- All three are confirmed: fifteen pieces out of ten. -/
theorem refilled_sells_fifteen :
    Warehouse.sampleStock.current (stockKey "tokyo" "product-A") = 10 ∧
    Inventory.sampleProducts.branch "product-A" = some "tokyo" ∧
    (run step (start Inventory.sampleProducts Warehouse.sampleStock) refilled).map
        (fun t => (t.rows.map (fun x => (x.2.quantity, x.2.status)), t.sold "product-A"))
      = some ([(10, .confirmed), (-5, .confirmed), (5, .confirmed)], 15) := by
  decide +kernel

theorem smoothly_sold_le :
    ∃ t, run step (start Inventory.sampleProducts Warehouse.sampleStock)
        (smoothly 0 ⟨some "customer-1", some "product-A", 3⟩) = some t ∧
      t.sold "product-A" = 3 ∧
      t.sold "product-A" ≤ Warehouse.sampleStock.current (stockKey "tokyo" "product-A") := by
  have hobs : (run step (start Inventory.sampleProducts Warehouse.sampleStock)
      (smoothly 0 ⟨some "customer-1", some "product-A", 3⟩)).map (·.sold "product-A") = some 3 := by
    decide +kernel
  obtain ⟨t, hrun, hsold⟩ := Option.map_eq_some_iff.mp hobs
  refine ⟨t, hrun, hsold, sold_le_stock (by decide +kernel) (by decide +kernel) ?_ hrun⟩
  simp [smoothly, Inventory.upToAnswer, Action.Addressed, Action.NonNegative, addressed_sample]

end Gekko.Ordering
