import Gekko.Inventory.Backing


/-! # `Gekko.Inventory.Cover` — the aggregate never falls below the primary branch

`reserve` refuses a quantity that `aggregate_stock` does not cover before it asks the warehouse. That is
right as long as the aggregate is at least the stock of the product's primary branch. Concurrent
handlers overwrite the aggregate with values from rows they have read long ago, so the bound does not
follow from the row alone: it is carried by `Reserve.leaves`, the value that a handler is going to leave
in the row as far as it can tell, and the invariant is that this value too is at least what the branch
has *now*. A successful execution of the script lowers both sides by the quantity; everything else that
happens to the branch lowers one side only.

The one thing this asks of a product is that the handler's request leads to its own stock (`LeadsHome`).
-/

namespace Gekko.Inventory

open Machine
open Warehouse (Stock Exec stockKey runScript runScript_cases reserveScript scriptStatus)

/-- Wherever the URL for the branch and the product leads, it is the stock entry of these two. -/
def LeadsHome (branch productId : String) : Prop :=
  ∀ b p, warehouseRoute branch productId = some (b, p) → stockKey b p = stockKey branch productId

/-- Quantities that the order form submits. -/
def Action.Positive : Action → Prop
  | .arrive _ quantity => 1 ≤ quantity
  | .direct _ _ quantity => 1 ≤ quantity
  | _ => True

/-- What the handler is going to leave in the row: the quantity is taken off once the warehouse has
confirmed it. -/
def Reserve.leaves (r : Reserve) : Option Int :=
  match r.phase with
  | .loaded p => some p.aggregateStock
  | .calling p => some (if r.call = .replied 200 then p.aggregateStock - r.quantity else p.aggregateStock)
  | .reserved p => some (p.aggregateStock - r.quantity)
  | .arrived | .answered _ => none

/-- The row and every handler's value cover the stock entry under `key`. -/
structure Covered (id key : String) (s : State) : Prop where
  row : ∃ n, s.products.aggregate id = some n ∧ s.stock.current key ≤ n
  leaves : ∀ r ∈ s.reserves, r.productId = id → ∀ n, r.leaves = some n → s.stock.current key ≤ n

variable {id branch key : String} {s s' : State} {a : Action}

/-! ## The branch only loses -/

theorem current_runScript_le {stock : Stock} {b p : String} {quantity : Int} {request : Option Nat}
    (hq : 0 ≤ quantity) (key : String) :
    (runScript stock b p quantity request).2.current key ≤ stock.current key := by
  rcases runScript_cases stock b p quantity request with ⟨-, hsame, -⟩ | ⟨-, hdecr, -⟩
  · rw [hsame]
  · rw [hdecr]
    by_cases hkey : key = stockKey b p
    · subst hkey
      rw [Stock.current_decrBy_self]
      omega
    · rw [Stock.current_decrBy_of_ne hkey]

/-- A successful execution takes its quantity off. -/
theorem current_runScript_of_ok {stock : Stock} {b p : String} {quantity : Int} {request : Option Nat}
    (hok : (runScript stock b p quantity request).1.status = 200) :
    (runScript stock b p quantity request).2.current (stockKey b p) =
      stock.current (stockKey b p) - quantity := by
  rcases runScript_cases stock b p quantity request with ⟨hstatus, -, -⟩ | ⟨-, hdecr, -⟩
  · rw [hok] at hstatus
    exact absurd hstatus (by decide)
  · rw [hdecr, Stock.current_decrBy_self]

theorem current_step_le (hq : ∀ r ∈ s.reserves, 1 ≤ r.quantity) (ha : a.Positive) (h : step s a = some s')
    (key : String) : s'.stock.current key ≤ s.stock.current key := by
  cases a with
  | arrive productId quantity =>
      cases h
      exact Int.le_refl _
  | move i m =>
      obtain ⟨r, r', -, -, rfl⟩ := step_move h
      exact Int.le_refl _
  -- Only the script writes to the branches, here and for a direct reservation, and it never adds.
  | execute i reported =>
      obtain ⟨r, br, b, p, hr, -, -, rfl⟩ := step_execute h
      have hpos := hq r (List.mem_of_getElem? hr)
      have hle : (runScript s.stock b p r.quantity (some i)).2.current key ≤ s.stock.current key :=
        current_runScript_le (by omega) key
      exact hle
  | update i reported =>
      obtain ⟨r, product, products, -, -, -, rfl⟩ := step_update h
      exact Int.le_refl _
  | direct b p quantity =>
      cases h
      have hpos : 1 ≤ quantity := ha
      have hle : (runScript s.stock b p quantity none).2.current key ≤ s.stock.current key :=
        current_runScript_le (by omega) key
      exact hle

/-- What is covered stays covered when the branch loses. -/
theorem Covered.of_le (hs : Covered id key s) (hproducts : s'.products.aggregate id = s.products.aggregate id)
    (hreserves : ∀ r ∈ s'.reserves, r.productId = id → ∀ n, r.leaves = some n → s'.stock.current key ≤ n)
    (hle : s'.stock.current key ≤ s.stock.current key) : Covered id key s' := by
  obtain ⟨n, hn, hcover⟩ := hs.row
  exact ⟨⟨n, hproducts.trans hn, Int.le_trans hle hcover⟩, hreserves⟩

/-! ## One step -/

/-- A move leaves no less than the row or the handler's value before. -/
theorem Moved.leaves {products : ProductTable} {r r' : Reserve} {n : Int} (h : Moved products r r')
    (hn : r'.leaves = some n) : products.aggregate r.productId = some n ∨ ∃ m, r.leaves = some m ∧ m ≤ n := by
  cases h with
  | ended status hstatus hopen => cases hn
  -- The value is read from the row.
  | loaded product hphase hrow hgate =>
      cases hn
      refine Or.inl ?_
      unfold ProductTable.aggregate
      rw [hrow]
      rfl
  -- The quantity does not come off before the answer is a `200`.
  | sent product hphase =>
      refine Or.inr ⟨product.aggregateStock, ?_, ?_⟩
      · unfold Reserve.leaves
        rw [hphase]
      · simp only [Reserve.leaves, reduceCtorEq, if_false, Option.some.injEq] at hn
        omega
  | denied br status hcall hstatus =>
      refine Or.inr ⟨n, ?_, Int.le_refl _⟩
      unfold Reserve.leaves at hn ⊢
      simpa [hcall, hstatus] using hn
  | reserved product hphase hcall =>
      refine Or.inr ⟨n, ?_, Int.le_refl _⟩
      unfold Reserve.leaves at hn ⊢
      simpa [hphase, hcall] using hn

theorem covered_move {i : Nat} {m : Move} (hs : Covered id key s) (h : step s (.move i m) = some s') :
    Covered id key s' := by
  obtain ⟨r, r', hr, hmoved, rfl⟩ := step_move h
  have hmem := List.mem_of_getElem? hr
  refine hs.of_le rfl ?_ (Int.le_refl _)
  refine Pool.forall_mem_set hs.leaves ?_
  intro hid n hn
  have hid' : r.productId = id := hmoved.fields.1.symm.trans hid
  rcases hmoved.leaves hn with hrow | ⟨m, hm, hle⟩
  · obtain ⟨n₀, hn₀, hcover⟩ := hs.row
    rw [hid', hn₀] at hrow
    exact Option.some.inj hrow ▸ hcover
  · exact Int.le_trans (hs.leaves r hmem hid' m hm) hle

/-- The answer of the warehouse takes the quantity off only when it is a `200`. -/
theorem leaves_of_replied {r : Reserve} {status : Status} {n : Int} (hpending : r.call ≠ .replied 200)
    (hn : ({ r with call := .replied status } : Reserve).leaves = some n) :
    r.leaves = some n ∨ (status = 200 ∧ r.leaves = some (n + r.quantity)) := by
  unfold Reserve.leaves at hn ⊢
  cases hphase : r.phase with
  | arrived =>
      simp only [hphase] at hn
      cases hn
  | answered st =>
      simp only [hphase] at hn
      cases hn
  | loaded product =>
      simp only [hphase] at hn ⊢
      exact Or.inl hn
  | reserved product =>
      simp only [hphase] at hn ⊢
      exact Or.inl hn
  | calling product =>
      simp only [hphase, if_neg hpending] at hn ⊢
      by_cases hok : status = 200
      · subst hok
        simp only [if_true, Option.some.injEq] at hn ⊢
        exact Or.inr ⟨trivial, by omega⟩
      · have hother : Call.replied status ≠ .replied 200 := fun hc => hok (Call.replied.inj hc)
        rw [if_neg hother] at hn
        exact Or.inl hn

/-- The script has run for a request: its value gives way by the quantity exactly when the branch does. -/
theorem covered_execute {i : Nat} {reported : Bool} (hback : Backed s)
    (hbranch : s.products.branch id = some branch)
    (hhome : LeadsHome branch id) (hq : ∀ r ∈ s.reserves, 1 ≤ r.quantity)
    (hs : Covered id (stockKey branch id) s) (h : step s (.execute i reported) = some s') :
    Covered id (stockKey branch id) s' := by
  have hpositive : (Action.execute i reported).Positive := trivial
  have hle := current_step_le hq hpositive h (stockKey branch id)
  obtain ⟨r, br, b, p, hr, hcall, hroute, rfl⟩ := step_execute h
  have hmem := List.mem_of_getElem? hr
  refine hs.of_le rfl ?_ hle
  refine Pool.forall_mem_set ?_ ?_
  -- The other handlers keep their values, and the branch has at most lost.
  · intro r' hr' hid n hn
    exact Int.le_trans hle (hs.leaves r' hr' hid n hn)
  · intro hid n hn
    have hid' : r.productId = id := hid
    -- The request is for this product, so it was sent to its branch.
    have hbr : br = branch := by
      have hflight := (hback i r hr).inFlight br hcall
      rw [hid', hbranch] at hflight
      exact (Option.some.inj hflight).symm
    subst hbr
    rw [hid'] at hroute
    have hkey : stockKey b p = stockKey br id := hhome b p hroute
    have hpending : r.call ≠ .replied 200 := by
      rw [hcall]
      exact nofun
    rcases leaves_of_replied hpending hn with hsame | ⟨hok, hmore⟩
    · exact Int.le_trans hle (hs.leaves r hmem hid' n hsame)
    -- The script took the quantity off the branch, under the key of this product.
    · have hbefore := hs.leaves r hmem hid' _ hmore
      have hexec : (runScript s.stock b p r.quantity (some i)).1.status = 200 := by
        cases reported with
        | false =>
            have hstatus : (500 : Nat) = 200 := hok
            exact absurd hstatus (by decide)
        | true => exact hok
      have hafter : (runScript s.stock b p r.quantity (some i)).2.current (stockKey b p)
          = s.stock.current (stockKey b p) - r.quantity := current_runScript_of_ok hexec
      rw [hkey] at hafter
      have hgoal : (runScript s.stock b p r.quantity (some i)).2.current (stockKey br id) ≤ n := by omega
      exact hgoal

theorem covered_update {i : Nat} {reported : Bool} (hs : Covered id key s)
    (h : step s (.update i reported) = some s') : Covered id key s' := by
  obtain ⟨r, product, products, hr, hphase, hupdate, rfl⟩ := step_update h
  have hmem := List.mem_of_getElem? hr
  have hothers : ∀ r' ∈ (s.updated i r products reported).reserves, r'.productId = id →
      ∀ n, r'.leaves = some n → s.stock.current key ≤ n := Pool.forall_mem_set hs.leaves nofun
  by_cases hid : r.productId = id
  · -- The handler writes the value that it was going to leave.
    refine ⟨⟨product.aggregateStock - r.quantity, ?_, ?_⟩, hothers⟩
    · obtain ⟨n, hn, -⟩ := hs.row
      rw [hid] at hupdate
      exact ProductTable.aggregate_update_self hupdate hn
    · refine hs.leaves r hmem hid _ ?_
      unfold Reserve.leaves
      rw [hphase]
  · refine hs.of_le ?_ hothers (Int.le_refl _)
    exact ProductTable.aggregate_update_of_ne hupdate (Ne.symm hid)

theorem covered_step (hback : Backed s) (hbranch : s.products.branch id = some branch)
    (hhome : LeadsHome branch id)
    (hq : ∀ r ∈ s.reserves, 1 ≤ r.quantity) (ha : a.Positive) (hs : Covered id (stockKey branch id) s)
    (h : step s a = some s') : Covered id (stockKey branch id) s' := by
  cases a with
  | arrive productId quantity =>
      cases h
      exact hs.of_le rfl (Pool.forall_mem_append_singleton hs.leaves nofun) (Int.le_refl _)
  | move i m => exact covered_move hs h
  | execute i reported => exact covered_execute hback hbranch hhome hq hs h
  | update i reported => exact covered_update hs h
  | direct b p quantity =>
      have hle := current_step_le hq ha h (stockKey branch id)
      cases h
      refine hs.of_le rfl ?_ hle
      intro r hr hid n hn
      exact Int.le_trans hle (hs.leaves r hr hid n hn)

/-! ## Every run -/

/-- What holds of every state of a run. -/
structure Sound (id branch : String) (s : State) : Prop where
  backed : Backed s
  home : s.products.branch id = some branch
  quantities : ∀ r ∈ s.reserves, 1 ≤ r.quantity
  covered : Covered id (stockKey branch id) s

theorem sound_step (hhome : LeadsHome branch id) (hs : Sound id branch s) (ha : a.Positive)
    (h : step s a = some s') : Sound id branch s' := by
  refine ⟨backed_step hs.backed h, (branch_step h id).trans hs.home, ?_,
    covered_step hs.backed hs.home hhome hs.quantities ha hs.covered h⟩
  refine reserves_quantity hs.quantities ?_ h
  rintro productId quantity rfl
  exact ha

theorem sound_start {products : ProductTable} {stock : Stock} {n : Int}
    (hbranch : products.branch id = some branch)
    (hrow : products.aggregate id = some n) (hle : stock.current (stockKey branch id) ≤ n) :
    Sound id branch (start products stock) := by
  refine ⟨backed_start products stock, hbranch, ?_, ⟨n, hrow, hle⟩, ?_⟩
  · intro r hr
    exact absurd hr List.not_mem_nil
  · intro r hr
    exact absurd hr List.not_mem_nil

theorem current_run_le {as : List Action} {t : State} (hq : ∀ r ∈ s.reserves, 1 ≤ r.quantity)
    (has : ∀ a ∈ as, a.Positive) (hrun : run step s as = some t) (key : String) :
    t.stock.current key ≤ s.stock.current key := by
  -- The bound needs the quantities of the pending requests, so both are carried along the run.
  have hinv := run_invariant_along (G := fun _ a => a.Positive)
    (I := fun u => (∀ r ∈ u.reserves, 1 ≤ r.quantity) ∧ u.stock.current key ≤ s.stock.current key)
    ?_ ⟨hq, Int.le_refl _⟩ (along_of_forall has) hrun
  · exact hinv.2
  · rintro u b u' ⟨hu, hle⟩ hb h
    constructor
    · refine reserves_quantity hu ?_ h
      rintro productId quantity rfl
      exact hb
    · exact Int.le_trans (current_step_le hu hb h key) hle

/-- A `409` of the check says that the row is short. -/
theorem lt_of_gate {products : ProductTable} {m quantity : Int} (hrow : products.aggregate id = some m)
    (hgate : gate (products.row id) quantity = .error 409) : m < quantity := by
  obtain ⟨p, hp, rfl⟩ := Option.map_eq_some_iff.mp hrow
  by_contra hle
  have hok : gate (products.row id) quantity = .ok p := gate_eq_ok_iff.mpr ⟨hp, by omega⟩
  rw [hok] at hgate
  cases hgate

/-- **The aggregate covers the primary branch** in every state of every run, and a quantity that the check in
    `reserve` refuses is one that the script refuses then and ever after. -/
theorem aggregate_covers_branch {products : ProductTable} {stock : Stock} {n : Int}
    {as : List Action} {t : State}
    (hhome : LeadsHome branch id) (hbranch : products.branch id = some branch)
    (hrow : products.aggregate id = some n) (hle : stock.current (stockKey branch id) ≤ n)
    (has : ∀ a ∈ as, a.Positive) (hrun : run step (start products stock) as = some t) :
    (∃ m, t.products.aggregate id = some m ∧ t.stock.current (stockKey branch id) ≤ m) ∧
      ∀ quantity, gate (t.products.row id) quantity = .error 409 →
        ∀ bs u, (∀ b ∈ bs, b.Positive) → run step t bs = some u →
          scriptStatus (reserveScript u.stock (stockKey branch id) quantity).1 = 409 := by
  have hsound : Sound id branch t := run_invariant_along (G := fun _ a => a.Positive)
    (fun _ _ _ hs ha h => sound_step hhome hs ha h) (sound_start hbranch hrow hle) (along_of_forall has) hrun
  refine ⟨hsound.covered.row, ?_⟩
  intro quantity hgate bs u hbs hrun'
  obtain ⟨m, hm, hcover⟩ := hsound.covered.row
  have hshort : m < quantity := lt_of_gate hm hgate
  have hlater := current_run_le hsound.quantities hbs hrun' (stockKey branch id)
  have hrefused : u.stock.current (stockKey branch id) < quantity := by omega
  rw [Warehouse.reserveScript_of_lt hrefused]
  rfl

/-! ## Names -/

theorem leadsHome_of_faithful (h : RouteFaithful branch id) : LeadsHome branch id := by
  intro b p hroute
  cases h (b, p) hroute
  rfl

/-- Two requests, of which the second writes a value from before the first one's reservation, and a
    reservation made directly. -/
def overtaken : List Action :=
  [.arrive "product-A" 1, .arrive "product-A" 2, .move 0 .load] ++ upToAnswer 1
    ++ [.direct "tokyo" "product-A" 3, .update 1 true, .move 0 .send, .execute 0 true,
        .move 0 .deliver, .update 0 false]

theorem overtaken_covered :
    ∃ t, run step (start sampleProducts Warehouse.sampleStock) overtaken = some t ∧
      t.products.aggregate "product-A" = some 9 ∧ t.stock.current (stockKey "tokyo" "product-A") = 4 ∧
      ((∃ m, t.products.aggregate "product-A" = some m ∧ t.stock.current (stockKey "tokyo" "product-A") ≤ m) ∧
        ∀ quantity, gate (t.products.row "product-A") quantity = .error 409 →
          ∀ bs u, (∀ b ∈ bs, b.Positive) → run step t bs = some u →
            scriptStatus (reserveScript u.stock (stockKey "tokyo" "product-A") quantity).1 = 409) := by
  have hobs : (run step (start sampleProducts Warehouse.sampleStock) overtaken).map
      (fun t => (t.products.aggregate "product-A", t.stock.current (stockKey "tokyo" "product-A")))
        = some (some 9, 4) := by decide +kernel
  obtain ⟨t, hrun, hvalues⟩ := Option.map_eq_some_iff.mp hobs
  have hhome : LeadsHome "tokyo" "product-A" := leadsHome_of_faithful
    (routeFaithful_of_plain (plainSegment_of_plainName (by decide)) (plainSegment_of_plainName (by decide)))
  refine ⟨t, hrun, congrArg Prod.fst hvalues, congrArg Prod.snd hvalues, ?_⟩
  refine aggregate_covers_branch hhome (by decide +kernel)
    (by decide +kernel : _ = some (10 : Int)) (by decide +kernel) ?_ hrun
  simp [overtaken, upToAnswer, Action.Positive]

/-- A product whose URL leads to the stock of another one. -/
def detouredProducts : ProductTable :=
  ProductTable.empty.insert ⟨"product%41", "Product %41", 10, "tokyo"⟩ (by decide) (by decide)

/-- Ten pieces of each of the two. -/
def detouredStock : Stock :=
  Function.update (Function.update (fun _ => none) (stockKey "tokyo" "product%41") (some 10))
    (stockKey "tokyo" "productA") (some 10)

/-- **A reservation that goes to another product's stock** leaves the aggregate short of the branch, and
    the check refuses a quantity that the script would not. -/
theorem detoured_uncovered :
    detouredProducts.branch "product%41" = some "tokyo" ∧ detouredProducts.aggregate "product%41" = some 10 ∧
      detouredStock.current (stockKey "tokyo" "product%41") = 10 ∧
      (run step (start detouredProducts detouredStock) ([.arrive "product%41" 3] ++
        upToAnswer 0 ++ [.update 0 true])).map
          (fun t => (t.products.aggregate "product%41", t.stock.current (stockKey "tokyo" "product%41"),
            decide (gate (t.products.row "product%41") 8 = .error 409),
            scriptStatus (reserveScript t.stock (stockKey "tokyo" "product%41") 8).1))
        = some (some 7, 10, true, 200) := by
  refine ⟨?_, ?_, ?_, ?_⟩
  · decide +kernel
  · decide +kernel
  · decide +kernel
  · decide +kernel

end Gekko.Inventory
