import Gekko.Lib.Machine
import Gekko.Inventory.Reservations

/-!
# `Gekko.Inventory.Aggregate` — what concurrent reservations leave in `aggregate_stock`

`reserve` reads the row, calls Warehouse Service, and then writes `aggregateStock - quantity` from the value
it read. A handler whose row was overwritten in between writes over the other handler's decrement. This
module says exactly what that costs: with quantities of at least 1, `aggregate_stock` is its initial value
minus the quantities of the requests answered `200` if and only if no `UPDATE` of the run met a row other
than the one its handler had loaded.

The argument compares two numbers with `base`, the initial value minus what has been answered `200`: the
value in the row, and the value each handler holds. A write makes the held value the new row value and lowers
`base`, so it moves every other held value further above `base`. While all writes are fresh the row stays at
`base`; the first stale write finds its held value strictly above, and from then on nothing can come back.
-/

namespace Gekko.Inventory

open Machine
open Warehouse (sampleStock)

/-- What a request contributes to the stock handed out for a product. -/
def Reserve.taken (id : String) (r : Reserve) : Int :=
  if r.productId = id ∧ r.phase = .answered 200 then r.quantity else 0

/-- The sum of the quantities of the requests for a product that were answered `200`. -/
def State.taken (s : State) (id : String) : Int := (s.reserves.map (Reserve.taken id)).sum

/-- The values of `aggregate_stock` that handlers hold for a product. -/
def State.Holds (s : State) (id : String) (n : Int) : Prop :=
  ∃ r ∈ s.reserves, r.productId = id ∧ ∃ p, r.phase.product? = some p ∧ p.aggregateStock = n

/-- The runs considered: quantities are at least 1, and a handler whose `UPDATE` was applied hears of it.
    Every other failure is allowed. -/
def Action.Orderly : Action → Prop
  | .arrive _ quantity => 1 ≤ quantity
  | .update _ reported => reported = true
  | _ => True

/-- An `UPDATE` for the product finds in the row the value that its handler loaded. -/
def FreshWrite (id : String) (s : State) : Action → Prop
  | .update i _ => ∀ r p, s.reserves[i]? = some r → r.productId = id → r.phase = .reserved p →
      s.products.aggregate id = some p.aggregateStock
  | _ => True

/-! ## What one step does to a product -/

/-- The step wrote nothing to the product's row and handed out nothing of it. -/
structure Quiet (id : String) (s s' : State) : Prop where
  aggregate : s'.products.aggregate id = s.products.aggregate id
  taken : s'.taken id = s.taken id
  holds : ∀ n, s'.Holds id n → s.Holds id n ∨ s.products.aggregate id = some n

/-- The step wrote `n - quantity` to the product's row, from a held value `n`, and handed out `quantity`. -/
structure Written (id : String) (s s' : State) (n quantity : Int) : Prop where
  held : s.Holds id n
  aggregate : s'.products.aggregate id = some (n - quantity)
  taken : s'.taken id = s.taken id + quantity
  holds : ∀ m, s'.Holds id m → s.Holds id m

variable {id : String} {s s' : State}

theorem taken_of_ne {r : Reserve} (h : r.phase ≠ .answered 200) : r.taken id = 0 := by
  unfold Reserve.taken
  exact if_neg fun hc => h hc.2

/-- A move answers nothing with `200`. -/
theorem Moved.taken_eq {products : ProductTable} {r r' : Reserve} (h : Moved products r r') :
    r'.taken id = r.taken id := by
  have hzero : ∀ q : Reserve, q.phase ≠ .answered 200 → r.phase ≠ .answered 200 → q.taken id = r.taken id :=
    fun q hq hr => (taken_of_ne hq).trans (taken_of_ne hr).symm
  cases h with
  | ended status hstatus hopen =>
      refine hzero _ (fun hc => ?_) (hopen 200)
      rw [Phase.answered.inj hc] at hstatus
      exact absurd hstatus (by decide)
  | loaded product hphase _ _ => exact hzero _ nofun (hphase ▸ nofun)
  | sent product hphase => exact hzero _ nofun (hphase ▸ nofun)
  | denied branch status _ _ => rfl
  | reserved product hphase _ => exact hzero _ nofun (hphase ▸ nofun)

/-- A replaced request adds to the held values only what the new one holds. -/
theorem holds_of_set {i : Nat} {r r' : Reserve} {n : Int} (hset : s'.reserves = s.reserves.set i r')
    (hid : r'.productId = r.productId) (h : s'.Holds id n) :
    s.Holds id n ∨ (r.productId = id ∧ ∃ p, r'.phase.product? = some p ∧ p.aggregateStock = n) := by
  obtain ⟨z, hz, hzid, p, hp, hn⟩ := h
  rw [hset] at hz
  rcases List.mem_or_eq_of_mem_set hz with hz | rfl
  · exact Or.inl ⟨z, hz, hzid, p, hp, hn⟩
  · exact Or.inr ⟨hid.symm.trans hzid, p, hp, hn⟩

theorem quiet_move {i : Nat} {m : Move} (h : step s (.move i m) = some s') : Quiet id s s' := by
  obtain ⟨r, r', hr, hmoved, rfl⟩ := step_move h
  refine ⟨rfl, ?_, fun n hn => ?_⟩
  · unfold State.taken
    rw [Pool.sum_map_set _ hr, hmoved.taken_eq]
    omega
  · rcases holds_of_set rfl hmoved.fields.1 hn with hn | ⟨hid, p, hp, hn⟩
    · exact Or.inl hn
    · rcases hmoved.product? hp with hheld | hrow
      · exact Or.inl ⟨r, List.mem_of_getElem? hr, hid, p, hheld, hn⟩
      · refine Or.inr ?_
        rw [ProductTable.aggregate, ← hid, hrow, ← hn]
        rfl

theorem quiet_arrive {productId : String} {quantity : Int}
    (h : step s (.arrive productId quantity) = some s') : Quiet id s s' := by
  cases h
  refine ⟨rfl, ?_, fun n hn => ?_⟩
  · unfold State.taken
    rw [Pool.sum_map_append_singleton, taken_of_ne (r := ⟨productId, quantity, .arrived, .unsent⟩) nofun]
    omega
  · obtain ⟨z, hz, hzid, p, hp, hn⟩ := hn
    rcases List.mem_append.mp hz with hz | hz
    · exact Or.inl ⟨z, hz, hzid, p, hp, hn⟩
    · rw [List.mem_singleton.mp hz] at hp
      cases hp

theorem quiet_execute {i : Nat} {reported : Bool} (h : step s (.execute i reported) = some s') :
    Quiet id s s' := by
  obtain ⟨r, branch, b, p, hr, _, _, rfl⟩ := step_execute h
  refine ⟨rfl, ?_, fun n hn => ?_⟩
  · unfold State.taken State.executed
    rw [Pool.sum_map_set _ hr]
    -- The call changes, the phase does not.
    exact (congrArg _ (sub_self _)).trans (add_zero _)
  · rcases holds_of_set rfl rfl hn with hn | ⟨hid, q, hq, hn⟩
    · exact Or.inl hn
    · exact Or.inl ⟨r, List.mem_of_getElem? hr, hid, q, hq, hn⟩

theorem quiet_direct {branch productId : String} {quantity : Int}
    (h : step s (.direct branch productId quantity) = some s') : Quiet id s s' := by
  cases h
  exact ⟨rfl, rfl, fun n hn => Or.inl hn⟩

/-- **Step lemma.** An orderly step either leaves a product alone or is an `UPDATE` of it. -/
theorem quiet_or_written {a : Action} {n₀ : Int} (hrow : s.products.aggregate id = some n₀) (ha : a.Orderly)
    (h : step s a = some s') :
    (Quiet id s s' ∧ FreshWrite id s a) ∨
    ∃ r ∈ s.reserves, ∃ n, Written id s s' n r.quantity ∧
      (FreshWrite id s a ↔ s.products.aggregate id = some n) := by
  cases a with
  | arrive productId quantity => exact Or.inl ⟨quiet_arrive h, trivial⟩
  | move i m => exact Or.inl ⟨quiet_move h, trivial⟩
  | execute i reported => exact Or.inl ⟨quiet_execute h, trivial⟩
  | direct branch productId quantity => exact Or.inl ⟨quiet_direct h, trivial⟩
  | update i reported =>
      obtain ⟨r, product, products, hr, hphase, hupdate, rfl⟩ := step_update h
      cases (show reported = true from ha)
      -- The request counts as answered only from this step on.
      have hopen : r.phase ≠ .answered 200 := hphase ▸ nofun
      have hholds : ∀ n, (s.updated i r products true).Holds id n → s.Holds id n := by
        intro n hn
        rcases holds_of_set rfl rfl hn with hn | ⟨_, p, hp, _⟩
        · exact hn
        · cases hp
      have htaken : (s.updated i r products true).taken id
          = s.taken id + (if r.productId = id then r.quantity else 0) := by
        unfold State.taken State.updated
        rw [Pool.sum_map_set _ hr, taken_of_ne hopen]
        simp [Reserve.taken]
      by_cases hid : r.productId = id
      · refine Or.inr ⟨r, List.mem_of_getElem? hr, product.aggregateStock, ⟨?_, ?_, ?_, hholds⟩, ?_⟩
        · exact ⟨r, List.mem_of_getElem? hr, hid, product, by rw [hphase]; rfl, rfl⟩
        · rw [← hid] at hrow ⊢
          exact ProductTable.aggregate_update_self hupdate hrow
        · rw [htaken, if_pos hid]
        · constructor
          · intro hfresh
            exact hfresh r product hr hid hphase
          · intro hagg r' p hr' _ hp
            rw [hr] at hr'
            cases hr'
            rw [hphase] at hp
            cases hp
            exact hagg
      · refine Or.inl ⟨⟨?_, ?_, fun n hn => Or.inl (hholds n hn)⟩, ?_⟩
        · exact ProductTable.aggregate_update_of_ne hupdate (Ne.symm hid)
        · rw [htaken, if_neg hid, add_zero]
        · intro r' p hr' hid'
          rw [hr] at hr'
          cases hr'
          exact absurd hid' hid

/-! ## Before and after the first stale write -/

/-- The initial value minus what has been handed out. -/
def base (id : String) (initial : Int) (s : State) : Int := initial - s.taken id

/-- All writes so far were fresh: the row is at `base`, and no handler holds less. -/
structure InStep (id : String) (initial : Int) (s : State) : Prop where
  quantities : ∀ r ∈ s.reserves, 1 ≤ r.quantity
  row : s.products.aggregate id = some (base id initial s)
  holds : ∀ n, s.Holds id n → base id initial s ≤ n

/-- A decrement has been lost: the row, and whatever a handler holds, is above `base`. -/
structure Drifted (id : String) (initial : Int) (s : State) : Prop where
  quantities : ∀ r ∈ s.reserves, 1 ≤ r.quantity
  row : ∃ n, s.products.aggregate id = some n ∧ base id initial s < n
  holds : ∀ n, s.Holds id n → base id initial s < n

variable {initial : Int} {a : Action}

theorem quantities_step (hq : ∀ r ∈ s.reserves, 1 ≤ r.quantity) (ha : a.Orderly)
    (h : step s a = some s') : ∀ r ∈ s'.reserves, 1 ≤ r.quantity := by
  refine reserves_quantity hq ?_ h
  rintro productId quantity rfl
  exact ha

/-- What holds of the row and of the held values holds of the values held after a quiet step. -/
theorem Quiet.forall_holds {P : Int → Prop} {n₀ : Int} (hquiet : Quiet id s s')
    (hrow : s.products.aggregate id = some n₀) (h₀ : P n₀) (hP : ∀ n, s.Holds id n → P n) :
    ∀ n, s'.Holds id n → P n := by
  intro n hn
  rcases hquiet.holds n hn with hn | hn
  · exact hP n hn
  · rw [hrow] at hn
    exact Option.some.inj hn ▸ h₀

theorem base_of_quiet (hquiet : Quiet id s s') : base id initial s' = base id initial s := by
  unfold base
  rw [hquiet.taken]

theorem base_of_written {n quantity : Int} (hwritten : Written id s s' n quantity) :
    base id initial s' = base id initial s - quantity := by
  unfold base
  rw [hwritten.taken]
  omega

theorem inStep_step (hs : InStep id initial s) (ha : a.Orderly) (hfresh : FreshWrite id s a)
    (h : step s a = some s') : InStep id initial s' := by
  have hq := quantities_step hs.quantities ha h
  rcases quiet_or_written hs.row ha h with ⟨hquiet, -⟩ | ⟨r, hr, n, hwritten, hiff⟩
  · constructor
    · exact hq
    · rw [hquiet.aggregate, base_of_quiet hquiet]
      exact hs.row
    · rw [base_of_quiet hquiet]
      exact hquiet.forall_holds hs.row (Int.le_refl _) hs.holds
  · -- The row still had the held value, so that value is `base`.
    have hn : base id initial s = n := Option.some.inj (hs.row.symm.trans (hiff.mp hfresh))
    have hpos := hs.quantities r hr
    refine ⟨hq, ?_, fun m hm => ?_⟩
    · rw [hwritten.aggregate, base_of_written hwritten, hn]
    · have hle := hs.holds m (hwritten.holds m hm)
      rw [base_of_written hwritten]
      omega

theorem drifted_of_stale (hs : InStep id initial s) (ha : a.Orderly) (hstale : ¬ FreshWrite id s a)
    (h : step s a = some s') : Drifted id initial s' := by
  have hq := quantities_step hs.quantities ha h
  rcases quiet_or_written hs.row ha h with ⟨-, hfresh⟩ | ⟨r, hr, n, hwritten, hiff⟩
  · exact absurd hfresh hstale
  -- A stale value is above the row, never below it.
  · have hle := hs.holds n hwritten.held
    have hne : base id initial s ≠ n := fun he => hstale (hiff.mpr (he ▸ hs.row))
    have hpos := hs.quantities r hr
    refine ⟨hq, ⟨_, hwritten.aggregate, ?_⟩, fun m hm => ?_⟩
    · rw [base_of_written hwritten]
      omega
    · have hle' := hs.holds m (hwritten.holds m hm)
      rw [base_of_written hwritten]
      omega

theorem drifted_step (hs : Drifted id initial s) (ha : a.Orderly) (h : step s a = some s') :
    Drifted id initial s' := by
  have hq := quantities_step hs.quantities ha h
  obtain ⟨n₀, hrow, hlt⟩ := hs.row
  rcases quiet_or_written hrow ha h with ⟨hquiet, -⟩ | ⟨r, hr, n, hwritten, -⟩
  · constructor
    · exact hq
    · rw [base_of_quiet hquiet]
      exact ⟨n₀, hquiet.aggregate.trans hrow, hlt⟩
    · rw [base_of_quiet hquiet]
      exact hquiet.forall_holds hrow hlt hs.holds
  -- Fresh or not, what is written comes from a value above `base`, and both go down by the same amount.
  · have hlt' := hs.holds n hwritten.held
    have hpos := hs.quantities r hr
    refine ⟨hq, ⟨_, hwritten.aggregate, ?_⟩, fun m hm => ?_⟩
    · rw [base_of_written hwritten]
      omega
    · have hltm := hs.holds m (hwritten.holds m hm)
      rw [base_of_written hwritten]
      omega

theorem inStep_start {products : ProductTable} {stock : Warehouse.Stock}
    (hrow : products.aggregate id = some initial) : InStep id initial (start products stock) := by
  refine ⟨fun r hr => absurd hr List.not_mem_nil, ?_, fun n hn => ?_⟩
  · rw [show base id initial (start products stock) = initial from sub_zero _]
    exact hrow
  · obtain ⟨r, hr, -⟩ := hn
    exact absurd hr List.not_mem_nil

/-- **`aggregate_stock` is exact if and only if every write was fresh.** In every orderly run, and in every
    state it reaches, the row of a product holds its initial value minus the quantities of the requests
    answered `200` exactly when each `UPDATE` of the product found the value its handler had loaded. -/
theorem aggregate_exact_iff_fresh {products : ProductTable} {stock : Warehouse.Stock} {as : List Action}
    {t : State} (hrow : products.aggregate id = some initial) (has : ∀ a ∈ as, a.Orderly)
    (hrun : run step (start products stock) as = some t) :
    t.products.aggregate id = some (initial - t.taken id) ↔
      Along step (FreshWrite id) (start products stock) as := by
  have hsplit := run_split (I := InStep id initial) (J := Drifted id initial)
    (A := fun _ a => a.Orderly) (G := FreshWrite id)
    (fun _ _ _ hs ha hfresh h => inStep_step hs ha hfresh h)
    (fun _ _ _ hs ha hstale h => drifted_of_stale hs ha hstale h)
    (fun _ _ _ hs ha h => drifted_step hs ha h)
    (inStep_start hrow) (along_of_forall has) hrun
  rcases hsplit with ⟨hfresh, ht⟩ | ⟨hstale, ht⟩
  · exact iff_of_true ht.row hfresh
  · obtain ⟨n, hn, hlt⟩ := ht.row
    refine iff_of_false (fun hexact => ?_) hstale
    rw [hn] at hexact
    exact absurd hlt (Int.not_lt.mpr (Int.le_of_eq (Option.some.inj hexact)))

/-! ## Two requests for one product -/

/-- Two requests for one piece each, where the second loads the row before the first writes it. -/
def overlapping : List Action :=
  [.arrive "product-A" 1, .arrive "product-A" 1] ++ upToAnswer 0 ++ upToAnswer 1
    ++ [.update 0 true, .update 1 true]

/-- The same two requests, one after the other. -/
def oneByOne : List Action :=
  [.arrive "product-A" 1] ++ upToAnswer 0 ++ [.update 0 true, .arrive "product-A" 1] ++ upToAnswer 1
    ++ [.update 1 true]

/-- A decrement is lost: both requests take one of the ten and are answered `200`, and nine remain. -/
theorem overlapping_loses_decrement :
    sampleProducts.aggregate "product-A" = some 10 ∧
    (run step (start sampleProducts sampleStock) overlapping).map
        (fun t => (t.reserves.map (·.phase), t.taken "product-A", t.products.aggregate "product-A"))
      = some ([.answered 200, .answered 200], 2, some 9) := by
  decide +kernel

theorem oneByOne_exact :
    ∃ t, run step (start sampleProducts sampleStock) oneByOne = some t ∧ t.taken "product-A" = 2 ∧
      (t.products.aggregate "product-A" = some (10 - t.taken "product-A") ↔
        Along step (FreshWrite "product-A") (start sampleProducts sampleStock) oneByOne) := by
  have hobs : (run step (start sampleProducts sampleStock) oneByOne).map (·.taken "product-A") = some 2 := by
    decide +kernel
  obtain ⟨t, hrun, htaken⟩ := Option.map_eq_some_iff.mp hobs
  refine ⟨t, hrun, htaken, aggregate_exact_iff_fresh (by decide +kernel) ?_ hrun⟩
  simp [oneByOne, upToAnswer, Action.Orderly]

end Gekko.Inventory
