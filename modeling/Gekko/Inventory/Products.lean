import Mathlib.Logic.Function.Basic
import Gekko.Warehouse.Stock

/-!
# `Gekko.Inventory.Products` — the product table of Inventory Service

The `products` table of `db/init.sql` with the two statements that the service runs on it: the `SELECT` of
`loadProduct` and the `UPDATE` of `aggregate_stock`. A `ProductTable` carries what the schema enforces, so
the stock of a row always fits the column, and the assumption that ids are compared as strings (`ExactIds`).
-/

namespace Gekko.Inventory

/-- A row of `products`, as `loadProduct` scans it. -/
structure Product where
  id : String
  name : String
  aggregateStock : Int
  primaryBranch : String
  deriving DecidableEq, Repr

/-- The range of a MySQL `INT` column. -/
def IntColumn (n : Int) : Prop := -2147483648 ≤ n ∧ n ≤ 2147483647

instance (n : Int) : Decidable (IntColumn n) := inferInstanceAs (Decidable (_ ∧ _))

/-- A row is found under its own id and no other. This is an assumption on the collation of the column:
    MySQL's default one takes upper and lower case for the same. -/
abbrev ExactIds (row : String → Option Product) : Prop :=
  ∀ {id : String} {p : Product}, row id = some p → p.id = id

/-- The `products` table: a row under each id, with the column types of `db/init.sql`. -/
structure ProductTable where
  row : String → Option Product
  keyed : ExactIds row
  idFits : ∀ {id : String} {p : Product}, row id = some p → id.length ≤ 64
  stockFits : ∀ {id : String} {p : Product}, row id = some p → IntColumn p.aggregateStock

namespace ProductTable

/-- The empty table. -/
def empty : ProductTable where
  row := fun _ => none
  keyed := fun h => nomatch h
  idFits := fun h => nomatch h
  stockFits := fun h => nomatch h

/-- `INSERT INTO products` of one row. -/
def insert (t : ProductTable) (p : Product) (hid : p.id.length ≤ 64) (hstock : IntColumn p.aggregateStock) :
    ProductTable where
  row := fun id => if id = p.id then some p else t.row id
  keyed := by
    intro id q h
    simp only at h
    split at h
    · rename_i hid
      cases h
      exact hid.symm
    · exact t.keyed h
  idFits := by
    intro id q h
    split at h
    · rename_i heq
      rw [heq]
      exact hid
    · exact t.idFits h
  stockFits := by
    intro id q h
    split at h
    · cases h
      exact hstock
    · exact t.stockFits h

/-- `UPDATE products SET aggregate_stock = n WHERE id = id`, for an `n` that the column admits. -/
def setAggregate (t : ProductTable) (id : String) (n : Int) (hn : IntColumn n) : ProductTable where
  row := fun k => if k = id then (t.row id).map fun p => { p with aggregateStock := n } else t.row k
  keyed := by
    intro k q h
    simp only at h
    split at h
    · rename_i hk
      obtain ⟨p, hp, rfl⟩ := Option.map_eq_some_iff.mp h
      exact (t.keyed hp).trans hk.symm
    · exact t.keyed h
  idFits := by
    intro k q h
    split at h
    · rename_i hk
      obtain ⟨p, hp, -⟩ := Option.map_eq_some_iff.mp h
      rw [hk]
      exact t.idFits hp
    · exact t.idFits h
  stockFits := by
    intro k q h
    split at h
    · obtain ⟨p, -, rfl⟩ := Option.map_eq_some_iff.mp h
      exact hn
    · exact t.stockFits h

/-- The `UPDATE` as the driver sees it: an error when the value is out of the column's range. -/
def update (t : ProductTable) (id : String) (n : Int) : Option ProductTable :=
  if h : IntColumn n then some (t.setAggregate id n h) else none

/-- The value of `aggregate_stock` in the row of `id`. -/
def aggregate (t : ProductTable) (id : String) : Option Int := (t.row id).map (·.aggregateStock)

/-- The primary branch in the row of `id`. -/
def branch (t : ProductTable) (id : String) : Option String := (t.row id).map (·.primaryBranch)

variable {t t' : ProductTable} {id k : String} {n : Int} {p : Product}

theorem update_eq_some (h : t.update id n = some t') :
    t'.row = fun k => if k = id then (t.row id).map fun p => { p with aggregateStock := n } else t.row k := by
  unfold update at h
  split at h
  · cases h
    rfl
  · cases h

theorem row_update_of_ne (h : t.update id n = some t') (hk : k ≠ id) : t'.row k = t.row k := by
  rw [update_eq_some h]
  exact if_neg hk

theorem row_update_self (h : t.update id n = some t') :
    t'.row id = (t.row id).map fun p => { p with aggregateStock := n } := by
  rw [update_eq_some h]
  exact if_pos rfl

theorem aggregate_update_of_ne (h : t.update id n = some t') (hk : k ≠ id) :
    t'.aggregate k = t.aggregate k := by
  unfold aggregate
  rw [row_update_of_ne h hk]

theorem aggregate_update_self {a : Int} (h : t.update id n = some t') (ha : t.aggregate id = some a) :
    t'.aggregate id = some n := by
  obtain ⟨p, hp, -⟩ := Option.map_eq_some_iff.mp ha
  unfold aggregate
  rw [row_update_self h, hp]
  rfl

theorem exists_update (t : ProductTable) (id : String) (hn : IntColumn n) :
    ∃ t', t.update id n = some t' := by
  unfold update
  rw [dif_pos hn]
  exact ⟨_, rfl⟩

/-- The update leaves every product at its branch. -/
theorem branch_update (h : t.update id n = some t') (k : String) : t'.branch k = t.branch k := by
  unfold branch
  by_cases hk : k = id
  · rw [hk, row_update_self h, Option.map_map]
    rfl
  · rw [row_update_of_ne h hk]

end ProductTable

/-- One product with an aggregate stock of 10. -/
def sampleProducts : ProductTable :=
  ProductTable.empty.insert ⟨"product-A", "Product A", 10, "tokyo"⟩ (by decide) (by decide)

/-- The status with which `reserve` ends before it calls anything, if it does: `404` without a row,
    `409` when the aggregate does not cover the quantity. -/
def gate (row : Option Product) (quantity : Int) : Except Status Product :=
  match row with
  | none => .error 404
  | some product => if product.aggregateStock < quantity then .error 409 else .ok product

/-- What `reserveAtWarehouse` makes of the status it gets: reserved, not reserved, or an error. -/
def warehouseVerdict (status : Status) : Option Bool :=
  if status = 200 then some true
  else if status = 409 ∨ status = 403 then some false
  else none

theorem gate_eq_ok_iff {row : Option Product} {quantity : Int} {product : Product} :
    gate row quantity = .ok product ↔ row = some product ∧ quantity ≤ product.aggregateStock := by
  cases row with
  | none => simp [gate]
  | some p =>
      unfold gate
      simp only
      split
      · rename_i hlt
        simp only [reduceCtorEq, Option.some.injEq, false_iff]
        rintro ⟨rfl, hle⟩
        omega
      · rename_i hle
        simp only [Except.ok.injEq, Option.some.injEq]
        exact ⟨fun h => ⟨h, by rw [← h]; omega⟩, fun h => h.1⟩

theorem gate_error {row : Option Product} {quantity : Int} {status : Status}
    (h : gate row quantity = .error status) : 400 ≤ status := by
  cases row with
  | none =>
      cases h
      decide
  | some p =>
      unfold gate at h
      simp only at h
      split at h
      · cases h
        decide
      · cases h

theorem warehouseVerdict_eq_true_iff {status : Status} :
    warehouseVerdict status = some true ↔ status = 200 := by
  unfold warehouseVerdict
  split
  · rename_i h
    simp [h]
  · rename_i h
    split <;> simp [h]

theorem warehouseVerdict_eq_false_iff {status : Status} :
    warehouseVerdict status = some false ↔ status = 409 ∨ status = 403 := by
  unfold warehouseVerdict
  split
  · rename_i h
    simp [h]
  · split
    · rename_i h
      simp [h]
    · rename_i h
      simp [h]

end Gekko.Inventory
