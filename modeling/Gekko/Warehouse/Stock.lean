import Mathlib.Logic.Function.Basic

/-!
# `Gekko.Warehouse.Stock` — the branch stock in Redis and the reservation script

Warehouse Service keeps one integer for each branch and product under the key `stock:{branch}:{product}`,
and `reserve_stock` changes it with one Lua script, which Redis runs atomically. The script answers `-1`
when the entry is smaller than the quantity and touches nothing; otherwise it lowers the entry by the
quantity and answers what is left.

Stock and quantities are integers here. The script's own arithmetic is Lua's, which is exact below `2 ^ 53`.
-/

namespace Gekko

/-- An HTTP status code. -/
abbrev Status := Nat

namespace Warehouse

/-- The Redis entries this service owns, by key. -/
abbrev Stock := String → Option Int

/-- `format!("stock:{branch}:{product_id}")`. -/
def stockKey (branch productId : String) : String := "stock:" ++ branch ++ ":" ++ productId

namespace Stock

/-- `tonumber(redis.call('GET', key) or '0')`. -/
def current (σ : Stock) (key : String) : Int := (σ key).getD 0

/-- `DECRBY key qty`: an absent entry counts as `0`. -/
def decrBy (σ : Stock) (key : String) (qty : Int) : Stock :=
  Function.update σ key (some (σ.current key - qty))

variable {σ : Stock} {key other : String} {qty : Int}

@[simp] theorem current_decrBy_self : (σ.decrBy key qty).current key = σ.current key - qty := by
  simp [current, decrBy]

theorem decrBy_of_ne (h : other ≠ key) : σ.decrBy key qty other = σ other := by
  unfold decrBy
  rw [Function.update_of_ne h]

theorem current_decrBy_of_ne (h : other ≠ key) : (σ.decrBy key qty).current other = σ.current other := by
  unfold current
  rw [decrBy_of_ne h]

end Stock

/-- Ten pieces of one product at one branch. -/
def sampleStock : Stock := Function.update (fun _ => none) (stockKey "tokyo" "product-A") (some 10)

/-- The reservation script: its answer and the entries it leaves. -/
def reserveScript (σ : Stock) (key : String) (qty : Int) : Int × Stock :=
  let current := σ.current key
  if current < qty then (-1, σ) else (current - qty, σ.decrBy key qty)

/-- The status that `reserve_stock` makes of the script's answer. -/
def scriptStatus (result : Int) : Status := if result < 0 then 409 else 200

/-! ## The execution log -/

/-- One execution of the reservation script, with the entry it found and the entry it left. `request`
    numbers the request that Inventory Service made it for, where the caller keeps such numbers. -/
structure Exec where
  branch : String
  productId : String
  quantity : Int
  before : Int
  after : Int
  status : Status
  request : Option Nat
  deriving DecidableEq, Repr

/-- The key an execution addressed. -/
def Exec.key (e : Exec) : String := stockKey e.branch e.productId

/-- Run the script for the given path parameters: the record of the execution and the stock it leaves. -/
def runScript (stock : Stock) (branch productId : String) (quantity : Int) (request : Option Nat) :
    Exec × Stock :=
  let key := stockKey branch productId
  let (result, stock') := reserveScript stock key quantity
  ({ branch, productId, quantity, before := stock.current key, after := stock'.current key,
     status := scriptStatus result, request }, stock')

/-! ## What one execution does -/

variable {σ : Stock} {key : String} {qty : Int}

theorem reserveScript_of_lt (h : σ.current key < qty) : reserveScript σ key qty = (-1, σ) := by
  unfold reserveScript
  exact if_pos h

theorem reserveScript_of_le (h : qty ≤ σ.current key) :
    reserveScript σ key qty = (σ.current key - qty, σ.decrBy key qty) := by
  unfold reserveScript
  exact if_neg (by omega)

/-- The script is answered `200` exactly when the entry covers the quantity. -/
theorem scriptStatus_eq_ok_iff :
    scriptStatus (reserveScript σ key qty).1 = 200 ↔ qty ≤ σ.current key := by
  by_cases h : σ.current key < qty
  · rw [reserveScript_of_lt h]
    exact iff_of_false (show scriptStatus (-1) ≠ 200 by decide) (by omega)
  · rw [reserveScript_of_le (by omega), scriptStatus, if_neg (by omega)]
    exact iff_of_true rfl (by omega)

/-- **A refused execution changes nothing, a successful one lowers the addressed entry by the quantity.** -/
theorem reserveScript_cases (σ : Stock) (key : String) (qty : Int) :
    (scriptStatus (reserveScript σ key qty).1 = 409 ∧ (reserveScript σ key qty).2 = σ
        ∧ σ.current key < qty) ∨
    (scriptStatus (reserveScript σ key qty).1 = 200 ∧ (reserveScript σ key qty).2 = σ.decrBy key qty
        ∧ qty ≤ σ.current key) := by
  by_cases h : σ.current key < qty
  · rw [reserveScript_of_lt h]
    exact Or.inl ⟨rfl, rfl, h⟩
  · have hle : qty ≤ σ.current key := by omega
    have hok := scriptStatus_eq_ok_iff.mpr hle
    rw [reserveScript_of_le hle] at hok ⊢
    exact Or.inr ⟨hok, rfl, hle⟩

/-- The same for the logged form of an execution. -/
theorem runScript_cases (stock : Stock) (branch productId : String) (quantity : Int) (request : Option Nat) :
    ((runScript stock branch productId quantity request).1.status = 409 ∧
      (runScript stock branch productId quantity request).2 = stock ∧
      stock.current (stockKey branch productId) < quantity) ∨
    ((runScript stock branch productId quantity request).1.status = 200 ∧
      (runScript stock branch productId quantity request).2
        = stock.decrBy (stockKey branch productId) quantity ∧
      quantity ≤ stock.current (stockKey branch productId)) :=
  reserveScript_cases stock (stockKey branch productId) quantity

end Warehouse

end Gekko
