import Gekko.Warehouse.Branches


/-! # `Gekko.Warehouse.Script` — one reservation after another

What `reserve_stock` does for a caller who is let in: it runs the script, and turns the integer that the
script returns into an answer. A negative one stands for a refusal, any other one for what is left.

`executions_exact` is about any sequence of executions, with any quantities: the refusal is never taken
for what is left, nor the other way round, and the answer, the entry before and the entry afterwards go
together.
-/

namespace Gekko.Warehouse

open Serving

/-- The parameters of an execution. -/
structure Execution where
  branch : String
  productId : String
  quantity : Int
  deriving DecidableEq, Repr

def Execution.key (e : Execution) : String := stockKey e.branch e.productId

/-- The script, and the answer to its result. -/
def execute (σ : Stock) (e : Execution) : Response × Stock :=
  let (result, σ') := reserveScript σ e.key e.quantity
  if result < 0 then (refuse 409, σ') else (⟨200, .stock e.branch e.productId result⟩, σ')

/-- **The handler, past its gate.** -/
theorem reserveStock_of_authorized {σ : Stock} {caller : Caller} {e : Execution}
    (h : authorizeBranch caller.exchanged caller.lookup caller.claims e.branch = .ok ()) :
    reserveStock σ caller e.branch e.productId e.quantity ⟨true, true⟩ = execute σ e := by
  unfold reserveStock execute
  rw [h]
  rfl

/-- No entry is negative. -/
def Stock.Nonneg (σ : Stock) : Prop := ∀ key n, σ key = some n → 0 ≤ n

section Execute

variable {σ : Stock} {e : Execution}

theorem execute_of_lt (h : σ.current e.key < e.quantity) : execute σ e = (refuse 409, σ) := by
  unfold execute
  rw [reserveScript_of_lt h]
  rfl

/-- What is left is no negative number, so it is not taken for a refusal. -/
theorem execute_of_le (h : e.quantity ≤ σ.current e.key) :
    execute σ e = (⟨200, .stock e.branch e.productId (σ.current e.key - e.quantity)⟩,
                    σ.decrBy e.key e.quantity) := by
  unfold execute
  rw [reserveScript_of_le h]
  have hleft : ¬ σ.current e.key - e.quantity < 0 := by omega
  simp only [if_neg hleft]

theorem decrBy_self (key : String) (qty : Int) : σ.decrBy key qty key = some (σ.current key - qty) := by
  unfold Stock.decrBy
  rw [Function.update_self]

/-- **One execution keeps the entries non-negative.** -/
theorem nonneg_execute (hσ : σ.Nonneg) : (execute σ e).2.Nonneg := by
  by_cases h : σ.current e.key < e.quantity
  · rw [execute_of_lt h]
    exact hσ
  · have hle : e.quantity ≤ σ.current e.key := Int.not_lt.mp h
    rw [execute_of_le hle]
    intro key n hn
    have hentry : σ.decrBy e.key e.quantity key = some n := hn
    by_cases hkey : key = e.key
    · subst hkey
      rw [decrBy_self, Option.some.injEq] at hentry
      omega
    · rw [Stock.decrBy_of_ne hkey] at hentry
      exact hσ key n hentry

theorem nonneg_serveAll (hσ : σ.Nonneg) (es : List Execution) : (serveAll execute σ es).2.Nonneg := by
  induction es generalizing σ with
  | nil => exact hσ
  | cons e es ih =>
      rw [serveAll_cons]
      exact ih (nonneg_execute hσ)

/-- The answer, the entry before and the entry afterwards. -/
structure Exact (σ : Stock) (e : Execution) : Prop where
  conflict : (execute σ e).1.status = 409 ↔ σ.current e.key < e.quantity
  unchanged : (execute σ e).1.status = 409 → (execute σ e).2 = σ
  /-- The quantity in the answer is what is now stored, and the entry has been lowered by the quantity. -/
  lowered : (execute σ e).1.status ≠ 409 → ∃ left,
    (execute σ e).1 = ⟨200, .stock e.branch e.productId left⟩ ∧ (execute σ e).2 e.key = some left ∧
      left = σ.current e.key - e.quantity
  others : ∀ key, key ≠ e.key → (execute σ e).2 key = σ key

theorem exact_execute (σ : Stock) (e : Execution) : Exact σ e := by
  by_cases h : σ.current e.key < e.quantity
  · have hexecute := execute_of_lt h
    constructor
    · exact iff_of_true (by rw [hexecute]; rfl) h
    · intro _
      rw [hexecute]
    · intro hne
      rw [hexecute] at hne
      exact absurd rfl hne
    · intro key _
      rw [hexecute]
  · have hexecute := execute_of_le (Int.not_lt.mp h)
    have hok : (execute σ e).1.status ≠ 409 := by
      rw [hexecute]
      show (200 : Status) ≠ 409
      decide
    constructor
    · exact iff_of_false hok h
    · intro hconflict
      exact absurd hconflict hok
    · intro _
      refine ⟨σ.current e.key - e.quantity, ?_, ?_, rfl⟩
      · rw [hexecute]
      · rw [hexecute]
        exact decrBy_self _ _
    · intro key hkey
      rw [hexecute]
      exact Stock.decrBy_of_ne hkey

/-- **Any sequence of executions**: no entry is ever negative, and the next execution is exact, whatever
it is. -/
theorem executions_exact (hσ : σ.Nonneg) (es : List Execution) :
    (serveAll execute σ es).2.Nonneg ∧ ∀ e, Exact (serveAll execute σ es).2 e :=
  ⟨nonneg_serveAll hσ es, fun e => exact_execute _ e⟩

end Execute

theorem sampleStock_nonneg : sampleStock.Nonneg := by
  intro key n hn
  unfold sampleStock at hn
  by_cases hkey : key = stockKey "tokyo" "product-A"
  · subst hkey
    rw [Function.update_self] at hn
    cases hn
    decide
  · rw [Function.update_of_ne hkey] at hn
    cases hn

/-- All is taken, nothing, something that is not there, and something is brought. -/
def fourExecutions : List Execution :=
  [⟨"tokyo", "product-A", 10⟩, ⟨"tokyo", "product-A", 0⟩, ⟨"osaka", "product-B", 1⟩,
   ⟨"tokyo", "product-A", -3⟩]

theorem fourExecutions_exact :
    (serveAll execute sampleStock fourExecutions).1.map (·.status) = [200, 200, 409, 200] ∧
      (serveAll execute sampleStock fourExecutions).2.Nonneg ∧
      Exact (serveAll execute sampleStock fourExecutions).2 ⟨"tokyo", "product-A", 4⟩ := by
  obtain ⟨hnonneg, hexact⟩ := executions_exact sampleStock_nonneg fourExecutions
  exact ⟨by decide +kernel, hnonneg, hexact _⟩

end Gekko.Warehouse
