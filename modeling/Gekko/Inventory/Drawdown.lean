import Gekko.Lib.Ledger
import Gekko.Inventory.Reservations

/-!
# `Gekko.Inventory.Drawdown` — the branch stock is a ledger

Seen from outside, all that the concurrent handlers do to the stock in Redis is draw on it: a successful
execution of the script is a draw of its quantity on its key, and every other step is nothing. `State.ledger`
is the ledger that a state stands for, and `ledger_step` the refinement. What a ledger guarantees then holds
of every run, under any interleaving.
-/

namespace Gekko.Inventory

open Machine
open Warehouse (Stock Exec stockKey runScript runScript_cases)

/-- What an execution drew on `key`. -/
def drawnBy (key : String) (e : Exec) : Int := if e.status = 200 ∧ e.key = key then e.quantity else 0

/-- The total that successful executions drew on `key`. -/
def State.drawn (s : State) (key : String) : Int := (s.execs.map (drawnBy key)).sum

/-- The ledger that a state stands for. -/
def State.ledger (s : State) : Ledger.State String := ⟨s.stock.current, s.drawn⟩

variable {s s' : State}

theorem current_decrBy (stock : Stock) (key : String) (quantity : Int) :
    (stock.decrBy key quantity).current
      = Function.update stock.current key (stock.current key - quantity) := by
  funext other
  by_cases h : other = key
  · subst h
    rw [Stock.current_decrBy_self, Function.update_self]
  · rw [Stock.current_decrBy_of_ne h, Function.update_of_ne h]

theorem drawn_append (execs : List Exec) (e : Exec) :
    (fun key => ((execs ++ [e]).map (drawnBy key)).sum)
      = fun key => (execs.map (drawnBy key)).sum + drawnBy key e := by
  funext key
  exact Pool.sum_map_append_singleton (drawnBy key)

/-- An execution of the script is a draw or nothing. -/
theorem ledger_runScript {branch productId : String} {quantity : Int} {request : Option Nat}
    (hstock : s'.stock = (runScript s.stock branch productId quantity request).2)
    (hexecs : s'.execs = s.execs ++ [(runScript s.stock branch productId quantity request).1]) :
    s'.ledger = s.ledger ∨
      Ledger.step s.ledger ⟨stockKey branch productId, quantity⟩ = some s'.ledger := by
  have hdrawn : s'.drawn = fun key => s.drawn key
      + drawnBy key (runScript s.stock branch productId quantity request).1 := by
    unfold State.drawn
    rw [hexecs]
    exact drawn_append s.execs _
  unfold State.ledger
  rw [hstock, hdrawn]
  rcases runScript_cases s.stock branch productId quantity request with
    ⟨hstatus, hsame, -⟩ | ⟨hstatus, hdecr, hle⟩
  · refine Or.inl ?_
    have hzero : ∀ key, drawnBy key (runScript s.stock branch productId quantity request).1 = 0 := by
      intro key
      unfold drawnBy
      rw [if_neg]
      rintro ⟨hok, -⟩
      rw [hstatus] at hok
      exact absurd hok (by decide)
    rw [hsame]
    simp only [hzero, Int.add_zero]
  · refine Or.inr ?_
    unfold Ledger.step
    rw [if_pos hle, hdecr, current_decrBy]
    refine congrArg some (congrArg (Ledger.State.mk _) ?_)
    funext key
    by_cases hkey : key = stockKey branch productId
    · subst hkey
      rw [Function.update_self, drawnBy, if_pos ⟨hstatus, rfl⟩]
      rfl
    · rw [Function.update_of_ne hkey, drawnBy, if_neg, Int.add_zero]
      rintro ⟨-, heq⟩
      exact hkey heq.symm

/-- **Refinement, one step.** -/
theorem ledger_step {a : Action} (h : step s a = some s') :
    s'.ledger = s.ledger ∨ ∃ d, Ledger.step s.ledger d = some s'.ledger := by
  cases a with
  | arrive productId quantity =>
      cases h
      exact Or.inl rfl
  | move i m =>
      obtain ⟨r, r', -, -, rfl⟩ := step_move h
      exact Or.inl rfl
  | execute i reported =>
      obtain ⟨r, branch, b, p, -, -, -, rfl⟩ := step_execute h
      exact (ledger_runScript rfl rfl).imp id fun hdraw => ⟨_, hdraw⟩
  | update i reported =>
      obtain ⟨r, product, products, -, -, -, rfl⟩ := step_update h
      exact Or.inl rfl
  | direct branch productId quantity =>
      cases h
      exact (ledger_runScript rfl rfl).imp id fun hdraw => ⟨_, hdraw⟩

/-- The same as a run of the ledger. -/
theorem ledger_run_step {a : Action} (h : step s a = some s') :
    ∃ ds, run Ledger.step s.ledger ds = some s'.ledger := by
  rcases ledger_step h with heq | ⟨d, hd⟩
  · exact ⟨[], congrArg some heq.symm⟩
  · exact ⟨[d], run_cons_eq_some.mpr ⟨s'.ledger, hd, rfl⟩⟩

end Gekko.Inventory
