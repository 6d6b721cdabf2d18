import Gekko.Lib.Machine
import Gekko.Inventory.Reservations

/-!
# `Gekko.Inventory.Backing` — every `200` has its own successful execution

In every state of every run, a reserve request that was answered `200`, or is on its way there, has an
execution of the reservation script that was made for it, succeeded, and took its quantity from the stock that
its URL leads to. `Backed` is the invariant; it follows each request through its phases, from the branch that
was read from the row, through the call that carries that branch, to the reply.

The second half follows one request forward: a request keeps its product and quantity, and an answer, once
given, stays.
-/

namespace Gekko.Inventory

open Machine
open Warehouse (Stock Exec stockKey runScript runScript_cases)

/-- The execution was made for request `k`, succeeded, and took the quantity where the URL for this branch
    and product leads. -/
structure Backs (e : Exec) (k : Nat) (branch productId : String) (quantity : Int) : Prop where
  request : e.request = some k
  status : e.status = 200
  quantity : e.quantity = quantity
  route : warehouseRoute branch productId = some (e.branch, e.productId)

/-- What is known of a request: the branch it works for is the product's, and it has its execution once
    Warehouse Service has said `200`. -/
structure ReserveOk (products : ProductTable) (execs : List Exec) (k : Nat) (r : Reserve) : Prop where
  held : ∀ p, r.phase.product? = some p → products.branch r.productId = some p.primaryBranch
  inFlight : ∀ branch, r.call = .inFlight branch → products.branch r.productId = some branch
  backed : (r.call = .replied 200 ∨ (∃ p, r.phase = .reserved p) ∨ r.phase = .answered 200) →
    ∃ branch, products.branch r.productId = some branch ∧ ∃ e ∈ execs, Backs e k branch r.productId r.quantity

/-- The invariant of the run. -/
def Backed (s : State) : Prop := ∀ k r, s.reserves[k]? = some r → ReserveOk s.products s.execs k r

variable {products products' : ProductTable} {execs execs' : List Exec} {k : Nat} {r r' : Reserve}

/-- The products keep their branches and the log only grows, so what is known stays known. -/
theorem ReserveOk.mono (h : ReserveOk products execs k r)
    (hbranch : ∀ id, products'.branch id = products.branch id) (hlog : ∀ e ∈ execs, e ∈ execs') :
    ReserveOk products' execs' k r where
  held := by
    intro p hp
    rw [hbranch]
    exact h.held p hp
  inFlight := by
    intro branch hcall
    rw [hbranch]
    exact h.inFlight branch hcall
  backed := by
    intro hreached
    obtain ⟨branch, hb, e, he, hbacks⟩ := h.backed hreached
    exact ⟨branch, by rw [hbranch, hb], e, hlog e he, hbacks⟩

/-- A move keeps what is known. -/
theorem ReserveOk.moved (h : ReserveOk products execs k r) (hmoved : Moved products r r') :
    ReserveOk products execs k r' := by
  cases hmoved with
  | ended status hstatus hopen =>
      -- A handler that ends does so with an error, and loses the product it held.
      refine ⟨nofun, h.inFlight, ?_⟩
      rintro (hcall | ⟨p, hp⟩ | hphase)
      · exact h.backed (Or.inl hcall)
      · cases hp
      · cases hphase
        exact absurd hstatus (by decide)
  | loaded product hphase hrow hgate =>
      refine ⟨?_, h.inFlight, ?_⟩
      · intro p hp
        cases hp
        unfold ProductTable.branch
        rw [hrow]
        rfl
      · rintro (hcall | ⟨p, hp⟩ | hphase)
        · exact h.backed (Or.inl hcall)
        · cases hp
        · cases hphase
  | sent product hphase =>
      have hheld := h.held product (by rw [hphase]; rfl)
      refine ⟨?_, ?_, ?_⟩
      · intro p hp
        cases hp
        exact hheld
      · intro branch hcall
        cases hcall
        exact hheld
      · rintro (hcall | ⟨p, hp⟩ | hphase)
        · cases hcall
        · cases hp
        · cases hphase
  | denied branch status hcall hstatus =>
      refine ⟨h.held, nofun, ?_⟩
      rintro (hcall | hphase)
      · cases hcall
        exact absurd rfl hstatus
      · exact h.backed (Or.inr hphase)
  | reserved product hphase hcall =>
      refine ⟨?_, h.inFlight, ?_⟩
      · intro p hp
        cases hp
        exact h.held product (by rw [hphase]; rfl)
      · intro _
        exact h.backed (Or.inl hcall)

/-- A request that is left alone keeps what is known of it. -/
theorem Backed.mono {s s' : State} (h : Backed s)
    (hbranch : ∀ id, s'.products.branch id = s.products.branch id)
    (hlog : ∀ e ∈ s.execs, e ∈ s'.execs) (hr : s.reserves[k]? = some r) :
    ReserveOk s'.products s'.execs k r :=
  (h k r hr).mono hbranch hlog

/-- **Step lemma.** -/
theorem backed_step {s s' : State} {a : Action} (hs : Backed s) (h : step s a = some s') : Backed s' := by
  cases a with
  | arrive productId quantity =>
      cases h
      intro k r hr
      rcases Pool.getElem?_append_cases hr with ⟨-, rfl⟩ | hr
      · refine ⟨nofun, nofun, ?_⟩
        rintro (hcall | ⟨p, hp⟩ | hphase)
        · cases hcall
        · cases hp
        · cases hphase
      · exact hs k r hr
  | move i m =>
      obtain ⟨r₀, r₁, hr₀, hmoved, rfl⟩ := step_move h
      intro k r hr
      rcases Pool.getElem?_set_cases hr with ⟨rfl, rfl⟩ | ⟨-, hr⟩
      · exact (hs k r₀ hr₀).moved hmoved
      · exact hs k r hr
  | execute i reported =>
      obtain ⟨r₀, branch, b, p, hr₀, hcall, hroute, rfl⟩ := step_execute h
      intro k r hr
      rcases Pool.getElem?_set_cases hr with ⟨rfl, rfl⟩ | ⟨-, hr⟩
      · have hlog : ∀ e ∈ s.execs, e ∈ (s.executed k r₀ b p reported).execs :=
          fun e he => List.mem_append_left _ he
        have hmono := (hs k r₀ hr₀).mono (fun _ => rfl) hlog
        refine ⟨hmono.held, nofun, ?_⟩
        rintro (hreplied | hphase)
        · -- The reply is a `200`, so it reports this execution.
          refine ⟨branch, (hs k r₀ hr₀).inFlight branch hcall,
            (runScript s.stock b p r₀.quantity (some k)).1, List.mem_append_right _ List.mem_cons_self, ?_⟩
          cases reported with
          | false =>
              have hstatus : (500 : Nat) = 200 := Call.replied.inj hreplied
              exact absurd hstatus (by decide)
          | true => exact ⟨rfl, Call.replied.inj hreplied, rfl, hroute⟩
        · exact hmono.backed (Or.inr hphase)
      · exact hs.mono (fun _ => rfl) (fun e he => List.mem_append_left _ he) hr
  | update i reported =>
      obtain ⟨r₀, product, products, hr₀, hphase, hupdate, rfl⟩ := step_update h
      have hbranch := ProductTable.branch_update hupdate
      intro k r hr
      rcases Pool.getElem?_set_cases hr with ⟨rfl, rfl⟩ | ⟨-, hr⟩
      -- The `UPDATE` is made by a handler that got past the call, so its `200` was backed before.
      · have hmono := (hs k r₀ hr₀).mono hbranch fun _ he => he
        refine ⟨nofun, hmono.inFlight, ?_⟩
        intro _
        exact hmono.backed (Or.inr (Or.inl ⟨product, hphase⟩))
      · exact hs.mono hbranch (fun _ he => he) hr
  | direct branch productId quantity =>
      cases h
      intro k r hr
      exact hs.mono (fun _ => rfl) (fun e he => List.mem_append_left _ he) hr

theorem backed_start (products : ProductTable) (stock : Stock) : Backed (start products stock) := by
  intro k r hr
  cases hr

/-! ## One request, step after step -/

/-- A request keeps its product and quantity, and an answer that has been given. -/
structure Continues (r r' : Reserve) : Prop where
  productId : r'.productId = r.productId
  quantity : r'.quantity = r.quantity
  answered : ∀ status, r.phase = .answered status → r'.phase = .answered status

theorem Continues.refl (r : Reserve) : Continues r r := ⟨rfl, rfl, fun _ h => h⟩

/-- A handler that has not answered yet has no answer to keep. -/
theorem continues_of_open (hproductId : r'.productId = r.productId) (hquantity : r'.quantity = r.quantity)
    (hopen : ∀ st, r.phase ≠ .answered st) : Continues r r' :=
  ⟨hproductId, hquantity, fun status hanswered => absurd hanswered (hopen status)⟩

theorem continues_of_moved (h : Moved products r r') : Continues r r' := by
  cases h with
  | ended st hst hopen => exact continues_of_open rfl rfl hopen
  | loaded product hphase _ _ => exact continues_of_open rfl rfl (Reserve.open_of_phase hphase nofun)
  | sent product hphase => exact continues_of_open rfl rfl (Reserve.open_of_phase hphase nofun)
  | denied branch st _ _ => exact ⟨rfl, rfl, fun _ h => h⟩
  | reserved product hphase _ => exact continues_of_open rfl rfl (Reserve.open_of_phase hphase nofun)

/-- **Requests are never lost or exchanged.** -/
theorem continues_step {s s' : State} {a : Action} (h : step s a = some s') (hr : s.reserves[k]? = some r) :
    ∃ r', s'.reserves[k]? = some r' ∧ Continues r r' := by
  cases a with
  | arrive productId quantity =>
      cases h
      exact ⟨r, Pool.getElem?_append_of_some hr, Continues.refl r⟩
  | move i m =>
      obtain ⟨r₀, r₁, hr₀, hmoved, rfl⟩ := step_move h
      exact Pool.exists_getElem?_set Continues.refl hr hr₀ (continues_of_moved hmoved)
  | execute i reported =>
      obtain ⟨r₀, branch, b, p, hr₀, hcall, hroute, rfl⟩ := step_execute h
      exact Pool.exists_getElem?_set Continues.refl hr hr₀ ⟨rfl, rfl, fun _ h => h⟩
  | update i reported =>
      obtain ⟨r₀, product, products, hr₀, hphase, hupdate, rfl⟩ := step_update h
      exact Pool.exists_getElem?_set Continues.refl hr hr₀
        (continues_of_open rfl rfl (Reserve.open_of_phase hphase nofun))
  | direct branch productId quantity =>
      cases h
      exact ⟨r, hr, Continues.refl r⟩

/-- The products stay at their branches. -/
theorem branch_step {s s' : State} {a : Action} (h : step s a = some s') (id : String) :
    s'.products.branch id = s.products.branch id := by
  cases a with
  | arrive productId quantity =>
      cases h
      rfl
  | move i m =>
      obtain ⟨r₀, r₁, _, _, rfl⟩ := step_move h
      rfl
  | execute i reported =>
      obtain ⟨r₀, branch, b, p, _, _, _, rfl⟩ := step_execute h
      rfl
  | update i reported =>
      obtain ⟨r₀, product, products, _, _, hupdate, rfl⟩ := step_update h
      exact ProductTable.branch_update hupdate id
  | direct branch productId quantity =>
      cases h
      rfl

/-! ## Answers -/

/-- The handler answers `200` or an error. -/
def Settled (s : State) : Prop := ∀ r ∈ s.reserves, ∀ status, r.phase = .answered status →
  status = 200 ∨ 400 ≤ status

theorem settled_step {s s' : State} {a : Action} (hs : Settled s) (h : step s a = some s') : Settled s' := by
  cases a with
  | arrive productId quantity =>
      cases h
      exact Pool.forall_mem_append_singleton hs nofun
  | move i m =>
      obtain ⟨r₀, r₁, hr₀, hmoved, rfl⟩ := step_move h
      refine Pool.forall_mem_set hs fun status hanswered => ?_
      cases hmoved with
      | ended st hst _ =>
          cases hanswered
          exact Or.inr hst
      | loaded product _ _ _ => cases hanswered
      | sent product _ => cases hanswered
      | denied branch st _ _ => exact hs r₀ (List.mem_of_getElem? hr₀) status hanswered
      | reserved product _ _ => cases hanswered
  | execute i reported =>
      obtain ⟨r₀, branch, b, p, hr₀, _, _, rfl⟩ := step_execute h
      exact Pool.forall_mem_set hs (hs r₀ (List.mem_of_getElem? hr₀))
  | update i reported =>
      obtain ⟨r₀, product, products, hr₀, _, _, rfl⟩ := step_update h
      refine Pool.forall_mem_set hs fun status hanswered => ?_
      cases hanswered
      cases reported with
      | false => exact Or.inr (by decide)
      | true => exact Or.inl rfl
  | direct branch productId quantity =>
      cases h
      exact hs

/-- A successful execution has lowered its entry by its quantity. -/
def Lowered (s : State) : Prop := ∀ e ∈ s.execs, e.status = 200 → e.after = e.before - e.quantity

theorem lowered_runScript (stock : Stock) (branch productId : String) (quantity : Int) (request : Option Nat)
    (h : (runScript stock branch productId quantity request).1.status = 200) :
    (runScript stock branch productId quantity request).1.after
      = (runScript stock branch productId quantity request).1.before - quantity := by
  rcases runScript_cases stock branch productId quantity request with ⟨hstatus, -⟩ | ⟨-, hstock, -⟩
  · rw [h] at hstatus
    exact absurd hstatus (by decide)
  · show (runScript stock branch productId quantity request).2.current (stockKey branch productId)
      = stock.current (stockKey branch productId) - quantity
    rw [hstock, Stock.current_decrBy_self]

theorem lowered_step {s s' : State} {a : Action} (hs : Lowered s) (h : step s a = some s') : Lowered s' := by
  cases a with
  | arrive productId quantity =>
      cases h
      exact hs
  | move i m =>
      obtain ⟨r₀, r₁, _, _, rfl⟩ := step_move h
      exact hs
  | execute i reported =>
      obtain ⟨r₀, branch, b, p, _, _, _, rfl⟩ := step_execute h
      exact Pool.forall_mem_append_singleton hs (lowered_runScript s.stock b p r₀.quantity (some i))
  | update i reported =>
      obtain ⟨r₀, product, products, _, _, _, rfl⟩ := step_update h
      exact hs
  | direct branch productId quantity =>
      cases h
      exact Pool.forall_mem_append_singleton hs (lowered_runScript s.stock branch productId quantity none)

end Gekko.Inventory
