import Mathlib.Data.List.Nodup
import Gekko.Ordering.Concurrent

/-!
# `Gekko.Ordering.Confirmed` — every `CONFIRMED` order has its own successful execution

A row says `CONFIRMED` because its handler took the answer of Inventory Service for a success. This module
follows that back, over any interleaving and any losses: the answer was a `200` to the one reserve request
that the handler's call had become, and that request has its execution by `Gekko.Inventory.Backing`. The
invariant `Linked` holds the chain together: which call became which reserve request, that no two calls became
the same one, and that no handler inserts two rows.

The chain breaks where the product id does not lead to the product: a router can redirect the request, and the
URL to Warehouse Service can lead to another product's stock. `Addressed` says that it does not.
-/

namespace Gekko.Ordering

open Machine
open Inventory (ProductTable inventoryRoute inventoryRoute_eq RouteFaithful Backs Settled Lowered)
open Warehouse (Stock Exec stockKey)

/-- The product id reaches `reserve` at Inventory Service, and no stock but its own at Warehouse Service. -/
structure Addressed (products : ProductTable) (request : OrderCreateRequest) : Prop where
  routed : inventoryRoute request.pathId ≠ none
  faithful : ∀ branch, products.branch request.pathId = some branch → RouteFaithful branch request.pathId

/-- The requests posted are addressed. -/
def Action.Addressed (products : ProductTable) : Action → Prop
  | .post request => Ordering.Addressed products request
  | _ => True

/-- The execution is the one an order stands for: it succeeded at the primary branch of the order's product,
    and lowered the stock there by the order's quantity. -/
structure Matches (products : ProductTable) (order : Order) (e : Exec) : Prop where
  branch : products.branch order.productId = some e.branch
  productId : e.productId = order.productId
  status : e.status = 200
  quantity : e.quantity = order.quantity.toInt
  lowered : e.after = e.before - order.quantity.toInt

/-- The orders stored as `CONFIRMED`, by their places in `rows`. -/
def State.ConfirmedRow (s : State) : Type :=
  {n : Fin s.rows.length // (s.rows.get n).2.status = .confirmed}

/-- Each `CONFIRMED` order is matched with an execution, and no two with the same. -/
def State.Backed (products : ProductTable) (s : State) : Prop :=
  ∃ f : s.ConfirmedRow → Fin s.inventory.execs.length, Function.Injective f ∧
    ∀ n, Matches products (s.rows.get n.1).2 (s.inventory.execs.get (f n))

/-! ## From a handler to its reserve request -/

/-- Reserve request `k` is what the call of `p` became. -/
structure Calls (u : Inventory.State) (p : Post) (k : Nat) (r : Inventory.Reserve) : Prop where
  call : p.call = .arrived k
  request : u.reserves[k]? = some r
  productId : r.productId = p.request.pathId
  quantity : r.quantity = p.request.quantity.toInt

/-- The call of `p` was answered `200`. -/
def Reserved (u : Inventory.State) (p : Post) : Prop :=
  ∃ k r, Calls u p k r ∧ r.phase = .answered 200

/-- What is known of a handler. -/
structure PostOk (u : Inventory.State) (p : Post) : Prop where
  calls : ∀ k, p.call = .arrived k → ∃ r, Calls u p k r
  reserved : p.phase = .decided true → inventoryRoute p.request.pathId ≠ none → Reserved u p

/-- What is known of a row and the handler that inserted it. -/
structure RowOk (u : Inventory.State) (p : Post) (order : Order) : Prop where
  ended : ∃ status, p.phase = .answered status
  row : row p.request order.status = some order
  reserved : order.status = .confirmed → inventoryRoute p.request.pathId ≠ none → Reserved u p

/-- The invariant of the run. -/
structure Linked (s : State) : Prop where
  posts : ∀ p ∈ s.posts, PostOk s.inventory p
  distinct : ∀ {i j : Nat} {p q : Post} {k : Nat}, s.posts[i]? = some p → s.posts[j]? = some q →
    p.call = .arrived k → q.call = .arrived k → i = j
  rows : ∀ x ∈ s.rows, ∃ p, s.posts[x.1]? = some p ∧ RowOk s.inventory p x.2
  nodup : (s.rows.map Prod.fst).Nodup

/-- A handler keeps its request, an answer it has given, and the reserve request its call became. -/
structure Continues (p p' : Post) : Prop where
  request : p'.request = p.request
  call : ∀ k, p.call = .arrived k → p'.call = .arrived k
  answered : ∀ status, p.phase = .answered status → p'.phase = .answered status

theorem Continues.refl (p : Post) : Continues p p := ⟨rfl, fun _ h => h, fun _ h => h⟩

/-- A handler that has not answered yet has no answer to keep. -/
theorem continues_of_open {p p' : Post} (hrequest : p'.request = p.request)
    (hcall : ∀ k, p.call = .arrived k → p'.call = .arrived k) (hopen : ∀ st, p.phase ≠ .answered st) :
    Continues p p' :=
  ⟨hrequest, hcall, fun st hst => absurd hst (hopen st)⟩

theorem continues_of_moved {p p' : Post} (h : Moved p p') : Continues p p' := by
  cases h with
  | ended status hopen => exact continues_of_open rfl (fun _ h => h) hopen
  | sent hphase hcall =>
      refine continues_of_open rfl (fun k hk => ?_) (Post.open_of_phase hphase nofun)
      rw [hcall] at hk
      cases hk
  | strayed reserved hphase hroute =>
      exact continues_of_open rfl (fun _ h => h) (Post.open_of_phase hphase nofun)

theorem continues_resume {p : Post} (hphase : p.phase = .calling) (status : Status) :
    Continues p (p.resume status) := by
  -- It was waiting, so it had not answered.
  have hopen : ∀ st, p.phase ≠ .answered st := Post.open_of_phase hphase nofun
  rcases resume_cases p status with ⟨reserved, -, hresume⟩ | hresume
  · rw [hresume]
    exact continues_of_open rfl (fun _ h => h) hopen
  · rw [hresume]
    exact continues_of_open rfl (fun _ h => h) hopen

variable {s s' : State} {u u' : Inventory.State} {p p' : Post} {a : Action}

/-- **No handler is lost or exchanged.** -/
theorem posts_continue {j : Nat} (h : step s a = some s') (hp : s.posts[j]? = some p) :
    ∃ p', s'.posts[j]? = some p' ∧ Continues p p' := by
  cases a with
  | post request =>
      cases h
      exact ⟨p, Pool.getElem?_append_of_some hp, Continues.refl p⟩
  | move i m =>
      obtain ⟨q, q', hq, hmoved, rfl⟩ := step_move h
      exact Pool.exists_getElem?_set Continues.refl hp hq (continues_of_moved hmoved)
  | arrive i =>
      obtain ⟨q, id, hq, hcall, -, rfl⟩ := step_arrive h
      refine Pool.exists_getElem?_set Continues.refl hp hq ⟨rfl, fun k hk => ?_, fun _ h => h⟩
      rw [hcall] at hk
      cases hk
  | deliver i =>
      obtain ⟨q, k, r, status, hq, hphase, -, -, -, rfl⟩ := step_deliver h
      exact Pool.exists_getElem?_set Continues.refl hp hq (continues_resume hphase status)
  | save i reported =>
      obtain ⟨q, reserved, order, hq, hphase, -, rfl⟩ := step_save h
      exact Pool.exists_getElem?_set Continues.refl hp hq
        (continues_of_open rfl (fun _ h => h) (Post.open_of_phase hphase nofun))
  | inventory b =>
      obtain ⟨inventory, -, rfl⟩ := step_inventory h
      exact ⟨p, hp, Continues.refl p⟩

/-- The reserve requests of `u` are still there in `u'`. -/
def Follows (u u' : Inventory.State) : Prop :=
  ∀ (k : Nat) (r : Inventory.Reserve), u.reserves[k]? = some r →
    ∃ r', u'.reserves[k]? = some r' ∧ Inventory.Continues r r'

theorem follows_step (h : step s a = some s') : Follows s.inventory s'.inventory := by
  intro k r hr
  rcases inventory_step h with heq | ⟨b, hb⟩
  · rw [heq]
    exact ⟨r, hr, Inventory.Continues.refl r⟩
  · exact Inventory.continues_step hb hr

theorem Calls.follows {k : Nat} {r : Inventory.Reserve} (h : Calls u p k r) (hu : Follows u u')
    (hp : Continues p p') : ∃ r', Calls u' p' k r' ∧ Inventory.Continues r r' := by
  obtain ⟨r', hr', hcont⟩ := hu k r h.request
  refine ⟨r', ⟨hp.call k h.call, hr', ?_, ?_⟩, hcont⟩
  · rw [hcont.productId, h.productId, hp.request]
  · rw [hcont.quantity, h.quantity, hp.request]

theorem Reserved.follows (h : Reserved u p) (hu : Follows u u') (hp : Continues p p') : Reserved u' p' := by
  obtain ⟨k, r, hcalls, hphase⟩ := h
  obtain ⟨r', hcalls', hcont⟩ := hcalls.follows hu hp
  exact ⟨k, r', hcalls', hcont.answered 200 hphase⟩

/-- What is known of a row survives every step. -/
theorem RowOk.follows {order : Order} (h : RowOk u p order) (hu : Follows u u') (hp : Continues p p') :
    RowOk u' p' order := by
  obtain ⟨status, hstatus⟩ := h.ended
  refine ⟨⟨status, hp.answered status hstatus⟩, ?_, fun hconfirmed hroute => ?_⟩
  · rw [hp.request]
    exact h.row
  · rw [hp.request] at hroute
    exact (h.reserved hconfirmed hroute).follows hu hp

/-- What is known of a handler that is left alone survives every step. -/
theorem PostOk.follows (h : PostOk u p) (hu : Follows u u') : PostOk u' p := by
  refine ⟨fun k hk => ?_, fun hphase hroute => (h.reserved hphase hroute).follows hu (Continues.refl p)⟩
  obtain ⟨r, hcalls⟩ := h.calls k hk
  obtain ⟨r', hcalls', -⟩ := hcalls.follows hu (Continues.refl p)
  exact ⟨r', hcalls'⟩

/-! ## The invariant -/

/-- A handler that ends, or that has decided against the order, need not have anything reserved. -/
theorem PostOk.of_phase (h : PostOk u p) {phase : Phase} (hphase : phase ≠ .decided true) :
    PostOk u { p with phase := phase } := by
  refine ⟨fun k hk => ?_, fun hp => absurd hp hphase⟩
  obtain ⟨r, hcalls⟩ := h.calls k hk
  exact ⟨r, hcalls.call, hcalls.request, hcalls.productId, hcalls.quantity⟩

theorem postOk_moved (h : PostOk u p) (hmoved : Moved p p') : PostOk u p' := by
  cases hmoved with
  | ended status hopen => exact h.of_phase nofun
  | sent hphase hcall => exact ⟨nofun, nofun⟩
  | strayed reserved hphase hroute =>
      refine ⟨fun k hk => ?_, fun _ hroute' => absurd hroute hroute'⟩
      obtain ⟨r, hcalls⟩ := h.calls k hk
      exact ⟨r, hcalls.call, hcalls.request, hcalls.productId, hcalls.quantity⟩

/-- The answer that makes a handler decide for the order is a `200`. -/
theorem postOk_resume {k : Nat} {r : Inventory.Reserve} {status : Status} (h : PostOk u p)
    (hsettled : Settled u) (hcall : p.call = .arrived k) (hr : u.reserves[k]? = some r)
    (hstatus : r.phase = .answered status) : PostOk u (p.resume status) := by
  rcases resume_cases p status with ⟨reserved, hverdict, hresume⟩ | hresume
  · rw [hresume]
    obtain ⟨r', hcalls⟩ := h.calls k hcall
    refine ⟨fun j hj => ?_, fun hdecided _ => ?_⟩
    · obtain ⟨q, hq⟩ := h.calls j hj
      exact ⟨q, hq.call, hq.request, hq.productId, hq.quantity⟩
    -- The answer comes from the request that this handler has sent.
    · have hr' : r' = r := by
        have hsame := hcalls.request.symm.trans hr
        exact Option.some.inj hsame
      subst hr'
      have hok : status = 200 := by
        rcases hsettled r' (List.mem_of_getElem? hr) status hstatus with hok | herr
        · exact hok
        · cases hdecided
          -- From 400 on, no status makes the verdict positive.
          unfold inventoryVerdict at hverdict
          rw [if_neg (Nat.not_lt.mpr herr)] at hverdict
          split at hverdict
          · cases hverdict
          · cases hverdict
      refine ⟨k, r', ⟨hcall, hr, hcalls.productId, hcalls.quantity⟩, ?_⟩
      rw [hstatus, hok]
  · rw [hresume]
    exact h.of_phase nofun

theorem postOk_step (hs : Linked s) (hsettled : Settled s.inventory) (h : step s a = some s') :
    ∀ p ∈ s'.posts, PostOk s'.inventory p := by
  have hfollows := follows_step h
  have hold : ∀ p ∈ s.posts, PostOk s'.inventory p := fun p hp => (hs.posts p hp).follows hfollows
  cases a with
  | post request =>
      cases h
      exact Pool.forall_mem_append_singleton hold ⟨nofun, nofun⟩
  | move i m =>
      obtain ⟨q, q', hq, hmoved, rfl⟩ := step_move h
      exact Pool.forall_mem_set hold (postOk_moved (hs.posts q (List.mem_of_getElem? hq)) hmoved)
  | arrive i =>
      obtain ⟨q, id, hq, hcall, hroute, rfl⟩ := step_arrive h
      refine Pool.forall_mem_set hold ⟨fun k hk => ?_, fun hphase hroute' => ?_⟩
      · cases hk
        refine ⟨⟨id, q.request.quantity.toInt, .arrived, .unsent⟩, rfl, ?_, inventoryRoute_eq hroute, rfl⟩
        exact List.getElem?_concat_length
      · -- A handler that has decided for the order has had its answer: the call is not in flight.
        obtain ⟨k, r, hcalls, -⟩ := (hs.posts q (List.mem_of_getElem? hq)).reserved hphase hroute'
        have hcall' := hcalls.call
        rw [hcall] at hcall'
        cases hcall'
  | deliver i =>
      obtain ⟨q, k, r, status, hq, -, hcall, hr, hstatus, rfl⟩ := step_deliver h
      exact Pool.forall_mem_set hold
        (postOk_resume (hs.posts q (List.mem_of_getElem? hq)) hsettled hcall hr hstatus)
  | save i reported =>
      obtain ⟨q, reserved, order, hq, -, -, rfl⟩ := step_save h
      exact Pool.forall_mem_set hold ((hs.posts q (List.mem_of_getElem? hq)).of_phase nofun)
  | inventory b =>
      obtain ⟨inventory, -, rfl⟩ := step_inventory h
      exact hold

theorem Linked.lt_length (hs : Linked s) (hp : p ∈ s.posts) {k : Nat} (hcall : p.call = .arrived k) :
    k < s.inventory.reserves.length := by
  obtain ⟨r, hcalls⟩ := (hs.posts p hp).calls k hcall
  exact (List.getElem?_eq_some_iff.mp hcalls.request).choose

/-- A step that gives no handler a new reserve request keeps them distinct. -/
theorem Linked.distinct_of_set (hs : Linked s) {i : Nat} (hp : s.posts[i]? = some p)
    (hcall : ∀ k, p'.call = .arrived k → p.call = .arrived k) {j₁ j₂ : Nat} {q₁ q₂ : Post} {k : Nat}
    (h₁ : (s.posts.set i p')[j₁]? = some q₁) (h₂ : (s.posts.set i p')[j₂]? = some q₂)
    (hk₁ : q₁.call = .arrived k) (hk₂ : q₂.call = .arrived k) : j₁ = j₂ := by
  rcases Pool.getElem?_set_cases h₁ with ⟨rfl, rfl⟩ | ⟨-, hq₁⟩
  · rcases Pool.getElem?_set_cases h₂ with ⟨rfl, rfl⟩ | ⟨-, hq₂⟩
    · rfl
    · exact hs.distinct hp hq₂ (hcall k hk₁) hk₂
  · rcases Pool.getElem?_set_cases h₂ with ⟨rfl, rfl⟩ | ⟨-, hq₂⟩
    · exact hs.distinct hq₁ hp hk₁ (hcall k hk₂)
    · exact hs.distinct hq₁ hq₂ hk₁ hk₂

theorem call_of_moved (h : Moved p p') {k : Nat} (hk : p'.call = .arrived k) : p.call = .arrived k := by
  cases h with
  | ended status hopen => exact hk
  | sent hphase hcall => cases hk
  | strayed reserved hphase hroute => exact hk

theorem call_resume (p : Post) (status : Status) : (p.resume status).call = p.call := by
  rcases resume_cases p status with ⟨reserved, -, hresume⟩ | hresume
  · rw [hresume]
  · rw [hresume]

theorem distinct_step (hs : Linked s) (h : step s a = some s') {j₁ j₂ : Nat} {q₁ q₂ : Post} {k : Nat}
    (h₁ : s'.posts[j₁]? = some q₁) (h₂ : s'.posts[j₂]? = some q₂)
    (hk₁ : q₁.call = .arrived k) (hk₂ : q₂.call = .arrived k) : j₁ = j₂ := by
  cases a with
  | post request =>
      cases h
      rcases Pool.getElem?_append_cases h₁ with ⟨-, rfl⟩ | hq₁
      · cases hk₁
      · rcases Pool.getElem?_append_cases h₂ with ⟨-, rfl⟩ | hq₂
        · cases hk₂
        · exact hs.distinct hq₁ hq₂ hk₁ hk₂
  | move i m =>
      obtain ⟨p, p', hp, hmoved, rfl⟩ := step_move h
      exact hs.distinct_of_set hp (fun k hk => call_of_moved hmoved hk) h₁ h₂ hk₁ hk₂
  | arrive i =>
      obtain ⟨p, id, hp, hcall, -, rfl⟩ := step_arrive h
      -- The new number is one that no reserve request had before.
      have hnew : ∀ {j : Nat} {q : Post}, s.posts[j]? = some q →
          q.call ≠ .arrived s.inventory.reserves.length := fun hq hcall' =>
        absurd (hs.lt_length (List.mem_of_getElem? hq) hcall') (Nat.lt_irrefl _)
      rcases Pool.getElem?_set_cases h₁ with ⟨rfl, rfl⟩ | ⟨-, hq₁⟩
      · rcases Pool.getElem?_set_cases h₂ with ⟨rfl, rfl⟩ | ⟨-, hq₂⟩
        · rfl
        · cases hk₁
          exact absurd hk₂ (hnew hq₂)
      · rcases Pool.getElem?_set_cases h₂ with ⟨rfl, rfl⟩ | ⟨-, hq₂⟩
        · cases hk₂
          exact absurd hk₁ (hnew hq₁)
        · exact hs.distinct hq₁ hq₂ hk₁ hk₂
  | deliver i =>
      obtain ⟨p, k', r, status, hp, -, -, -, -, rfl⟩ := step_deliver h
      refine hs.distinct_of_set hp (fun k hk => ?_) h₁ h₂ hk₁ hk₂
      rw [call_resume] at hk
      exact hk
  | save i reported =>
      obtain ⟨p, reserved, order, hp, -, -, rfl⟩ := step_save h
      refine hs.distinct_of_set hp ?_ h₁ h₂ hk₁ hk₂
      exact fun k hk => hk
  | inventory b =>
      obtain ⟨inventory, -, rfl⟩ := step_inventory h
      exact hs.distinct h₁ h₂ hk₁ hk₂

/-- A handler that has decided has inserted no row. -/
theorem Linked.not_mem_rows (hs : Linked s) {i : Nat} {reserved : Bool} (hp : s.posts[i]? = some p)
    (hphase : p.phase = .decided reserved) : i ∉ s.rows.map Prod.fst := by
  intro hmem
  obtain ⟨x, hx, rfl⟩ := List.mem_map.mp hmem
  obtain ⟨q, hq, hrow⟩ := hs.rows x hx
  rw [hp] at hq
  cases hq
  obtain ⟨status, hstatus⟩ := hrow.ended
  rw [hphase] at hstatus
  cases hstatus

theorem rows_step (hs : Linked s) (h : step s a = some s') :
    (∀ x ∈ s'.rows, ∃ p, s'.posts[x.1]? = some p ∧ RowOk s'.inventory p x.2) ∧
      (s'.rows.map Prod.fst).Nodup := by
  have hold : ∀ x ∈ s.rows, ∃ p, s'.posts[x.1]? = some p ∧ RowOk s'.inventory p x.2 := by
    intro x hx
    obtain ⟨p, hp, hrow⟩ := hs.rows x hx
    obtain ⟨p', hp', hcont⟩ := posts_continue h hp
    exact ⟨p', hp', hrow.follows (follows_step h) hcont⟩
  cases a with
  | post request =>
      cases h
      exact ⟨hold, hs.nodup⟩
  | move i m =>
      obtain ⟨p, p', -, -, rfl⟩ := step_move h
      exact ⟨hold, hs.nodup⟩
  | arrive i =>
      obtain ⟨p, id, -, -, -, rfl⟩ := step_arrive h
      exact ⟨hold, hs.nodup⟩
  | deliver i =>
      obtain ⟨p, k, r, status, -, -, -, -, -, rfl⟩ := step_deliver h
      exact ⟨hold, hs.nodup⟩
  | save i reported =>
      obtain ⟨p, reserved, order, hp, hphase, horder, rfl⟩ := step_save h
      have hfresh := hs.not_mem_rows hp hphase
      obtain ⟨hlt, -⟩ := List.getElem?_eq_some_iff.mp hp
      constructor
      · refine Pool.forall_mem_append_singleton hold ⟨_, List.getElem?_set_self hlt, ⟨_, rfl⟩, ?_, ?_⟩
        · rw [row_status horder]
          exact horder
        · intro hconfirmed hroute
          rw [row_status horder] at hconfirmed
          cases reserved with
          | false => cases hconfirmed
          | true =>
              obtain ⟨k, r, hcalls, hanswered⟩ :=
                (hs.posts p (List.mem_of_getElem? hp)).reserved hphase hroute
              exact ⟨k, r, ⟨hcalls.call, hcalls.request, hcalls.productId, hcalls.quantity⟩, hanswered⟩
      · show ((s.rows ++ [(i, order)]).map Prod.fst).Nodup
        rw [List.map_append, List.map_singleton, List.nodup_append]
        refine ⟨hs.nodup, List.nodup_cons.mpr ⟨List.not_mem_nil, List.nodup_nil⟩, ?_⟩
        intro j hj k hk heq
        have hji : j = i := heq.trans (List.mem_singleton.mp hk)
        exact hfresh (hji ▸ hj)
  | inventory b =>
      obtain ⟨inventory, -, rfl⟩ := step_inventory h
      exact ⟨hold, hs.nodup⟩

/-- **Step lemma.** -/
theorem linked_step (hs : Linked s) (hsettled : Settled s.inventory) (h : step s a = some s') :
    Linked s' := by
  obtain ⟨hrows, hnodup⟩ := rows_step hs h
  exact ⟨postOk_step hs hsettled h, distinct_step hs h, hrows, hnodup⟩

/-! ## From a `CONFIRMED` row to its execution -/

/-- Everything that holds in every state of a run of addressed requests. -/
structure Sound (products : ProductTable) (s : State) : Prop where
  linked : Linked s
  addressed : ∀ p ∈ s.posts, Addressed products p.request
  branch : ∀ id, s.inventory.products.branch id = products.branch id
  settled : Settled s.inventory
  backed : Inventory.Backed s.inventory
  lowered : Lowered s.inventory

variable {products : ProductTable}

theorem addressed_step (hs : ∀ p ∈ s.posts, Addressed products p.request) (ha : a.Addressed products)
    (h : step s a = some s') : ∀ p ∈ s'.posts, Addressed products p.request := by
  -- Only `post` brings a request that was not there before.
  cases a with
  | post request =>
      cases h
      exact Pool.forall_mem_append_singleton hs ha
  | move i m =>
      obtain ⟨p, p', hp, hmoved, rfl⟩ := step_move h
      refine Pool.forall_mem_set hs ?_
      rw [(continues_of_moved hmoved).request]
      exact hs p (List.mem_of_getElem? hp)
  | arrive i =>
      obtain ⟨p, id, hp, -, -, rfl⟩ := step_arrive h
      exact Pool.forall_mem_set hs (hs p (List.mem_of_getElem? hp))
  | deliver i =>
      obtain ⟨p, k, r, status, hp, hphase, -, -, -, rfl⟩ := step_deliver h
      refine Pool.forall_mem_set hs ?_
      rw [(continues_resume hphase status).request]
      exact hs p (List.mem_of_getElem? hp)
  | save i reported =>
      obtain ⟨p, reserved, order, hp, -, -, rfl⟩ := step_save h
      exact Pool.forall_mem_set hs (hs p (List.mem_of_getElem? hp))
  | inventory b =>
      obtain ⟨inventory, -, rfl⟩ := step_inventory h
      exact hs

theorem sound_step (hs : Sound products s) (ha : a.Addressed products) (h : step s a = some s') :
    Sound products s' where
  linked := linked_step hs.linked hs.settled h
  addressed := addressed_step hs.addressed ha h
  branch := by
    intro id
    rcases inventory_step h with heq | ⟨b, hb⟩
    · rw [heq]
      exact hs.branch id
    · exact (Inventory.branch_step hb id).trans (hs.branch id)
  settled := inventory_invariant (fun _ _ _ hu hb => Inventory.settled_step hu hb) hs.settled h
  backed := inventory_invariant (fun _ _ _ hu hb => Inventory.backed_step hu hb) hs.backed h
  lowered := inventory_invariant (fun _ _ _ hu hb => Inventory.lowered_step hu hb) hs.lowered h

theorem sound_start (products : ProductTable) (stock : Stock) : Sound products (start products stock) where
  linked := ⟨nofun, nofun, nofun, List.nodup_nil⟩
  addressed := nofun
  branch := fun _ => rfl
  settled := nofun
  backed := Inventory.backed_start products stock
  lowered := nofun

/-- **Run lemma.** -/
theorem sound_run {stock : Stock} {as : List Action} {t : State}
    (has : ∀ a ∈ as, a.Addressed products) (hrun : run step (start products stock) as = some t) :
    Sound products t :=
  run_invariant_along (G := fun _ a => a.Addressed products) (fun _ _ _ hs ha h => sound_step hs ha h)
    (sound_start products stock) (along_of_forall has) hrun

theorem row_fields {request : OrderCreateRequest} {status : OrderStatus} {order : Order}
    (h : row request status = some order) :
    order.productId = request.pathId ∧ order.quantity = request.quantity := by
  unfold row at h
  split at h
  · cases h
    exact ⟨rfl, rfl⟩
  · cases h

/-- The execution was made for the reserve request that the call of handler `i` became. -/
def MadeFor (s : State) (i : Nat) (e : Exec) : Prop :=
  ∃ (p : Post) (k : Nat), s.posts[i]? = some p ∧ p.call = .arrived k ∧ e.request = some k

/-- No execution was made for two handlers. -/
theorem Linked.eq_of_madeFor (hs : Linked s) {i j : Nat} {e : Exec} (hi : MadeFor s i e)
    (hj : MadeFor s j e) : i = j := by
  obtain ⟨p, k, hp, hpk, hek⟩ := hi
  obtain ⟨q, l, hq, hql, hel⟩ := hj
  have hkl : k = l := Option.some.inj (hek.symm.trans hel)
  subst hkl
  exact hs.distinct hp hq hpk hql

/-- A `CONFIRMED` row has an execution that was made for it and is what the order stands for. -/
theorem Sound.exec_of_confirmed (hs : Sound products s) {x : Nat × Order} (hx : x ∈ s.rows)
    (hconfirmed : x.2.status = .confirmed) :
    ∃ e ∈ s.inventory.execs, MadeFor s x.1 e ∧ Matches products x.2 e := by
  obtain ⟨p, hp, hrow⟩ := hs.linked.rows x hx
  obtain ⟨hid, hquantity⟩ := row_fields hrow.row
  have haddressed := hs.addressed p (List.mem_of_getElem? hp)
  obtain ⟨k, r, hcalls, hphase⟩ := hrow.reserved hconfirmed haddressed.routed
  obtain ⟨branch, hbranch, e, he, hbacks⟩ :=
    (hs.backed k r hcalls.request).backed (Or.inr (Or.inr hphase))
  rw [hs.branch, hcalls.productId] at hbranch
  have hroute := hbacks.route
  rw [hcalls.productId] at hroute
  have htarget := haddressed.faithful branch hbranch _ hroute
  have hebranch : e.branch = branch := congrArg Prod.fst htarget
  have heid : e.productId = p.request.pathId := congrArg Prod.snd htarget
  have hequantity : e.quantity = x.2.quantity.toInt := by
    rw [hbacks.quantity, hcalls.quantity, hquantity]
  refine ⟨e, he, ⟨p, k, hp, hcalls.call, hbacks.request⟩, ?_, ?_, hbacks.status, hequantity, ?_⟩
  · rw [hid, hebranch]
    exact hbranch
  · rw [hid]
    exact heid
  · rw [hs.lowered e he hbacks.status, hequantity]

theorem Sound.rows_backed (hs : Sound products s) : s.Backed products := by
  have hexec : ∀ n : s.ConfirmedRow, ∃ m : Fin s.inventory.execs.length,
      MadeFor s (s.rows.get n.1).1 (s.inventory.execs.get m) ∧
        Matches products (s.rows.get n.1).2 (s.inventory.execs.get m) := by
    intro n
    obtain ⟨e, he, hmade, hmatches⟩ := hs.exec_of_confirmed (List.get_mem s.rows n.1) n.2
    obtain ⟨m, rfl⟩ := List.mem_iff_get.mp he
    exact ⟨m, hmade, hmatches⟩
  choose f hmade hmatches using hexec
  refine ⟨f, fun n m hnm => ?_, hmatches⟩
  have hsame : (s.rows.get n.1).1 = (s.rows.get m.1).1 := by
    refine hs.linked.eq_of_madeFor (hmade n) ?_
    rw [hnm]
    exact hmade m
  have hrow : s.rows.get n.1 = s.rows.get m.1 :=
    List.inj_on_of_nodup_map hs.linked.nodup (List.get_mem _ _) (List.get_mem _ _) hsame
  exact Subtype.ext (List.nodup_iff_injective_get.mp (List.Nodup.of_map _ hs.linked.nodup) hrow)

/-- **Every `CONFIRMED` order has its own successful execution.** In every run of addressed requests, under
    every interleaving and every loss, and in every state it reaches, the orders stored as `CONFIRMED` are
    matched one to one with executions of the reservation script, each at its order's product and primary
    branch and for its quantity. -/
theorem confirmed_backed {stock : Stock} {as : List Action} {t : State}
    (has : ∀ a ∈ as, a.Addressed products) (hrun : run step (start products stock) as = some t) :
    t.Backed products :=
  (sound_run has hrun).rows_backed

/-! ## A product id with a percent sign -/

/-- The steps of order `i` when all goes well and no other request is under way. -/
def smoothly (i : Nat) (request : OrderCreateRequest) : List Action :=
  [.post request, .move i .send, .arrive i] ++ (Inventory.upToAnswer i).map .inventory
    ++ [.inventory (.update i true), .deliver i, .save i true]

/-- A product whose id reads as an escape. -/
def escapedProducts : ProductTable :=
  ProductTable.empty.insert ⟨"product%41", "Product A", 10, "tokyo"⟩ (by decide) (by decide)

/-- Ten of another product at the same branch. -/
def otherStock : Stock := Function.update (fun _ => none) (stockKey "tokyo" "productA") (some 10)

/-- The order is confirmed, and it is the stock of the other product that was lowered. -/
theorem escaped_takes_other_product :
    ∃ t, run step (start escapedProducts otherStock)
        (smoothly 0 ⟨some "customer-1", some "product%41", 3⟩) = some t ∧
      t.rows = [(0, ⟨"customer-1", "product%41", 3, .confirmed⟩)] ∧
      t.inventory.execs = [⟨"tokyo", "productA", 3, 10, 7, 200, some 0⟩] ∧
      ¬ t.Backed escapedProducts := by
  have hobs : (run step (start escapedProducts otherStock)
      (smoothly 0 ⟨some "customer-1", some "product%41", 3⟩)).map (fun t => (t.rows, t.inventory.execs))
        = some ([(0, ⟨"customer-1", "product%41", 3, .confirmed⟩)],
            [⟨"tokyo", "productA", 3, 10, 7, 200, some 0⟩]) := by
    decide +kernel
  obtain ⟨t, hrun, ht⟩ := Option.map_eq_some_iff.mp hobs
  have hrows := congrArg Prod.fst ht
  have hexecs := congrArg Prod.snd ht
  simp only at hrows hexecs
  refine ⟨t, hrun, hrows, hexecs, ?_⟩
  -- The only execution there is was made for the other product.
  have hother : ∀ e ∈ t.inventory.execs, e.productId = "productA" := by
    rw [hexecs]
    intro e he
    rw [List.mem_singleton.mp he]
  have hlen : 0 < t.rows.length := by
    rw [hrows]
    exact Nat.zero_lt_one
  have hfirst : t.rows.get ⟨0, hlen⟩ = (0, ⟨"customer-1", "product%41", 3, .confirmed⟩) := by
    simp [hrows]
  rintro ⟨f, -, hmatches⟩
  have hid := (hmatches ⟨⟨0, hlen⟩, by rw [hfirst]⟩).productId
  rw [hother _ (List.get_mem _ _), hfirst] at hid
  exact absurd hid (by decide)

/-- An ordinary product id is addressed. -/
theorem addressed_sample {customerId : Option String} {quantity : Int32} :
    Addressed Inventory.sampleProducts ⟨customerId, some "product-A", quantity⟩ := by
  refine ⟨show inventoryRoute "product-A" ≠ none by decide +kernel, fun branch hbranch target htarget => ?_⟩
  have htokyo : branch = "tokyo" := by
    have hsample : Inventory.sampleProducts.branch "product-A" = some "tokyo" := by decide +kernel
    exact Option.some.inj (hbranch.symm.trans hsample)
  subst htokyo
  have hleads : Inventory.warehouseRoute "tokyo" "product-A" = some ("tokyo", "product-A") := by
    decide +kernel
  exact Option.some.inj (htarget.symm.trans hleads)

theorem smoothly_backed :
    ∃ t, run step (start Inventory.sampleProducts Warehouse.sampleStock)
        (smoothly 0 ⟨some "customer-1", some "product-A", 3⟩) = some t ∧
      t.rows = [(0, ⟨"customer-1", "product-A", 3, .confirmed⟩)] ∧
      t.Backed Inventory.sampleProducts := by
  have hobs : (run step (start Inventory.sampleProducts Warehouse.sampleStock)
      (smoothly 0 ⟨some "customer-1", some "product-A", 3⟩)).map (·.rows)
        = some [(0, ⟨"customer-1", "product-A", 3, .confirmed⟩)] := by
    decide +kernel
  obtain ⟨t, hrun, hrows⟩ := Option.map_eq_some_iff.mp hobs
  refine ⟨t, hrun, hrows, confirmed_backed ?_ hrun⟩
  simp [smoothly, Inventory.upToAnswer, Action.Addressed, addressed_sample]

end Gekko.Ordering
