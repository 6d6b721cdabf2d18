import Gekko.Lib.Search
import Gekko.Lib.Serving
import Gekko.Warehouse.Access


/-! # `Gekko.Warehouse.Branches` — what a caller of one branch sees and changes

The two handlers of Warehouse Service reach the same Redis entries through a key that is put together
from a branch and a product id, and they keep callers to their own branch in different ways:
`reserve_stock` refuses another branch, while `get_stock_by_branches` has no branch in its request and
answers for the caller's own.

`isolated` is about any sequence of such requests, by any callers of one branch: nothing outside the
branch is written, nothing outside it is named in an answer, and nothing outside it has any influence on
an answer. It rests on the key format, which is unambiguous for branch names without a colon
(`stockKey_inj`).
-/

namespace Gekko.Warehouse

/-! ## The key format -/

theorem stockKey_eq_iff {branch branch' productId productId' : String} :
    stockKey branch productId = stockKey branch' productId' ↔
      branch.toList ++ ':' :: productId.toList = branch'.toList ++ ':' :: productId'.toList := by
  rw [← String.toList_inj]
  simp [stockKey, String.toList_append]

/-- **A key determines its branch and its product**, whatever is in the product id. -/
theorem stockKey_inj {branch branch' productId productId' : String} (hb : ':' ∉ branch.toList)
    (hb' : ':' ∉ branch'.toList) (h : stockKey branch productId = stockKey branch' productId') :
    branch = branch' ∧ productId = productId' := by
  obtain ⟨hbranch, hproduct⟩ := Search.append_cons_inj hb hb' (stockKey_eq_iff.mp h)
  exact ⟨String.toList_inj.mp hbranch, String.toList_inj.mp hproduct⟩

/-! ## The handlers -/

/-- The caller of a request, and how the lookup of their branch would end. -/
structure Caller where
  claims : Claims
  exchanged : Bool
  lookup : String → Lookup

/-- The caller has the one role and not the other, and their employee record names the branch. -/
def Caller.OfBranch (caller : Caller) (branch : String) : Prop :=
  DecidedByBranch caller.claims ∧
    resolveOwnBranch caller.exchanged caller.lookup caller.claims = .ok (some branch)

/-- What the connection to Redis does during a request: it may not come about, and the answer to the one
    command that matters may not arrive. -/
structure Redis where
  connects : Bool
  answers : Bool
  deriving DecidableEq, Repr

/-- A request that has passed `auth_middleware`. -/
inductive Request where
  /-- `keys` is what Redis answers to `KEYS stock:*:{product_id}`. -/
  | getStock (caller : Caller) (productId : String) (redis : Redis) (keys : List String)
  | reserve (caller : Caller) (branch productId : String) (quantity : Int) (redis : Redis)

def Request.caller : Request → Caller
  | .getStock caller .. => caller
  | .reserve caller .. => caller

/-- The bodies of the answers. -/
inductive Body where
  | empty
  | branchStock (productId : String) (branches : List (String × Int))
  | stock (branch productId : String) (quantity : Int)
  deriving DecidableEq, Repr

/-- The branches that are named in a body. -/
def Body.branches : Body → List String
  | .empty => []
  | .branchStock _ branches => branches.map (·.1)
  | .stock branch _ _ => [branch]

structure Response where
  status : Status
  body : Body
  deriving DecidableEq, Repr

/-- What the handlers make of an `Err`. -/
def refuse (status : Status) : Response := ⟨status, .empty⟩

/-- The branch in a key of the product: `strip_prefix` and `strip_suffix`. -/
def branchOfKey (productId key : String) : Option String :=
  let pre := "stock:".toList
  let suf := (":" ++ productId).toList
  if pre.isPrefixOf key.toList then
    let rest := key.toList.drop pre.length
    if suf.isSuffixOf rest then some (String.ofList (rest.take (rest.length - suf.length))) else none
  else none

/-- `conn.get(&key).await.unwrap_or(0)`. -/
def Redis.get (redis : Redis) (σ : Stock) (key : String) : Int := if redis.answers then σ.current key else 0

/-- `get_stock_by_branches`. -/
def getStockByBranches (σ : Stock) (caller : Caller) (productId : String) (redis : Redis)
    (keys : List String) : Response :=
  if ¬ caller.claims.hasAnyRole ["warehouse-viewer", "warehouse-viewer-all"] then refuse 403
  else if ¬ redis.connects then refuse 500
  else if caller.claims.hasAnyRole ["warehouse-viewer-all"] then
    let branches := keys.filterMap fun key =>
      (branchOfKey productId key).map fun branch => (branch, redis.get σ key)
    ⟨200, .branchStock productId branches⟩
  else
    match resolveOwnBranch caller.exchanged caller.lookup caller.claims with
    | .error status => refuse status
    | .ok (some ownBranch) =>
        ⟨200, .branchStock productId [(ownBranch, redis.get σ (stockKey ownBranch productId))]⟩
    | .ok none => ⟨200, .branchStock productId []⟩

/-- `reserve_stock`. -/
def reserveStock (σ : Stock) (caller : Caller) (branch productId : String) (quantity : Int) (redis : Redis) :
    Response × Stock :=
  match authorizeBranch caller.exchanged caller.lookup caller.claims branch with
  | .error status => (refuse status, σ)
  | .ok () =>
      if ¬ redis.connects then (refuse 500, σ)
      else
        let (result, σ') := reserveScript σ (stockKey branch productId) quantity
        if ¬ redis.answers then (refuse 500, σ')
        else if result < 0 then (refuse 409, σ')
        else (⟨200, .stock branch productId result⟩, σ')

def serve (σ : Stock) : Request → Response × Stock
  | .getStock caller productId redis keys => (getStockByBranches σ caller productId redis keys, σ)
  | .reserve caller branch productId quantity redis => reserveStock σ caller branch productId quantity redis

/-! ## One request of a caller of the branch -/

section OneRequest

variable {σ σ' : Stock} {caller : Caller} {own branch productId key : String} {quantity : Int} {redis : Redis}
  {keys : List String} {request : Request}

/-- A caller who sees one branch is answered as the lookup ends. -/
theorem getStockByBranches_of_decidedByBranch (h : DecidedByBranch caller.claims) :
    getStockByBranches σ caller productId redis keys =
      if redis.connects then
        match resolveOwnBranch caller.exchanged caller.lookup caller.claims with
        | .error status => refuse status
        | .ok (some own) => ⟨200, .branchStock productId [(own, redis.get σ (stockKey own productId))]⟩
        | .ok none => ⟨200, .branchStock productId []⟩
      else refuse 500 := by
  have hany : caller.claims.hasAnyRole ["warehouse-viewer", "warehouse-viewer-all"] = true :=
    (Claims.hasAnyRole_pair _ _ _).mpr (Or.inl h.1)
  have hnot : ¬ caller.claims.hasAnyRole ["warehouse-viewer-all"] = true := by
    rw [Claims.hasAnyRole_singleton]
    exact h.2
  unfold getStockByBranches
  rw [if_neg (not_not.mpr hany), if_neg hnot]
  cases redis.connects with
  | false => rfl
  | true => rfl

theorem getStockByBranches_of_branch (h : caller.OfBranch own) :
    getStockByBranches σ caller productId redis keys =
      if redis.connects then ⟨200, .branchStock productId [(own, redis.get σ (stockKey own productId))]⟩
      else refuse 500 := by
  rw [getStockByBranches_of_decidedByBranch h.1, h.2]

theorem authorizeBranch_of_branch (h : caller.OfBranch own) :
    authorizeBranch caller.exchanged caller.lookup caller.claims branch =
      if own = branch then .ok () else .error 403 := by
  rw [authorizeBranch_of_decidedByBranch h.1, h.2]
  simp only [Option.some.injEq]

/-- A reservation at another branch is refused and changes nothing. -/
theorem reserveStock_of_other (h : caller.OfBranch own) (hne : own ≠ branch) :
    reserveStock σ caller branch productId quantity redis = (refuse 403, σ) := by
  unfold reserveStock
  rw [authorizeBranch_of_branch h, if_neg hne]

/-- A reservation at the caller's branch: the script decides. -/
theorem reserveStock_of_own (h : caller.OfBranch own) :
    reserveStock σ caller own productId quantity redis =
      if redis.connects then
        (if redis.answers then
          (if (reserveScript σ (stockKey own productId) quantity).1 < 0 then refuse 409
            else ⟨200, .stock own productId (reserveScript σ (stockKey own productId) quantity).1⟩)
          else refuse 500, (reserveScript σ (stockKey own productId) quantity).2)
      else (refuse 500, σ) := by
  unfold reserveStock
  rw [authorizeBranch_of_branch h, if_pos rfl]
  cases redis.connects with
  | false => simp
  | true =>
      cases redis.answers with
      | false => simp
      | true =>
          simp only [not_true_eq_false, if_false, if_true]
          split
          · rfl
          · rfl

theorem reserveScript_frame (hne : key ≠ stockKey branch productId) :
    (reserveScript σ (stockKey branch productId) quantity).2 key = σ key := by
  rcases reserveScript_cases σ (stockKey branch productId) quantity with ⟨-, hsame, -⟩ | ⟨-, hdecr, -⟩
  · rw [hsame]
  · rw [hdecr, Stock.decrBy_of_ne hne]

/-- **Frame.** A request writes under no key but those of the caller's branch. -/
theorem serve_frame (h : request.caller.OfBranch own) (hkey : ∀ productId, key ≠ stockKey own productId) :
    (serve σ request).2 key = σ key := by
  cases request with
  | getStock caller productId redis keys => rfl
  | reserve caller branch productId quantity redis =>
      have hcaller : caller.OfBranch own := h
      rw [serve]
      by_cases hown : own = branch
      · subst hown
        rw [reserveStock_of_own hcaller]
        cases redis.connects with
        | false => rfl
        | true => exact reserveScript_frame (hkey productId)
      · rw [reserveStock_of_other hcaller hown]

/-- **Confinement.** An answer names no branch but the caller's. -/
theorem serve_branches (h : request.caller.OfBranch own) :
    ∀ branch ∈ (serve σ request).1.body.branches, branch = own := by
  cases request with
  -- A caller of a branch sees that branch alone, whatever keys the scan returns.
  | getStock caller productId redis keys =>
      have hcaller : caller.OfBranch own := h
      rw [serve, getStockByBranches_of_branch hcaller]
      cases redis.connects with
      | false => exact nofun
      | true =>
          intro branch hbranch
          simpa [Body.branches] using hbranch
  | reserve caller branch productId quantity redis =>
      have hcaller : caller.OfBranch own := h
      rw [serve]
      by_cases hown : own = branch
      · subst hown
        rw [reserveStock_of_own hcaller]
        cases redis.connects with
        | false => exact nofun
        | true =>
            cases redis.answers with
            | false => exact nofun
            | true =>
                simp only [if_true]
                split
                · exact nofun
                · intro branch hbranch
                  simpa [Body.branches] using hbranch
      -- A refusal has no body.
      · rw [reserveStock_of_other hcaller hown]
        exact nofun

/-- The two tables agree on the branch. -/
def AgreeOn (branch : String) (σ σ' : Stock) : Prop :=
  ∀ productId, σ (stockKey branch productId) = σ' (stockKey branch productId)

theorem AgreeOn.current (h : AgreeOn branch σ σ') (productId : String) :
    σ.current (stockKey branch productId) = σ'.current (stockKey branch productId) := by
  unfold Stock.current
  rw [h productId]

theorem AgreeOn.decrBy (h : AgreeOn branch σ σ') (productId : String) :
    AgreeOn branch (σ.decrBy (stockKey branch productId) quantity)
      (σ'.decrBy (stockKey branch productId) quantity) := by
  intro other
  -- The entry of this product changes, and by as much in both tables.
  by_cases hkey : stockKey branch other = stockKey branch productId
  · unfold Stock.decrBy
    rw [hkey, Function.update_self, Function.update_self, h.current]
  · rw [Stock.decrBy_of_ne hkey, Stock.decrBy_of_ne hkey]
    exact h other

theorem AgreeOn.reserveScript (h : AgreeOn branch σ σ') (productId : String) (quantity : Int) :
    (reserveScript σ (stockKey branch productId) quantity).1
        = (reserveScript σ' (stockKey branch productId) quantity).1 ∧
      AgreeOn branch (reserveScript σ (stockKey branch productId) quantity).2
        (reserveScript σ' (stockKey branch productId) quantity).2 := by
  have hcurrent := h.current productId
  by_cases hlt : σ.current (stockKey branch productId) < quantity
  · have hlt' : σ'.current (stockKey branch productId) < quantity := hcurrent ▸ hlt
    rw [reserveScript_of_lt hlt, reserveScript_of_lt hlt']
    exact ⟨rfl, h⟩
  · have hle : quantity ≤ σ.current (stockKey branch productId) := by omega
    have hle' : quantity ≤ σ'.current (stockKey branch productId) := hcurrent ▸ hle
    rw [reserveScript_of_le hle, reserveScript_of_le hle', hcurrent]
    exact ⟨rfl, h.decrBy productId⟩

/-- **Step consistency.** Tables that agree on the caller's branch give the same answer, and still agree
on it. -/
theorem serve_agree (h : request.caller.OfBranch own) (hagree : AgreeOn own σ σ') :
    (serve σ request).1 = (serve σ' request).1 ∧ AgreeOn own (serve σ request).2 (serve σ' request).2 := by
  cases request with
  | getStock caller productId redis keys =>
      have hcaller : caller.OfBranch own := h
      rw [serve, serve, getStockByBranches_of_branch hcaller, getStockByBranches_of_branch hcaller]
      refine ⟨?_, hagree⟩
      unfold Redis.get
      rw [hagree.current]
  | reserve caller branch productId quantity redis =>
      have hcaller : caller.OfBranch own := h
      rw [serve, serve]
      by_cases hown : own = branch
      · subst hown
        obtain ⟨hresult, hnext⟩ := hagree.reserveScript productId quantity
        rw [reserveStock_of_own hcaller, reserveStock_of_own hcaller, hresult]
        cases redis.connects with
        | false => exact ⟨rfl, hagree⟩
        | true => exact ⟨rfl, hnext⟩
      · rw [reserveStock_of_other hcaller hown, reserveStock_of_other hcaller hown]
        exact ⟨rfl, hagree⟩

end OneRequest

/-! ## Any sequence of requests -/

open Serving

/-- **Callers of one branch are confined to it**: no entry of another branch is created or changed, no
    other branch is named in an answer, and no answer depends on an entry of another branch. -/
theorem isolated {own : String} {requests : List Request} (hown : ':' ∉ own.toList)
    (hcallers : ∀ request ∈ requests, request.caller.OfBranch own) (σ : Stock) :
    (∀ branch productId, ':' ∉ branch.toList → branch ≠ own →
      (serveAll serve σ requests).2 (stockKey branch productId) = σ (stockKey branch productId)) ∧
    (∀ response ∈ (serveAll serve σ requests).1, ∀ branch ∈ response.body.branches, branch = own) ∧
    (∀ σ', AgreeOn own σ σ' → (serveAll serve σ requests).1 = (serveAll serve σ' requests).1) := by
  refine ⟨?_, ?_, ?_⟩
  -- Without a colon in the branch, its keys are none of the own branch's.
  · intro branch productId hbranch hne
    have hkey : ∀ productId', stockKey branch productId ≠ stockKey own productId' :=
      fun productId' h => hne (stockKey_inj hbranch hown h).1
    exact serveAll_frame (f := fun σ => σ (stockKey branch productId))
      (fun request hmem _ => serve_frame (hcallers request hmem) hkey) σ
  · exact forall_serveAll (fun request hmem _ => serve_branches (hcallers request hmem)) σ
  -- Non-interference: the run from any table that agrees on the own branch gives the same answers.
  · intro σ' hagree
    have hstep : ∀ request ∈ requests, ∀ s t, AgreeOn own s t →
        (serve s request).1 = (serve t request).1 ∧ AgreeOn own (serve s request).2 (serve t request).2 :=
      fun request hmem _ _ h => serve_agree (hcallers request hmem) h
    exact (serveAll_unwinding hstep hagree).1

/-- A caller of the branch `tokyo`. -/
def tokyoCaller : Caller where
  claims := ⟨"sub-1", some "sato", ["warehouse-viewer"]⟩
  exchanged := true
  lookup := fun _ => .answered 200 (some (.obj [("username", .str "sato"), ("branch", .str "tokyo")]))

/-- One reservation at the own branch, one at another, and a look at the stock. -/
def tokyoRequests : List Request :=
  [.reserve tokyoCaller "tokyo" "product-A" 3 ⟨true, true⟩,
   .reserve tokyoCaller "osaka" "product-A" 1 ⟨true, true⟩,
    .getStock tokyoCaller "product-A" ⟨true, true⟩ []]

theorem tokyoRequests_isolated :
    (serveAll serve sampleStock tokyoRequests).1
        = [⟨200, .stock "tokyo" "product-A" 7⟩, refuse 403, ⟨200, .branchStock "product-A" [("tokyo", 7)]⟩] ∧
      (∀ branch productId, ':' ∉ branch.toList → branch ≠ "tokyo" →
        (serveAll serve sampleStock tokyoRequests).2 (stockKey branch productId)
          = sampleStock (stockKey branch productId)) ∧
      (∀ response ∈ (serveAll serve sampleStock tokyoRequests).1, ∀ branch ∈ response.body.branches,
        branch = "tokyo") ∧
      (∀ σ', AgreeOn "tokyo" sampleStock σ' →
        (serveAll serve sampleStock tokyoRequests).1 = (serveAll serve σ' tokyoRequests).1) := by
  have hcaller : tokyoCaller.OfBranch "tokyo" := ⟨⟨by decide, by decide⟩, rfl⟩
  have hcallers : ∀ request ∈ tokyoRequests, request.caller.OfBranch "tokyo" := by
    intro request hmem
    simp only [tokyoRequests, List.mem_cons, List.not_mem_nil, or_false] at hmem
    rcases hmem with rfl | rfl | rfl
    · exact hcaller
    · exact hcaller
    · exact hcaller
  have hcolon : ':' ∉ "tokyo".toList := by decide
  exact ⟨by decide +kernel, isolated hcolon hcallers sampleStock⟩

end Gekko.Warehouse
