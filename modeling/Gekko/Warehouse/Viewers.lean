import Gekko.Employee.Redirect
import Gekko.Lib.Glob
import Gekko.Lib.LastWins
import Gekko.Warehouse.Branches


/-! # `Gekko.Warehouse.Viewers` — what `get_stock_by_branches` answers

A caller with `warehouse-viewer-all` is answered with the branches that `KEYS stock:*:{product_id}`
finds, a caller with `warehouse-viewer` alone with their own one, as it is found by the lookup that the
reservation path also uses.

* `lists_iff_separate` — when the branches found are those for which the product was recorded. The
  product id goes into the pattern as it is, and the branch is what the key has between the two fixed
  parts, so this takes a product id that matches itself, and keys that no other branch and product
  share.
* `gated_iff` — when the role is the only thing that a caller is refused for: unless the lookup is
  answered with a status that is no success.
-/

namespace Gekko.Warehouse

open LastWins

/-! ## The branch in a key -/

section Keys

variable {productId key branch : String}

theorem branchOfKey_stockKey (branch productId : String) :
    branchOfKey productId (stockKey branch productId) = some branch := by
  have hlist : (stockKey branch productId).toList = "stock:".toList ++
      (branch.toList ++ (":" ++ productId).toList) := by
    simp [stockKey, String.toList_append]
  have hpre : "stock:".toList.isPrefixOf (stockKey branch productId).toList = true := by
    rw [hlist]
    exact List.isPrefixOf_iff_prefix.mpr (List.prefix_append _ _)
  have hdrop : (stockKey branch productId).toList.drop "stock:".toList.length =
      branch.toList ++ (":" ++ productId).toList := by
    rw [hlist]
    exact List.drop_left
  have hsuf : (":" ++ productId).toList.isSuffixOf (branch.toList ++ (":" ++ productId).toList) = true :=
    List.isSuffixOf_iff_suffix.mpr (List.suffix_append _ _)
  unfold branchOfKey
  simp only [hpre, hdrop, hsuf, if_true, List.length_append, Nat.add_sub_cancel,
    List.take_left, String.ofList_toList]

/-- **The branch that is read off a key** is the one that makes the key. -/
theorem branchOfKey_eq_some_iff : branchOfKey productId key = some branch ↔
    key = stockKey branch productId := by
  constructor
  · intro h
    unfold branchOfKey at h
    simp only [] at h
    split at h
    · rename_i hpre
      split at h
      · rename_i hsuf
        obtain ⟨rest, hrest⟩ := List.isPrefixOf_iff_prefix.mp hpre
        rw [← hrest, List.drop_left] at hsuf h
        obtain ⟨middle, hmiddle⟩ := List.isSuffixOf_iff_suffix.mp hsuf
        rw [← hmiddle, List.length_append, Nat.add_sub_cancel, List.take_left] at h
        cases h
        apply String.toList_inj.mp
        rw [← hrest, ← hmiddle]
        simp [stockKey, String.toList_append]
      · cases h
    · cases h
  · rintro rfl
    exact branchOfKey_stockKey branch productId

end Keys

/-! ## Recordings -/

/-- The quantity of a product is recorded for a branch. -/
structure Recording where
  branch : String
  productId : String
  quantity : Int
  deriving DecidableEq, Repr

def Recording.key (r : Recording) : String := stockKey r.branch r.productId

/-- `SET stock:{branch}:{product_id}`. -/
def record (σ : Stock) (r : Recording) : Stock := Function.update σ r.key (some r.quantity)

def recordAll (rs : List Recording) : Stock := rs.foldl record fun _ => none

/-- What was recorded last for the branch and the product. -/
def recorded (rs : List Recording) (branch productId : String) : Option Int :=
  lastOf (fun r => if r.branch = branch ∧ r.productId = productId then some r.quantity else none) rs

/-- What was recorded last under the key. -/
def recordedUnder (rs : List Recording) (key : String) : Option Int :=
  lastOf (fun r => if r.key = key then some r.quantity else none) rs

section Recordings

variable {rs : List Recording} {branch productId key : String} {n : Int}

theorem recordAll_apply (rs : List Recording) (key : String) : recordAll rs key = recordedUnder rs key := by
  have hinsert : ∀ (σ : Stock) (r : Recording) (key : String),
      record σ r key = (if r.key = key then some r.quantity else none).or (σ key) := by
    intro σ r key
    unfold record
    by_cases hkey : r.key = key
    · subst hkey
      simp
    · simp [hkey, Function.update_of_ne (Ne.symm hkey)]
  exact (foldl_insert hinsert rs (fun _ => none) key).trans Option.or_none

theorem isSome_recordedUnder_iff : (recordedUnder rs key).isSome = true ↔ ∃ r ∈ rs, r.key = key := by
  unfold recordedUnder
  rw [isSome_lastOf_iff]
  simp

theorem isSome_recorded_iff :
    (recorded rs branch productId).isSome = true ↔ ∃ r ∈ rs, r.branch = branch ∧ r.productId = productId := by
  unfold recorded
  rw [isSome_lastOf_iff]
  simp

end Recordings

/-! ## The branches of a product -/

/-- The pattern of the `KEYS` command. -/
def pattern (productId : String) : String := "stock:*:" ++ productId

/-- `KEYS` answers with the keys that are there and match, where `globs` is how Redis matches them. -/
def KeysAnswer (globs : String → String → Bool) (σ : Stock) (productId : String)
    (keys : List String) : Prop :=
  ∀ key, key ∈ keys ↔ (σ key).isSome = true ∧ globs (pattern productId) key = true

/-- The answer lists the branches for which the product was recorded, each with what was recorded last. -/
def Lists (rs : List Recording) (productId : String) (response : Response) : Prop :=
  ∃ branches, response = ⟨200, .branchStock productId branches⟩ ∧
    ∀ branch n, (branch, n) ∈ branches ↔ recorded rs branch productId = some n

/-- The product is found at its branches, under keys of their own, and nothing else is found with it. -/
structure Separate (globs : String → String → Bool) (rs : List Recording) (productId : String) : Prop where
  found : ∀ branch n, recorded rs branch productId = some n →
    globs (pattern productId) (stockKey branch productId) = true ∧
        recordedUnder rs (stockKey branch productId) = some n
  only : ∀ r ∈ rs, ∀ branch, r.key = stockKey branch productId →
    globs (pattern productId) (stockKey branch productId) = true →
      ∃ r' ∈ rs, r'.branch = branch ∧ r'.productId = productId

section Listing

variable {globs : String → String → Bool} {rs : List Recording} {productId : String} {caller : Caller}
  {keys : List String}

theorem getStockByBranches_of_all {σ : Stock} {redis : Redis}
    (hall : "warehouse-viewer-all" ∈ caller.claims.roles) :
    getStockByBranches σ caller productId redis keys =
      if redis.connects then
        ⟨200, .branchStock productId (keys.filterMap fun key =>
          (branchOfKey productId key).map fun branch => (branch, redis.get σ key))⟩
      else refuse 500 := by
  have hany : caller.claims.hasAnyRole ["warehouse-viewer", "warehouse-viewer-all"] = true :=
    (Claims.hasAnyRole_pair _ _ _).mpr (Or.inr hall)
  have hone : caller.claims.hasAnyRole ["warehouse-viewer-all"] = true :=
    (Claims.hasAnyRole_singleton _ _).mpr hall
  unfold getStockByBranches
  rw [if_neg (not_not.mpr hany), if_pos hone]
  cases redis.connects with
  | false => rfl
  | true => rfl

/-- What is listed is what is stored under the key of the branch, where the pattern finds it. -/
theorem mem_listed_iff (hkeys : KeysAnswer globs (recordAll rs) productId keys) {branch : String} {n : Int} :
    (branch, n) ∈ (keys.filterMap fun key =>
        (branchOfKey productId key).map fun branch => (branch, (recordAll rs).current key)) ↔
      globs (pattern productId) (stockKey branch productId) = true ∧
        recordedUnder rs (stockKey branch productId) = some n := by
  have hcurrent : ∀ key, (recordAll rs).current key = (recordedUnder rs key).getD 0 := by
    intro key
    unfold Stock.current
    rw [recordAll_apply]
  rw [List.mem_filterMap]
  constructor
  · rintro ⟨key, hkey, hlisted⟩
    obtain ⟨branch', hbranch, heq⟩ := Option.map_eq_some_iff.mp hlisted
    obtain ⟨rfl, hn⟩ := Prod.mk.inj heq
    rw [branchOfKey_eq_some_iff] at hbranch
    subst hbranch
    obtain ⟨hstored, hglobs⟩ := (hkeys _).mp hkey
    rw [recordAll_apply] at hstored
    obtain ⟨m, hm⟩ := Option.isSome_iff_exists.mp hstored
    rw [hcurrent, hm] at hn
    exact ⟨hglobs, hm.trans (congrArg some hn)⟩
  · rintro ⟨hglobs, hn⟩
    refine ⟨stockKey branch productId, (hkeys _).mpr ⟨?_, hglobs⟩, ?_⟩
    · rw [recordAll_apply, hn]
      rfl
    · rw [branchOfKey_stockKey, hcurrent, hn]
      rfl

/-- **Which products are listed with their branches**, for any caller with `warehouse-viewer-all`. -/
theorem lists_iff_separate (hall : "warehouse-viewer-all" ∈ caller.claims.roles)
    (hkeys : KeysAnswer globs (recordAll rs) productId keys) :
    Lists rs productId (getStockByBranches (recordAll rs) caller productId ⟨true, true⟩ keys) ↔
      Separate globs rs productId := by
  have hanswer : getStockByBranches (recordAll rs) caller productId ⟨true, true⟩ keys =
      ⟨200, .branchStock productId (keys.filterMap fun key =>
        (branchOfKey productId key).map fun branch => (branch, (recordAll rs).current key))⟩ :=
    getStockByBranches_of_all hall
  rw [hanswer]
  constructor
  · rintro ⟨branches, hresponse, hlists⟩
    cases hresponse
    simp only [mem_listed_iff hkeys] at hlists
    constructor
    · intro branch n hn
      exact (hlists branch n).mpr hn
    · intro r hr branch hkey hglobs
      -- Something is listed for the branch, so the product was recorded for it.
      obtain ⟨n, hn⟩ := Option.isSome_iff_exists.mp (isSome_recordedUnder_iff.mpr ⟨r, hr, hkey⟩)
      have hrecorded := (hlists branch n).mp ⟨hglobs, hn⟩
      exact isSome_recorded_iff.mp (by rw [hrecorded]; rfl)
  · rintro ⟨hfound, honly⟩
    refine ⟨_, rfl, ?_⟩
    intro branch n
    rw [mem_listed_iff hkeys]
    constructor
    · rintro ⟨hglobs, hn⟩
      obtain ⟨r, hr, hkey⟩ := isSome_recordedUnder_iff.mp (by rw [hn]; rfl)
      obtain ⟨m, hm⟩ := Option.isSome_iff_exists.mp (isSome_recorded_iff.mpr (honly r hr branch hkey hglobs))
      rw [(hfound branch m hm).2] at hn
      rw [hm, hn]
    · exact hfound branch n

/-- A key determines its branch, whatever is in it, if there is no colon in the product id. -/
theorem stockKey_inj_right {branch branch' productId' : String} (hp : ':' ∉ productId.toList)
    (hp' : ':' ∉ productId'.toList) (h : stockKey branch productId = stockKey branch' productId') :
    branch = branch' ∧ productId = productId' := by
  -- Read from the end, the product id comes first.
  have hreversed := congrArg List.reverse (stockKey_eq_iff.mp h)
  simp only [List.reverse_append, List.reverse_cons, List.append_assoc, List.singleton_append] at hreversed
  obtain ⟨hproduct, hbranch⟩ :=
    Search.append_cons_inj (by rwa [List.mem_reverse]) (by rwa [List.mem_reverse]) hreversed
  exact ⟨String.toList_inj.mp (List.reverse_inj.mp hbranch),
         String.toList_inj.mp (List.reverse_inj.mp hproduct)⟩

/-- **Plain product ids are separate**: those without a colon, a bracket and a backslash. -/
theorem separate_of_plain (hproducts : ∀ r ∈ rs, ':' ∉ r.productId.toList) (hcolon : ':' ∉ productId.toList)
    (hclass : '[' ∉ productId.toList) (hescape : '\\' ∉ productId.toList) :
    Separate Glob.accepts rs productId := by
  have hown : ∀ branch, Glob.accepts (pattern productId) (stockKey branch productId) = true := by
    intro branch
    have hlit : ∀ b ∈ Utf8.encode "stock:", Glob.special b = false := by decide +kernel
    have haccepts : Glob.accepts ("stock:" ++ "*" ++ (":" ++ productId))
        ("stock:" ++ branch ++ (":" ++ productId)) = true :=
      Glob.accepts_star hlit (by simpa [String.toList_append] using hclass)
        (by simpa [String.toList_append] using hescape) branch
    have hpattern : pattern productId = "stock:" ++ "*" ++ (":" ++ productId) := by
      apply String.toList_inj.mp
      simp [pattern, String.toList_append]
    have hkey : stockKey branch productId = "stock:" ++ branch ++ (":" ++ productId) := by
      apply String.toList_inj.mp
      simp [stockKey, String.toList_append]
    rw [hpattern, hkey]
    exact haccepts
  have hkey : ∀ r ∈ rs, ∀ branch, r.key = stockKey branch productId ↔ r.branch = branch ∧
      r.productId = productId := by
    intro r hr branch
    constructor
    · exact stockKey_inj_right (hproducts r hr) hcolon
    · rintro ⟨rfl, rfl⟩
      rfl
  constructor
  · intro branch n hn
    refine ⟨hown branch, ?_⟩
    rw [← hn]
    refine lastOf_congr ?_
    intro r hr
    simp only [hkey r hr branch]
  · intro r hr branch heq _
    exact ⟨r, hr, (hkey r hr branch).mp heq⟩

end Listing

/-- A caller who sees all branches. -/
def allCaller : Caller where
  claims := ⟨"sub-2", some "suzuki", ["warehouse-viewer-all"]⟩
  exchanged := true
  lookup := fun _ => .unreachable

/-- The key of one recording is found, if the pattern matches it. -/
theorem keysAnswer_singleton {globs : String → String → Bool} {r : Recording} {productId : String}
    (h : globs (pattern productId) r.key = true) : KeysAnswer globs (recordAll [r]) productId [r.key] := by
  intro key
  rw [List.mem_singleton, recordAll_apply, isSome_recordedUnder_iff]
  simp only [List.mem_singleton, exists_eq_left]
  constructor
  · rintro rfl
    exact ⟨rfl, h⟩
  · rintro ⟨heq, -⟩
    exact heq.symm

theorem keysAnswer_nil {globs : String → String → Bool} {r : Recording} {productId : String}
    (h : globs (pattern productId) r.key = false) : KeysAnswer globs (recordAll [r]) productId [] := by
  intro key
  rw [recordAll_apply, isSome_recordedUnder_iff]
  simp only [List.mem_singleton, exists_eq_left]
  refine iff_of_false List.not_mem_nil ?_
  rintro ⟨rfl, hglobs⟩
  rw [h] at hglobs
  cases hglobs

theorem plainProduct_listed :
    Lists [⟨"tokyo", "product-A", 10⟩] "product-A"
      (getStockByBranches (recordAll [⟨"tokyo", "product-A", 10⟩]) allCaller "product-A" ⟨true, true⟩
        [stockKey "tokyo" "product-A"]) := by
  have hkeys : KeysAnswer Glob.accepts (recordAll [⟨"tokyo", "product-A", 10⟩]) "product-A"
      [stockKey "tokyo" "product-A"] := keysAnswer_singleton (by decide +kernel)
  refine (lists_iff_separate (by decide) hkeys).mpr (separate_of_plain ?_ ?_ ?_ ?_)
  · intro r hr
    rw [List.mem_singleton.mp hr]
    decide +kernel
  · decide +kernel
  · decide +kernel
  · decide +kernel

/-- A product id with a bracket. -/
def bracketed : Recording := ⟨"tokyo", "product[1]", 5⟩

/-- A product id with a colon. -/
def coloned : Recording := ⟨"tokyo", "a:b", 5⟩

/-- **A branch that is hidden, and one that is invented**: the product id is taken for a pattern, and
    what stands before the last colon is taken for a branch. -/
theorem bracketed_hidden :
    (KeysAnswer Glob.accepts (recordAll [bracketed]) "product[1]" [] ∧
        getStockByBranches (recordAll [bracketed]) allCaller "product[1]" ⟨true, true⟩ [] =
          ⟨200, .branchStock "product[1]" []⟩ ∧
        ¬ Lists [bracketed] "product[1]"
          (getStockByBranches (recordAll [bracketed]) allCaller "product[1]" ⟨true, true⟩ [])) ∧
      KeysAnswer Glob.accepts (recordAll [coloned]) "b" [coloned.key] ∧
        getStockByBranches (recordAll [coloned]) allCaller "b" ⟨true, true⟩ [coloned.key] =
          ⟨200, .branchStock "b" [("tokyo:a", 5)]⟩ ∧
        ¬ Lists [coloned] "b" (getStockByBranches (recordAll [coloned]) allCaller "b"
          ⟨true, true⟩ [coloned.key]) := by
  have hhidden : getStockByBranches (recordAll [bracketed]) allCaller "product[1]" ⟨true, true⟩ [] =
      ⟨200, .branchStock "product[1]" []⟩ := by decide +kernel
  have hinvented : getStockByBranches (recordAll [coloned]) allCaller "b" ⟨true, true⟩ [coloned.key] =
      ⟨200, .branchStock "b" [("tokyo:a", 5)]⟩ := by decide +kernel
  refine ⟨⟨keysAnswer_nil (by decide +kernel), hhidden, ?_⟩, keysAnswer_singleton (by decide +kernel),
          hinvented, ?_⟩
  · rintro ⟨branches, hresponse, hlists⟩
    rw [hhidden] at hresponse
    cases hresponse
    have hrecorded : recorded [bracketed] "tokyo" "product[1]" = some 5 := by decide +kernel
    exact absurd ((hlists "tokyo" 5).mpr hrecorded) List.not_mem_nil
  · rintro ⟨branches, hresponse, hlists⟩
    rw [hinvented] at hresponse
    cases hresponse
    have hnone : recorded [coloned] "tokyo:a" "b" = none := by decide +kernel
    have hrecorded := (hlists "tokyo:a" 5).mp List.mem_cons_self
    rw [hnone] at hrecorded
    cases hrecorded

/-! ## Whom the endpoint refuses -/

/-- Employee Service has answered with the record of the caller, which names the branch or none. -/
def Caller.Found (caller : Caller) (branch : Option String) : Prop :=
  caller.exchanged = true ∧ ∃ status json,
    caller.lookup (caller.claims.preferredUsername.getD "") = .answered status (some json) ∧
      isSuccess status = true ∧ EmployeeRecord.decode json = some ⟨branch⟩

/-- The lookup is answered, but with a status that is no success. -/
def Caller.TurnedAway (caller : Caller) : Prop :=
  caller.exchanged = true ∧ ∃ status body,
    caller.lookup (caller.claims.preferredUsername.getD "") = .answered status body ∧ isSuccess status = false

/-- The role alone decides about a refusal, no branch is no stock, and no answer is a failure of the
server. -/
structure Gated (σ : Stock) (caller : Caller) (productId : String) (redis : Redis)
    (keys : List String) : Prop where
  forbidden : (getStockByBranches σ caller productId redis keys).status = 403 ↔
    "warehouse-viewer" ∉ caller.claims.roles ∧ "warehouse-viewer-all" ∉ caller.claims.roles
  empty : DecidedByBranch caller.claims → caller.Found none → redis.connects = true →
    getStockByBranches σ caller productId redis keys = ⟨200, .branchStock productId []⟩
  failed : DecidedByBranch caller.claims → (∀ branch, ¬ caller.Found branch) →
    500 ≤ (getStockByBranches σ caller productId redis keys).status ∧
      (getStockByBranches σ caller productId redis keys).status < 600

section Refusal

variable {σ : Stock} {caller : Caller} {productId : String} {redis : Redis} {keys : List String}

theorem found_iff {branch : Option String} :
    caller.Found branch ↔ resolveOwnBranch caller.exchanged caller.lookup caller.claims = .ok branch :=
  resolveOwnBranch_eq_ok_iff.symm

theorem turnedAway_iff :
    caller.TurnedAway ↔ resolveOwnBranch caller.exchanged caller.lookup caller.claims = .error 403 :=
  resolveOwnBranch_eq_forbidden_iff.symm

theorem getStockByBranches_of_no_role (hviewer : "warehouse-viewer" ∉ caller.claims.roles)
    (hall : "warehouse-viewer-all" ∉ caller.claims.roles) :
    getStockByBranches σ caller productId redis keys = refuse 403 := by
  have hnone : ¬ caller.claims.hasAnyRole ["warehouse-viewer", "warehouse-viewer-all"] = true := by
    rw [Claims.hasAnyRole_pair]
    rintro (h | h)
    · exact hviewer h
    · exact hall h
  unfold getStockByBranches
  rw [if_pos hnone]

/-- A caller who sees all branches is never refused. -/
theorem status_of_all (hall : "warehouse-viewer-all" ∈ caller.claims.roles) :
    (getStockByBranches σ caller productId redis keys).status = if redis.connects then 200 else 500 := by
  rw [getStockByBranches_of_all hall]
  cases redis.connects with
  | false => rfl
  | true => rfl

/-- A failure of the server is the right answer if the lookup does not say that there is no branch. -/
theorem gated_of_failure {status : Status} (hone : DecidedByBranch caller.claims)
    (hstatus : 500 ≤ status ∧ status < 600)
    (hanswer : getStockByBranches σ caller productId redis keys = refuse status)
    (hnone : redis.connects = true → ¬ caller.Found none) : Gated σ caller productId redis keys := by
  have hsame : (getStockByBranches σ caller productId redis keys).status = status := by
    rw [hanswer]
    rfl
  constructor
  · refine iff_of_false ?_ fun h => h.1 hone.1
    rw [hsame]
    rintro rfl
    exact absurd hstatus.1 (by decide)
  · intro _ hfound hconnects
    exact absurd hfound (hnone hconnects)
  · intro _ _
    rw [hsame]
    exact hstatus

/-- A caller who sees one branch and is not turned away: each end of the lookup has an answer that is no
refusal. -/
theorem gated_of_decidedByBranch (hone : DecidedByBranch caller.claims)
    (hnot : redis.connects = true → ¬ caller.TurnedAway) : Gated σ caller productId redis keys := by
  have hanswer : getStockByBranches σ caller productId redis keys = _ :=
    getStockByBranches_of_decidedByBranch hone
  cases hconnects : redis.connects with
  | false =>
      rw [hconnects, if_neg Bool.false_ne_true] at hanswer
      refine gated_of_failure hone (by decide) hanswer ?_
      intro hup
      rw [hconnects] at hup
      cases hup
  | true =>
      rw [hconnects, if_pos rfl] at hanswer
      cases hresolve : resolveOwnBranch caller.exchanged caller.lookup caller.claims with
      | error status =>
          -- The lookup has failed without an answer of Employee Service, or with one that cannot be read.
          have hbad : status = 502 := by
            rcases resolveOwnBranch_error hresolve with rfl | h
            · exact absurd (turnedAway_iff.mpr hresolve) (hnot hconnects)
            · exact h
          subst hbad
          rw [hresolve] at hanswer
          refine gated_of_failure hone (by decide) hanswer ?_
          intro _ hfound
          rw [found_iff, hresolve] at hfound
          cases hfound
      | ok found =>
          rw [hresolve] at hanswer
          constructor
          · refine iff_of_false ?_ fun h => h.1 hone.1
            rw [hanswer]
            cases found with
            | none => exact nofun
            | some own => exact nofun
          · intro _ hfound _
            rw [found_iff, hresolve] at hfound
            cases hfound
            exact hanswer
          · intro _ hnone
            exact absurd (found_iff.mpr hresolve) (hnone found)

/-- **When the role alone decides**: unless a caller who sees one branch is turned away by Employee
Service. -/
theorem gated_iff :
    Gated σ caller productId redis keys ↔
      ¬ (DecidedByBranch caller.claims ∧ redis.connects = true ∧ caller.TurnedAway) := by
  constructor
  · rintro ⟨hforbidden, -, -⟩ ⟨hone, hconnects, hturned⟩
    -- The refusal of Employee Service is passed on.
    have hresolve := turnedAway_iff.mp hturned
    have hstatus : (getStockByBranches σ caller productId redis keys).status = 403 := by
      rw [getStockByBranches_of_decidedByBranch hone, if_pos hconnects, hresolve]
      rfl
    exact (hforbidden.mp hstatus).1 hone.1
  · intro hnot
    rcases role_cases caller.claims with ⟨hviewer, hall⟩ | hall | hone
    · constructor
      · rw [getStockByBranches_of_no_role hviewer hall]
        exact iff_of_true rfl ⟨hviewer, hall⟩
      · intro hone
        exact absurd hone.1 hviewer
      · intro hone
        exact absurd hone.1 hviewer
    · constructor
      · rw [status_of_all hall]
        refine iff_of_false ?_ fun h => h.2 hall
        cases redis.connects <;> decide
      · intro hone
        exact absurd hall hone.2
      · intro hone
        exact absurd hall hone.2
    · exact gated_of_decidedByBranch hone fun hconnects hturned => hnot ⟨hone, hconnects, hturned⟩

end Refusal

/-- A caller of one branch. -/
def tanaka : Claims := ⟨"sub-3", some "tanaka", ["warehouse-viewer"]⟩

/-- The caller, when Employee Service knows nobody. -/
def unknownCaller : Caller := ⟨tanaka, true, Employee.answer Employee.sampleHttp (fun _ => none) tanaka⟩

/-- **A refusal in spite of the role**: Employee Service answers 404, and the caller is answered 403. -/
theorem unknown_refused :
    unknownCaller.lookup "tanaka" = .answered 404 (some (Employee.detail "employee not found")) ∧
      getStockByBranches (fun _ => none) unknownCaller "product-A" ⟨true, true⟩ [] = refuse 403 ∧
      ¬ Gated (fun _ => none) unknownCaller "product-A" ⟨true, true⟩ [] := by
  have hplain : Whatwg.PlainName "tanaka" := by decide +kernel
  have hanswer : Employee.answer Employee.sampleHttp (fun _ => none) tanaka "tanaka" =
      .answered 404 (some (Employee.detail "employee not found")) :=
    @Employee.answer_self Employee.sampleHttp (fun _ => none) tanaka "tanaka"
      (Employee.leads_of_plain hplain) rfl
  have hresolve : resolveOwnBranch unknownCaller.exchanged unknownCaller.lookup unknownCaller.claims =
      .error 403 := by
    rw [resolveOwnBranch_eq_forbidden_iff]
    refine ⟨rfl, 404, some (Employee.detail "employee not found"), ?_, rfl⟩
    have husername : unknownCaller.claims.preferredUsername.getD "" = "tanaka" := rfl
    rw [husername]
    simp only [unknownCaller, hanswer]
  have hbranch : DecidedByBranch unknownCaller.claims := ⟨by decide, by decide⟩
  have hrefused : getStockByBranches (fun _ => none) unknownCaller "product-A" ⟨true, true⟩
      [] = refuse 403 := by
    rw [getStockByBranches_of_decidedByBranch hbranch, hresolve]
    rfl
  refine ⟨by simp only [unknownCaller, hanswer], hrefused, ?_⟩
  rintro ⟨hforbidden, -, -⟩
  rw [hrefused] at hforbidden
  exact (hforbidden.mp rfl).1 (by decide)

end Gekko.Warehouse
