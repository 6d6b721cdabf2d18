import Gekko.Lib.Machine
import Gekko.Lib.Pool
import Gekko.Warehouse.Script
import Gekko.Warehouse.Viewers


/-! # `Gekko.Warehouse.Scan` — a list of branches that is read while the stock changes

For a caller with `warehouse-viewer-all`, `get_stock_by_branches` asks Redis for the keys of a product
with `KEYS`, and then for each of them with a `GET` of its own. Reservations go on in between.

The machine interleaves any number of such requests with any executions of the script, for any way of
matching keys. `scan_current` says what an answer is worth: its branches are those that were there at
the `KEYS`, each once; each quantity was the right one at some moment since; and as long as nothing is
put back, it lies between the quantity at the `KEYS` and the one at the end. The quantities need not
have been right together: in `torn` they never were.
-/

namespace Gekko.Warehouse

open Machine

/-! ## The machine -/

/-- A request that has had its answer to `KEYS`. -/
structure Scan where
  productId : String
  /-- How many executions there were before. -/
  startedAt : Nat
  /-- The keys that are still to be read. -/
  keys : List String
  /-- The answer so far. -/
  branches : List (String × Int)
  deriving DecidableEq, Repr

structure Scans where
  stock : Stock
  /-- What the stock was before each execution. -/
  earlier : List Stock
  scans : List Scan

inductive ScanAction where
  /-- `KEYS stock:*:{product_id}` is answered. -/
  | keys (productId : String) (keys : List String)
  /-- The body of the loop, for the next key of scan `i`. The answer to the `GET` may not arrive. -/
  | get (i : Nat) (answers : Bool)
  | execute (e : Execution)
  deriving DecidableEq, Repr

def Scans.start (σ : Stock) : Scans := ⟨σ, [], []⟩

/-- The body of the loop. -/
def Scan.read (scan : Scan) (redis : Redis) (σ : Stock) (key : String) : Scan :=
  match branchOfKey scan.productId key with
  | none => { scan with keys := scan.keys.tail }
  | some branch =>
      { scan with keys := scan.keys.tail, branches := scan.branches ++ [(branch, redis.get σ key)] }

def scanStep (s : Scans) : ScanAction → Option Scans
  | .keys productId keys => some { s with scans := s.scans ++ [⟨productId, s.earlier.length, keys, []⟩] }
  | .get i answers =>
      match s.scans[i]? with
      | none => none
      | some scan =>
          match scan.keys with
          | [] => none
          | key :: _ => some { s with scans := s.scans.set i (scan.read ⟨true, answers⟩ s.stock key) }
  | .execute e => some { s with stock := (execute s.stock e).2, earlier := s.earlier ++ [s.stock] }

/-- What the stock has been. -/
def Scans.stocks (s : Scans) : List Stock := s.earlier ++ [s.stock]

/-- What it has been since the `KEYS` of a scan. -/
def Scans.window (s : Scans) (scan : Scan) : List Stock := s.stocks.drop scan.startedAt

/-- Redis answers a `KEYS` with what is there and matches, and with nothing twice. -/
def AnswersKeys (globs : String → String → Bool) (s : Scans) : ScanAction → Prop
  | .keys productId keys => KeysAnswer globs s.stock productId keys ∧ keys.Nodup
  | _ => True

/-! ## What a step can do -/

/-- The ways a step can change the state. -/
inductive Scanned (s : Scans) : ScanAction → Scans → Prop where
  | started (productId : String) (keys : List String) :
      Scanned s (.keys productId keys)
        { s with scans := s.scans ++ [⟨productId, s.earlier.length, keys, []⟩] }
  | skipped (i : Nat) (answers : Bool) (scan : Scan) (key : String) (rest : List String)
      (hscan : s.scans[i]? = some scan)
      (hkeys : scan.keys = key :: rest) (hbranch : branchOfKey scan.productId key = none) :
      Scanned s (.get i answers) { s with scans := s.scans.set i { scan with keys := rest } }
  | got (i : Nat) (answers : Bool) (scan : Scan) (branch : String) (rest : List String)
      (hscan : s.scans[i]? = some scan)
      (hkeys : scan.keys = stockKey branch scan.productId :: rest) :
      Scanned s (.get i answers)
        { s with
          scans := s.scans.set i
            { scan with
              keys := rest
              branches := scan.branches ++
                [(branch, Redis.get ⟨true, answers⟩ s.stock (stockKey branch scan.productId))] } }
  | executed (e : Execution) :
      Scanned s (.execute e) { s with stock := (execute s.stock e).2, earlier := s.earlier ++ [s.stock] }

/-- **Inversion of a step.** -/
theorem scanned_of_scanStep {s s' : Scans} {a : ScanAction} (h : scanStep s a = some s') :
    Scanned s a s' := by
  cases a with
  | keys productId keys =>
      cases h
      exact .started productId keys
  | execute e =>
      cases h
      exact .executed e
  | get i answers =>
      simp only [scanStep] at h
      split at h
      · cases h
      · rename_i scan hscan
        split at h
        · cases h
        · rename_i key rest hkeys
          cases h
          unfold Scan.read
          cases hbranch : branchOfKey scan.productId key with
          | none =>
              rw [hkeys]
              exact .skipped i answers scan key rest hscan hkeys hbranch
          | some branch =>
              have hkey := branchOfKey_eq_some_iff.mp hbranch
              subst hkey
              rw [hkeys]
              exact .got i answers scan branch rest hscan hkeys

/-! ## Nothing in between -/

/-- What is read of a key when nothing changes. -/
def listed (σ : Stock) (productId key : String) : Option (String × Int) :=
  (branchOfKey productId key).map fun branch => (branch, σ.current key)

theorem run_gets (keys : List String) (s : Scans) {i : Nat} {scan : Scan} (hscan : s.scans[i]? = some scan)
    (hkeys : scan.keys = keys) :
    run scanStep s (List.replicate keys.length (.get i true)) =
      some
        { s with
          scans := s.scans.set i
            { scan with
              keys := []
              branches := scan.branches ++ keys.filterMap (listed s.stock scan.productId) } } := by
  obtain ⟨hlt, hget⟩ := List.getElem?_eq_some_iff.mp hscan
  induction keys generalizing s scan with
  | nil =>
      have hsame : { scan with keys := [], branches := scan.branches ++ [] } = scan := by
        rw [← hkeys, List.append_nil]
      show some s = _
      rw [List.filterMap_nil, hsame, ← hget, List.set_getElem_self]
  | cons key keys ih =>
      have hstep : scanStep s (.get i true) =
          some { s with scans := s.scans.set i (scan.read ⟨true, true⟩ s.stock key) } := by
        simp only [scanStep, hscan, hkeys]
      have hread : scan.read ⟨true, true⟩ s.stock key =
          { scan with
            keys := keys
            branches := scan.branches ++ (listed s.stock scan.productId key).toList } := by
        unfold Scan.read listed
        rw [hkeys]
        cases branchOfKey scan.productId key with
        | none => exact congrArg (fun branches => Scan.mk _ _ _ branches) (List.append_nil _).symm
        | some branch => rfl
      have hset : (s.scans.set i (scan.read ⟨true, true⟩ s.stock key))[i]? =
          some { scan with
            keys := keys
            branches := scan.branches ++ (listed s.stock scan.productId key).toList } := by
        rw [hread, List.getElem?_set_self hlt]
      obtain ⟨hlt', hget'⟩ := List.getElem?_eq_some_iff.mp hset
      rw [List.length_cons, List.replicate_succ, run_cons, hstep, Option.bind_some,
        ih { s with scans := s.scans.set i (scan.read ⟨true, true⟩ s.stock key) } hset rfl hlt' hget']
      simp only [List.set_set, List.append_assoc]
      cases hlisted : listed s.stock scan.productId key with
      | none => rw [List.filterMap_cons_none hlisted, Option.toList_none, List.nil_append]
      | some m => rw [List.filterMap_cons_some hlisted, Option.toList_some, List.singleton_append]

/-- **A scan with nothing in between** ends with the answer of `getStockByBranches`. -/
theorem undisturbed (s : Scans) {caller : Caller} (hall : "warehouse-viewer-all" ∈ caller.claims.roles)
    (productId : String) (keys : List String) :
    ∃ s' scan,
      run scanStep s (.keys productId keys :: List.replicate keys.length (.get s.scans.length true)) =
        some s' ∧
      s'.scans[s.scans.length]? = some scan ∧ scan.keys = [] ∧
      getStockByBranches s.stock caller productId ⟨true, true⟩ keys =
        ⟨200, .branchStock productId scan.branches⟩ := by
  have hscan : (s.scans ++ [⟨productId, s.earlier.length, keys, []⟩])[s.scans.length]? =
      some (⟨productId, s.earlier.length, keys, []⟩ : Scan) := List.getElem?_concat_length
  have hrun := run_gets keys { s with scans := s.scans ++ [⟨productId, s.earlier.length, keys, []⟩] }
    hscan rfl
  exact ⟨_, ⟨productId, s.earlier.length, [], keys.filterMap (listed s.stock productId)⟩, hrun,
    List.getElem?_set_self (List.getElem?_eq_some_iff.mp hscan).1, rfl, getStockByBranches_of_all hall⟩

/-! ## The branches -/

/-- The branches that a scan has read or will read are those whose keys were there when it started. -/
structure Scans.Lists (globs : String → String → Bool) (s : Scans) (scan : Scan) : Prop where
  started : scan.startedAt ≤ s.earlier.length
  branches : ∃ σ keys, s.stocks[scan.startedAt]? = some σ ∧ KeysAnswer globs σ scan.productId keys ∧
    keys.Nodup ∧ scan.branches.map (·.1) ++ scan.keys.filterMap (branchOfKey scan.productId) =
      keys.filterMap (branchOfKey scan.productId)

section Branches

variable {globs : String → String → Bool} {s s' : Scans} {a : ScanAction} {scan : Scan}

theorem stocks_getElem? {i : Nat} {σ : Stock} (h : s.stocks[i]? = some σ) (τ : Stock) :
    (Scans.stocks ⟨τ, s.earlier ++ [s.stock], s.scans⟩)[i]? = some σ :=
  Pool.getElem?_append_of_some h

theorem lists_step (h : ∀ scan ∈ s.scans, s.Lists globs scan) (hkeys : AnswersKeys globs s a)
    (hstep : scanStep s a = some s') : ∀ scan ∈ s'.scans, s'.Lists globs scan := by
  cases scanned_of_scanStep hstep with
  | started productId keys =>
      refine Pool.forall_mem_append_singleton (fun scan hscan =>
        ⟨(h scan hscan).started, (h scan hscan).branches⟩) ?_
      refine ⟨Nat.le_refl _, s.stock, keys, ?_, hkeys.1, hkeys.2, rfl⟩
      exact List.getElem?_concat_length
  | skipped i answers scan key rest hscan hcons hbranch =>
      obtain ⟨hstarted, σ, keys, hσ, hanswer, hnodup, hsame⟩ := h scan (List.mem_of_getElem? hscan)
      refine Pool.forall_mem_set (fun scan hscan => ⟨(h scan hscan).started, (h scan hscan).branches⟩) ?_
      refine ⟨hstarted, σ, keys, hσ, hanswer, hnodup, ?_⟩
      rw [hcons, List.filterMap_cons_none hbranch] at hsame
      exact hsame
  | got i answers scan branch rest hscan hcons =>
      obtain ⟨hstarted, σ, keys, hσ, hanswer, hnodup, hsame⟩ := h scan (List.mem_of_getElem? hscan)
      refine Pool.forall_mem_set (fun scan hscan => ⟨(h scan hscan).started, (h scan hscan).branches⟩) ?_
      refine ⟨hstarted, σ, keys, hσ, hanswer, hnodup, ?_⟩
      rw [hcons, List.filterMap_cons_some (branchOfKey_stockKey branch scan.productId)] at hsame
      rw [← hsame, List.map_append, List.append_assoc]
      rfl
  | executed e =>
      intro scan hscan
      obtain ⟨hstarted, σ, keys, hσ, hrest⟩ := h scan hscan
      refine ⟨?_, σ, keys, stocks_getElem? hσ _, hrest⟩
      rw [List.length_append]
      exact Nat.le_add_right_of_le hstarted

/-- The branches of an answer, when all keys have been read. -/
theorem Scans.Lists.mem_iff {σ : Stock} {keys : List String}
    (hanswer : KeysAnswer globs σ scan.productId keys)
    (hsame : scan.branches.map (·.1) = keys.filterMap (branchOfKey scan.productId)) (branch : String) :
    branch ∈ scan.branches.map (·.1) ↔
      (σ (stockKey branch scan.productId)).isSome = true ∧
        globs (pattern scan.productId) (stockKey branch scan.productId) = true := by
  rw [hsame, List.mem_filterMap, ← hanswer]
  constructor
  · rintro ⟨key, hkey, hbranch⟩
    rw [branchOfKey_eq_some_iff] at hbranch
    exact hbranch ▸ hkey
  · intro hkey
    exact ⟨_, hkey, branchOfKey_stockKey branch scan.productId⟩

/-- Different keys have different branches. -/
theorem nodup_branches {productId : String} {keys : List String} (h : keys.Nodup) :
    (keys.filterMap (branchOfKey productId)).Nodup := by
  refine h.filterMap fun key key' branch hbranch hbranch' => ?_
  exact (branchOfKey_eq_some_iff.mp hbranch).trans (branchOfKey_eq_some_iff.mp hbranch').symm

end Branches

/-! ## The quantities -/

/-- Each quantity of the scan was the right one at some moment since its `KEYS`. -/
def Scans.Reads (s : Scans) (scan : Scan) : Prop :=
  scan.startedAt ≤ s.earlier.length ∧
    ∀ m ∈ scan.branches, ∃ τ ∈ s.window scan, τ.current (stockKey m.1 scan.productId) = m.2

section Quantities

variable {s s' : Scans} {a : ScanAction} {scan : Scan} {i : Nat}

theorem window_executed (h : scan.startedAt ≤ s.earlier.length) (τ : Stock) :
    Scans.window ⟨τ, s.earlier ++ [s.stock], s.scans⟩ scan = s.window scan ++ [τ] := by
  show ((s.earlier ++ [s.stock]) ++ [τ]).drop scan.startedAt =
      (s.earlier ++ [s.stock]).drop scan.startedAt ++ [τ]
  apply List.drop_append_of_le_length
  rw [List.length_append]
  exact Nat.le_add_right_of_le h

theorem stock_mem_window (h : scan.startedAt ≤ s.earlier.length) : s.stock ∈ s.window scan := by
  show s.stock ∈ (s.earlier ++ [s.stock]).drop scan.startedAt
  rw [List.drop_append_of_le_length h]
  exact List.mem_append_right _ List.mem_cons_self

theorem reads_step (h : ∀ scan, s.scans[i]? = some scan → s.Reads scan) (hanswers : a ≠ .get i false)
    (hstep : scanStep s a = some s') : ∀ scan, s'.scans[i]? = some scan → s'.Reads scan := by
  cases scanned_of_scanStep hstep with
  | started productId keys =>
      intro scan hscan
      rcases Pool.getElem?_append_cases hscan with ⟨-, rfl⟩ | hold
      · exact ⟨Nat.le_refl _, nofun⟩
      · exact h scan hold
  | skipped j answers scan key rest hscan hcons hbranch =>
      intro scan' hscan'
      rcases Pool.getElem?_set_cases hscan' with ⟨rfl, rfl⟩ | ⟨-, hold⟩
      · exact h scan hscan
      · exact h scan' hold
  | got j answers scan branch rest hscan hcons =>
      intro scan' hscan'
      rcases Pool.getElem?_set_cases hscan' with ⟨rfl, rfl⟩ | ⟨-, hold⟩
      · obtain ⟨hstarted, hreads⟩ := h scan hscan
        refine ⟨hstarted, Pool.forall_mem_append_singleton hreads ⟨s.stock, stock_mem_window hstarted, ?_⟩⟩
        -- The answer has arrived, so it is what the stock is now.
        cases answers with
        | false => exact absurd rfl hanswers
        | true => rfl
      · exact h scan' hold
  | executed e =>
      intro scan hscan
      obtain ⟨hstarted, hreads⟩ := h scan hscan
      refine ⟨?_, fun m hm => ?_⟩
      · rw [List.length_append]
        exact Nat.le_add_right_of_le hstarted
      · obtain ⟨τ, hτ, hcurrent⟩ := hreads m hm
        refine ⟨τ, ?_, hcurrent⟩
        rw [window_executed hstarted]
        exact List.mem_append_left _ hτ

/-- The stock only goes down. -/
def Scans.Falls (s : Scans) : Prop := s.stocks.Pairwise fun σ τ => ∀ key, τ.current key ≤ σ.current key

theorem current_execute_le {σ : Stock} {e : Execution} (h : 0 ≤ e.quantity) (key : String) :
    (execute σ e).2.current key ≤ σ.current key := by
  by_cases hle : e.quantity ≤ σ.current e.key
  · rw [execute_of_le hle]
    by_cases hkey : key = e.key
    · subst hkey
      rw [Stock.current_decrBy_self]
      omega
    · rw [Stock.current_decrBy_of_ne hkey]
  · rw [execute_of_lt (by omega)]

theorem falls_step (h : s.Falls) (hquantity : ∀ e, a = .execute e → 0 ≤ e.quantity)
    (hstep : scanStep s a = some s') : s'.Falls := by
  cases scanned_of_scanStep hstep with
  | started productId keys => exact h
  | skipped j answers scan key rest hscan hcons hbranch => exact h
  | got j answers scan branch rest hscan hcons => exact h
  | executed e =>
      have hlast := fun key => current_execute_le (σ := s.stock) (hquantity e rfl) key
      unfold Scans.Falls Scans.stocks at h ⊢
      rw [List.pairwise_append]
      refine ⟨h, List.pairwise_singleton _ _, fun σ hσ τ hτ key => ?_⟩
      rw [List.mem_singleton.mp hτ]
      rcases List.mem_append.mp hσ with hold | hnow
      · have hstock := (List.pairwise_append.mp h).2.2 σ hold s.stock List.mem_cons_self key
        exact Int.le_trans (hlast key) hstock
      · rw [List.mem_singleton.mp hnow]
        exact hlast key

/-- A stock of the window lies between the first one and the last one. -/
theorem Scans.Falls.between (h : s.Falls) {σ τ : Stock} (hσ : s.stocks[scan.startedAt]? = some σ)
    (hτ : τ ∈ s.window scan)
    (key : String) : s.stock.current key ≤ τ.current key ∧ τ.current key ≤ σ.current key := by
  obtain ⟨hlt, hget⟩ := List.getElem?_eq_some_iff.mp hσ
  constructor
  · rcases List.mem_append.mp (List.mem_of_mem_drop hτ) with hold | hnow
    · exact (List.pairwise_append.mp h).2.2 τ hold s.stock List.mem_cons_self key
    · rw [List.mem_singleton.mp hnow]
  · unfold Scans.window at hτ
    rw [List.drop_eq_getElem_cons hlt, hget] at hτ
    have hpair : (s.stocks.drop scan.startedAt).Pairwise fun σ τ => ∀ key, τ.current key ≤ σ.current key :=
      List.Pairwise.sublist (List.drop_sublist _ _) h
    rw [List.drop_eq_getElem_cons hlt, hget, List.pairwise_cons] at hpair
    rcases List.mem_cons.mp hτ with rfl | hlater
    · exact Int.le_refl _
    · exact hpair.1 τ hlater key

end Quantities

/-! ## What an answer is worth -/

/-- **A list of branches, read while the stock changes.** When a scan has read all its keys, its answer
    has the branches whose keys were there and matched when it started, each of them once; each quantity
    was the right one at some moment since then; and if no execution has put anything back, it is at
    most what was there at the start, and at least what is there now. -/
theorem scan_current {globs : String → String → Bool} {σ₀ : Stock} {as : List ScanAction} {s : Scans}
    (hrun : run scanStep (Scans.start σ₀) as = some s)
    (hkeys : Along scanStep (AnswersKeys globs) (Scans.start σ₀) as)
    {i : Nat} {scan : Scan} (hscan : s.scans[i]? = some scan) (hdone : scan.keys = [])
    (hanswers : ScanAction.get i false ∉ as) :
    ∃ σ, s.stocks[scan.startedAt]? = some σ ∧ (scan.branches.map (·.1)).Nodup ∧
      (∀ branch, branch ∈ scan.branches.map (·.1) ↔ (σ (stockKey branch scan.productId)).isSome = true ∧
        globs (pattern scan.productId) (stockKey branch scan.productId) = true) ∧
      ∀ m ∈ scan.branches,
        (∃ τ ∈ s.window scan, τ.current (stockKey m.1 scan.productId) = m.2) ∧
          ((∀ e, ScanAction.execute e ∈ as → 0 ≤ e.quantity) →
            s.stock.current (stockKey m.1 scan.productId) ≤ m.2 ∧
            m.2 ≤ σ.current (stockKey m.1 scan.productId)) := by
  have hnone : ∀ scan ∈ (Scans.start σ₀).scans, False := fun scan hscan => List.not_mem_nil hscan
  have hlists : ∀ scan ∈ s.scans, s.Lists globs scan :=
    run_invariant_along (fun _ _ _ h hg hstep => lists_step h hg hstep)
      (fun scan hscan => (hnone scan hscan).elim) hkeys hrun
  have hreads : ∀ scan, s.scans[i]? = some scan → s.Reads scan := by
    refine run_invariant_along (G := fun _ a => a ≠ .get i false)
      (fun _ _ _ h hg hstep => reads_step h hg hstep)
      (fun scan hscan => (hnone scan (List.mem_of_getElem? hscan)).elim) (along_of_forall ?_) hrun
    rintro a ha rfl
    exact hanswers ha
  obtain ⟨-, σ, keys, hσ, hanswer, hnodup, hsame⟩ := hlists scan (List.mem_of_getElem? hscan)
  rw [hdone, List.filterMap_nil, List.append_nil] at hsame
  refine ⟨σ, hσ, hsame ▸ nodup_branches hnodup, Scans.Lists.mem_iff hanswer hsame, fun m hm => ?_⟩
  obtain ⟨τ, hτ, hcurrent⟩ := (hreads scan hscan).2 m hm
  refine ⟨⟨τ, hτ, hcurrent⟩, fun hquantities => ?_⟩
  have hfalls : s.Falls := by
    refine run_invariant_along (G := fun _ a => ∀ e, a = .execute e → 0 ≤ e.quantity)
      (fun _ _ _ h hg hstep => falls_step h hg hstep) ?_ (along_of_forall ?_) hrun
    · exact List.pairwise_singleton _ _
    rintro a ha e rfl
    exact hquantities e ha
  rw [← hcurrent]
  exact hfalls.between hσ hτ _

/-! ## Two branches -/

def twoBranches : Stock := record (record (fun _ => none) ⟨"tokyo", "product-A", 5⟩) ⟨"osaka", "product-A", 3⟩

/-- Both branches sell something after the one has been read and before the other is. -/
def tornRun : List ScanAction :=
  [.keys "product-A" [stockKey "tokyo" "product-A", stockKey "osaka" "product-A"], .get 0 true,
    .execute ⟨"tokyo", "product-A", 2⟩, .execute ⟨"osaka", "product-A", 1⟩, .get 0 true]

theorem tornRun_state : (run scanStep (Scans.start twoBranches) tornRun).map
      (fun s => (s.scans, s.stocks.map fun σ =>
        (σ.current (stockKey "tokyo" "product-A"), σ.current (stockKey "osaka" "product-A")))) =
    some ([⟨"product-A", 0, [], [("tokyo", 5), ("osaka", 2)]⟩], [(5, 3), (3, 3), (3, 2)]) := by
  decide +kernel

theorem twoBranches_keys : KeysAnswer Glob.accepts twoBranches "product-A"
    [stockKey "tokyo" "product-A", stockKey "osaka" "product-A"] := by
  have htokyo : Glob.accepts (pattern "product-A") (stockKey "tokyo" "product-A") = true := by decide +kernel
  have hosaka : Glob.accepts (pattern "product-A") (stockKey "osaka" "product-A") = true := by decide +kernel
  intro key
  unfold twoBranches record Recording.key
  by_cases ho : key = stockKey "osaka" "product-A"
  · subst ho
    simp [hosaka]
  · by_cases ht : key = stockKey "tokyo" "product-A"
    · subst ht
      simp [htokyo, ho]
    · simp [ho, ht]

theorem tornRun_keys : Along scanStep (AnswersKeys Glob.accepts) (Scans.start twoBranches) tornRun :=
  ⟨⟨twoBranches_keys, by decide +kernel⟩, fun _ _ =>
   ⟨trivial, fun _ _ => ⟨trivial, fun _ _ => ⟨trivial, fun _ _ =>
    ⟨trivial, fun _ _ => trivial⟩⟩⟩⟩⟩

theorem tornRun_current : ∃ s scan σ, run scanStep (Scans.start twoBranches) tornRun = some s ∧
    s.scans[0]? = some scan ∧ s.stocks[scan.startedAt]? = some σ ∧
      ∀ m ∈ scan.branches, s.stock.current (stockKey m.1 scan.productId) ≤ m.2 ∧
        m.2 ≤ σ.current (stockKey m.1 scan.productId) := by
  obtain ⟨s, hrun, hstate⟩ := Option.map_eq_some_iff.mp tornRun_state
  have hscans := (Prod.mk.inj hstate).1
  have hscan : s.scans[0]? = some ⟨"product-A", 0, [], [("tokyo", 5), ("osaka", 2)]⟩ := by
    rw [hscans]
    rfl
  obtain ⟨σ, hσ, -, -, hbranches⟩ := scan_current hrun tornRun_keys hscan rfl (by decide +kernel)
  refine ⟨s, _, σ, hrun, hscan, hσ, fun m hm => (hbranches m hm).2 ?_⟩
  intro e he
  have hall : ∀ a ∈ tornRun, ∀ e, a = .execute e → 0 ≤ e.quantity := by
    intro a ha
    simp only [tornRun, List.mem_cons, List.not_mem_nil, or_false] at ha
    rcases ha with rfl | rfl | rfl | rfl | rfl <;> intro e he <;> cases he <;> decide
  exact hall _ he e rfl

/-- **A list that never was**: at no moment did the branches have these quantities together. -/
theorem torn : ∃ s scan, run scanStep (Scans.start twoBranches) tornRun = some s ∧ s.scans[0]? = some scan ∧
    scan.keys = [] ∧ ∀ σ ∈ s.stocks, ¬ ∀ m ∈ scan.branches,
    σ.current (stockKey m.1 scan.productId) = m.2 := by
  obtain ⟨s, hrun, hstate⟩ := Option.map_eq_some_iff.mp tornRun_state
  obtain ⟨hscans, hstocks⟩ := Prod.mk.inj hstate
  have hscan : s.scans[0]? = some ⟨"product-A", 0, [], [("tokyo", 5), ("osaka", 2)]⟩ := by
    rw [hscans]
    rfl
  refine ⟨s, _, hrun, hscan, rfl, fun σ hσ hall => ?_⟩
  have htokyo : σ.current (stockKey "tokyo" "product-A") = 5 := hall ("tokyo", 5) List.mem_cons_self
  have hosaka : σ.current (stockKey "osaka" "product-A") = 2 :=
    hall ("osaka", 2) (List.mem_cons_of_mem _ List.mem_cons_self)
  have hpair := List.mem_map_of_mem (f := fun σ : Stock =>
    (σ.current (stockKey "tokyo" "product-A"), σ.current (stockKey "osaka" "product-A"))) hσ
  rw [hstocks, htokyo, hosaka] at hpair
  exact absurd hpair (by decide)

end Gekko.Warehouse
