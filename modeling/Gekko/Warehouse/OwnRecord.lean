import Gekko.Employee.Redirect
import Gekko.Lib.PathTrip
import Gekko.Warehouse.Viewers


/-! # `Gekko.Warehouse.OwnRecord` — whose record the own record is

Warehouse Service finds the branch of a caller with `GET /employees/{username}`, where the user name is
pasted into the URL as it stands in the token. What the URL parser and the router of Employee Service
make of it may be another name: `x/../bob` leads to `bob`, `%62ob` does too, and `bob/` is redirected
there.

`employeeRoute_eq_self_iff` says which names come back at once. `own_records_only` says that for all the
others nothing is at stake as long as the caller is no `hr-viewer`, since Employee Service compares the
name it gets with the one in the token: in no sequence of requests does the record of anybody else have
an influence. A caller with both roles, under a name that leads elsewhere, is taken for the one it leads
to.
-/

namespace Gekko.Warehouse

open Employee (Employees Http SameOwn Strays answer employeeRoute matchEmployee decodedPath sayingBranch)
open Serving
open Whatwg (Whole)

/-! ## The names that come back -/

section Names

variable {username path : String}

theorem matchEmployee_eq_some_iff :
    matchEmployee path = some username ↔
      path = "/employees/" ++ username ∧ username ≠ "" ∧ '/' ∉ username.toList := by
  constructor
  · intro h
    unfold matchEmployee at h
    simp only [] at h
    split at h
    · rename_i hpre
      obtain ⟨rest, hrest⟩ := List.isPrefixOf_iff_prefix.mp hpre
      rw [← hrest, List.drop_left] at h
      split at h
      · cases h
      · rename_i hrest'
        rw [not_or] at hrest'
        cases h
        refine ⟨?_, ?_, ?_⟩
        · rw [← String.toList_inj, String.toList_append, @String.toList_ofList rest]
          exact hrest.symm
        · intro hempty
          rw [← String.toList_eq_nil_iff, String.toList_ofList] at hempty
          exact hrest'.1 hempty
        · rw [String.toList_ofList]
          exact hrest'.2
    · cases h
  · rintro ⟨rfl, hne, hslash⟩
    exact Employee.matchEmployee_append hne hslash

/-- **Which user names come back** from the URL: those of one segment that the parser leaves whole,
without an escape. -/
theorem employeeRoute_eq_self_iff (username : String) :
    employeeRoute username = some username ↔
      username ≠ "" ∧ Whole username.toList ∧ Percent.hasEscape (Utf8.encode username) = false := by
  have hname : Whatwg.Ordinary "employees".toList := by decide +kernel
  have hescape : Percent.hasEscape ("employees".toList.flatMap String.utf8EncodeChar) = false := by
    decide +kernel
  have hpath : '/' ∉ username.toList →
      (decodedPath ("/employees/" ++ username) = "/employees/" ++ username ↔
        Whole username.toList ∧ Percent.hasEscape (Utf8.encode username) = false) := by
    intro hslash
    have hchild := Whatwg.decode_path_child_eq_iff hname hescape hslash
    have htext : ("/employees/" ++ username).toList = '/' :: ("employees".toList ++
        '/' :: username.toList) := by
      rw [String.toList_append]
      rfl
    rw [← htext, String.ofList_toList] at hchild
    exact hchild
  unfold employeeRoute
  rw [matchEmployee_eq_some_iff]
  constructor
  · rintro ⟨hdecoded, hne, hslash⟩
    exact ⟨hne, (hpath hslash).mp hdecoded⟩
  · rintro ⟨hne, hwhole, hfree⟩
    have hslash : '/' ∉ username.toList := by
      intro hmem
      exact absurd (hwhole.chars _ hmem).1 (by decide)
    exact ⟨(hpath hslash).mpr ⟨hwhole, hfree⟩, hne, hslash⟩

end Names

/-! ## The requests -/

/-- A request with a verified token, before Employee Service is asked. -/
inductive Visit where
  | getStock (claims : Claims) (exchanged : Bool) (productId : String) (redis : Redis) (keys : List String)
  | reserve (claims : Claims) (exchanged : Bool) (branch productId : String) (quantity : Int) (redis : Redis)

def Visit.claims : Visit → Claims
  | .getStock claims .. => claims
  | .reserve claims .. => claims

/-- The caller, when Employee Service has these records. -/
def callerIn (http : Http) (employees : Employees) (claims : Claims) (exchanged : Bool) : Caller :=
  ⟨claims, exchanged, answer http employees claims⟩

def Visit.request (http : Http) (employees : Employees) : Visit → Request
  | .getStock claims exchanged productId redis keys =>
      .getStock (callerIn http employees claims exchanged) productId redis keys
  | .reserve claims exchanged branch productId quantity redis =>
      .reserve (callerIn http employees claims exchanged) branch productId quantity redis

section Records

variable {http : Http} {employees others : Employees} {claims : Claims} {exchanged : Bool} {σ : Stock}

theorem getStockByBranches_congr {lookup lookup' : String → Lookup}
    (h : DecidedByBranch claims →
      lookup (claims.preferredUsername.getD "") = lookup' (claims.preferredUsername.getD ""))
    (productId : String) (redis : Redis) (keys : List String) :
    getStockByBranches σ ⟨claims, exchanged, lookup⟩ productId redis keys =
      getStockByBranches σ ⟨claims, exchanged, lookup'⟩ productId redis keys := by
  rcases role_cases claims with ⟨hviewer, hall⟩ | hall | hbranch
  · rw [getStockByBranches_of_no_role hviewer hall, getStockByBranches_of_no_role hviewer hall]
  · have hrole : claims.hasAnyRole ["warehouse-viewer-all"] = true :=
      (Claims.hasAnyRole_singleton _ _).mpr hall
    unfold getStockByBranches
    simp only [hrole, if_true]
  · have hcallers : ∀ lookup, DecidedByBranch (Caller.mk claims exchanged lookup).claims := fun _ => hbranch
    rw [getStockByBranches_of_decidedByBranch (hcallers lookup),
      getStockByBranches_of_decidedByBranch (hcallers lookup')]
    simp only [@resolveOwnBranch_congr exchanged lookup claims lookup' (h hbranch)]

/-- One request, with two tables that agree on the caller's record. -/
theorem serve_request_congr {v : Visit} (hstrays : ¬ Strays http v.claims)
    (hsame : SameOwn v.claims employees others) :
    serve σ (v.request http employees) = serve σ (v.request http others) := by
  cases v with
  | getStock claims exchanged productId redis keys =>
      have hanswer : DecidedByBranch claims →
          answer http employees claims (claims.preferredUsername.getD "") =
          answer http others claims (claims.preferredUsername.getD "") := fun hbranch =>
        Employee.answer_congr hbranch hstrays hsame
      show (getStockByBranches σ ⟨claims, exchanged, answer http employees claims⟩ productId redis keys, σ)
        = (_, σ)
      rw [getStockByBranches_congr hanswer]
      rfl
  | reserve claims exchanged branch productId quantity redis =>
      have hanswer : DecidedByBranch claims →
          answer http employees claims (claims.preferredUsername.getD "") =
          answer http others claims (claims.preferredUsername.getD "") := fun hbranch =>
        Employee.answer_congr hbranch hstrays hsame
      show reserveStock σ ⟨claims, exchanged, answer http employees claims⟩ branch productId quantity redis =
        reserveStock σ ⟨claims, exchanged, answer http others claims⟩ branch productId quantity redis
      unfold reserveStock
      simp only [@authorizeBranch_congr exchanged _ claims _ hanswer branch]

end Records

/-! ## Whose records count -/

/-- One record, of an employee of some branch. -/
def onlyRecord (name branch : String) : Employees := fun username =>
  if username = name then some (sayingBranch (.str branch)) else none

theorem lookup_onlyRecord {http : Http} {claims : Claims} {name branch : String}
    (hrole : "hr-viewer" ∈ claims.roles)
    (hleads : http.leads (claims.preferredUsername.getD "") = .employee name) :
    resolveOwnBranch true (answer http (onlyRecord name branch) claims) claims = .ok (some branch) := by
  have hrecord : onlyRecord name branch name = some (sayingBranch (.str branch)) := if_pos rfl
  rw [resolveOwnBranch_eq_ok_iff, Employee.answer_of_shown hleads (Or.inr hrole), hrecord]
  exact ⟨rfl, 200, .obj [("branch", .str branch)], rfl, rfl, rfl⟩

theorem callerIn_onlyRecord {http : Http} {claims : Claims} {name branch : String}
    (hbranch : DecidedByBranch claims) (hrole : "hr-viewer" ∈ claims.roles)
    (hleads : http.leads (claims.preferredUsername.getD "") = .employee name) :
    (callerIn http (onlyRecord name branch) claims true).OfBranch branch :=
  ⟨hbranch, lookup_onlyRecord hrole hleads⟩

/-- A look at the stock shows the caller's branch. -/
theorem branches_of_branch {caller : Caller} {own : String} (h : caller.OfBranch own) (σ : Stock) :
    (serve σ (.getStock caller "" ⟨true, true⟩ [])).1.body.branches = [own] := by
  rw [serve, getStockByBranches_of_branch h]
  rfl

/-- **Whose records count.** In any sequence of requests of callers none of whom strays, nobody's record
    but their own; and for a caller who strays, the record of somebody else. -/
theorem own_records_only (http : Http) :
    (∀ (visits : List Visit) (employees others : Employees) (σ : Stock),
      (∀ v ∈ visits, ¬ Strays http v.claims ∧ SameOwn v.claims employees others) →
        serveAll serve σ (visits.map (·.request http employees)) =
          serveAll serve σ (visits.map (·.request http others))) ∧
    ∀ claims, Strays http claims →
      ∃ (employees others : Employees) (v : Visit), v.claims = claims ∧ SameOwn claims employees others ∧
        ∀ σ, serve σ (v.request http employees) ≠ serve σ (v.request http others) := by
  constructor
  · intro visits employees others σ hvisits
    induction visits generalizing σ with
    | nil => rw [List.map_nil, List.map_nil]
    | cons v visits ih =>
        obtain ⟨hstrays, hsame⟩ := hvisits v List.mem_cons_self
        have hstep : serve σ (v.request http employees) = serve σ (v.request http others) :=
          serve_request_congr hstrays hsame
        rw [List.map_cons, List.map_cons, serveAll_cons, serveAll_cons, hstep,
          ih _ fun w hw => hvisits w (List.mem_cons_of_mem _ hw)]
  · rintro claims ⟨hbranch, hrole, name, hleads, hname⟩
    -- With one more record, of the name that the caller's own one leads to, there is a branch to see.
    refine ⟨onlyRecord name "tokyo", onlyRecord name "osaka", .getStock claims true "" ⟨true, true⟩ [],
      rfl, ?_, ?_⟩
    · intro username husername
      have hne : username ≠ name := by
        rintro rfl
        exact hname husername
      unfold onlyRecord
      rw [if_neg hne, if_neg hne]
    · intro σ hserve
      have hshown : ∀ branch,
          (serve σ (.getStock (callerIn http (onlyRecord name branch) claims true) ""
            ⟨true, true⟩ [])).1.body.branches = [branch] := fun branch =>
        branches_of_branch (callerIn_onlyRecord hbranch hrole hleads) σ
      have hserved :
          serve σ (.getStock (callerIn http (onlyRecord name "tokyo") claims true) "" ⟨true, true⟩ []) =
          serve σ (.getStock (callerIn http (onlyRecord name "osaka") claims true) "" ⟨true, true⟩ []) :=
        hserve
      have hsame : ["tokyo"] = ["osaka"] := by
        rw [← hshown "tokyo", hserved, hshown "osaka"]
      exact absurd hsame (by decide +kernel)

/-- A slash at the end of the name is enough. -/
example : Strays Employee.sampleHttp ⟨"sub-1", some "bob/", ["warehouse-viewer", "hr-viewer"]⟩ :=
  ⟨⟨by decide, by decide⟩, by decide, "bob", by decide +kernel, by decide⟩

end Gekko.Warehouse
