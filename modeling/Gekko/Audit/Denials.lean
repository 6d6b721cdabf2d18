import Gekko.Audit.LogLines
import Gekko.Warehouse.Branches


/-! # `Gekko.Audit.Denials` — why Warehouse Service says no

When the service itself turns a caller away it prints a line of type `authz_deny` with the reason: the
role is missing, the branch is another one, or Employee Service knows of no branch. The access log only
has the `403`, and not every `403` is the service's own: one from Employee Service is passed on without
a word.

Requests are served side by side, and their lines come out in any order. `refusals_read` says what can
be made of them nevertheless: the denials that are read out of the log are those of the requests for
which a row of the table says no, each of them once and with its reason, and a `403` without one is
Employee Service's.
-/

namespace Gekko.Warehouse

open Audit (Printed LogLine collect stdout springBoot springBoot_plain entry)

/-! ## What is printed -/

/-- What `log_authz_deny` is called with. -/
structure Denial where
  branch : String
  reason : String
  employeeBranch : Option String
  deriving DecidableEq, Repr

/-- `authorize_branch`, with its calls of `log_authz_deny`. -/
def authorizeBranchLogged (exchanged : Bool) (lookup : String → Lookup) (claims : Claims) (branch : String) :
    Except Status Unit × List Denial :=
  if ¬ claims.hasAnyRole ["warehouse-viewer", "warehouse-viewer-all"] then
    (.error 403, [⟨branch, "role_missing", none⟩])
  else if claims.hasAnyRole ["warehouse-viewer-all"] then (.ok (), [])
  else
    match resolveOwnBranch exchanged lookup claims with
    | .error status => (.error status, [])
    | .ok (some employeeBranch) =>
        if employeeBranch = branch then (.ok (), [])
        else (.error 403, [⟨branch, "branch_mismatch", some employeeBranch⟩])
    | .ok none => (.error 403, [⟨branch, "employee_branch_unknown", none⟩])

/-- The denials that the handler of a request prints. -/
def Request.denials : Request → List Denial
  | .getStock caller .. =>
      if ¬ caller.claims.hasAnyRole ["warehouse-viewer", "warehouse-viewer-all"]
        then [⟨"-", "role_missing", none⟩]
      else []
  | .reserve caller branch .. => (authorizeBranchLogged caller.exchanged caller.lookup caller.claims branch).2

/-- A request as it is served, with what the logs say of it. -/
structure Call where
  request : Request
  stock : Stock
  jti : Option String
  traceId : String
  method : String
  path : String
  durationMs : Int

def Call.sub (c : Call) : String := c.request.caller.claims.sub

def Call.response (c : Call) : Response := (serve c.stock c.request).1

/-- The line of a denial. -/
def Call.deny (c : Call) (d : Denial) : Audit.WarehouseDeny :=
  ⟨c.sub, c.jti.getD "-", c.traceId, d.branch, d.reason, d.employeeBranch⟩

/-- What is printed about a request. -/
def Call.printed (c : Call) : List Printed :=
  c.request.denials.map (fun d => .warehouseDeny (c.deny d)) ++
    [.warehouse ⟨c.method, c.path, c.response.status, c.durationMs, c.sub, c.jti.getD "-", c.traceId⟩]

/-! ## The table -/

/-- The rows by which the service refuses a request. -/
inductive Refused : Request → Denial → Prop where
  | stockRole {caller : Caller} {productId : String} {redis : Redis} {keys : List String}
      (hv : "warehouse-viewer" ∉ caller.claims.roles) (ha : "warehouse-viewer-all" ∉ caller.claims.roles) :
      Refused (.getStock caller productId redis keys) ⟨"-", "role_missing", none⟩
  | reserveRole {caller : Caller} {branch productId : String} {quantity : Int} {redis : Redis}
      (hv : "warehouse-viewer" ∉ caller.claims.roles) (ha : "warehouse-viewer-all" ∉ caller.claims.roles) :
      Refused (.reserve caller branch productId quantity redis) ⟨branch, "role_missing", none⟩
  | mismatch {caller : Caller} {branch productId own : String} {quantity : Int} {redis : Redis}
      (hcaller : caller.OfBranch own) (hne : own ≠ branch) :
      Refused (.reserve caller branch productId quantity redis) ⟨branch, "branch_mismatch", some own⟩
  | unknown {caller : Caller} {branch productId : String} {quantity : Int} {redis : Redis}
      (hb : DecidedByBranch caller.claims)
      (hnone : resolveOwnBranch caller.exchanged caller.lookup caller.claims = .ok none) :
      Refused (.reserve caller branch productId quantity redis) ⟨branch, "employee_branch_unknown", none⟩

/-- The handler asks Employee Service, which answers with something else than a success. -/
def Request.EmployeeRefuses : Request → Prop
  | .getStock caller _ redis _ =>
      redis.connects = true ∧ DecidedByBranch caller.claims ∧
        resolveOwnBranch caller.exchanged caller.lookup caller.claims = .error 403
  | .reserve caller .. =>
      DecidedByBranch caller.claims ∧
        resolveOwnBranch caller.exchanged caller.lookup caller.claims = .error 403

section Requests

variable {exchanged : Bool} {lookup : String → Lookup} {claims : Claims} {caller : Caller}
  {branch productId : String}
  {quantity : Int} {redis : Redis} {keys : List String} {request : Request} {σ : Stock} {d : Denial}

/-- The prints change nothing. -/
theorem authorizeBranchLogged_fst :
    (authorizeBranchLogged exchanged lookup claims branch).1 =
      authorizeBranch exchanged lookup claims branch := by
  unfold authorizeBranchLogged authorizeBranch
  split
  · rfl
  · split
    · rfl
    · cases resolveOwnBranch exchanged lookup claims with
      | error status => rfl
      | ok found =>
          cases found with
          | none => rfl
          | some own => by_cases hown : own = branch <;> simp [hown]

theorem denials_of_no_role (hv : "warehouse-viewer" ∉ claims.roles)
    (ha : "warehouse-viewer-all" ∉ claims.roles) :
    (authorizeBranchLogged exchanged lookup claims branch).2 = [⟨branch, "role_missing", none⟩] := by
  have hany := Claims.hasAnyRole_pair claims "warehouse-viewer" "warehouse-viewer-all"
  unfold authorizeBranchLogged
  rw [if_pos]
  rw [hany]
  exact fun h => h.elim hv ha

theorem denials_of_all (ha : "warehouse-viewer-all" ∈ claims.roles) :
    (authorizeBranchLogged exchanged lookup claims branch).2 = [] := by
  have hany := Claims.hasAnyRole_pair claims "warehouse-viewer" "warehouse-viewer-all"
  have hall := Claims.hasAnyRole_singleton claims "warehouse-viewer-all"
  unfold authorizeBranchLogged
  rw [if_neg, if_pos (hall.mpr ha)]
  rw [hany]
  exact fun h => h (.inr ha)

theorem denials_of_decidedByBranch (h : DecidedByBranch claims) :
    (authorizeBranchLogged exchanged lookup claims branch).2 =
      match resolveOwnBranch exchanged lookup claims with
      | .error _ => []
      | .ok (some own) => if own = branch then [] else [⟨branch, "branch_mismatch", some own⟩]
      | .ok none => [⟨branch, "employee_branch_unknown", none⟩] := by
  have hany := Claims.hasAnyRole_pair claims "warehouse-viewer" "warehouse-viewer-all"
  have hall := Claims.hasAnyRole_singleton claims "warehouse-viewer-all"
  unfold authorizeBranchLogged
  rw [if_neg, if_neg]
  · cases resolveOwnBranch exchanged lookup claims with
    | error status => rfl
    | ok found =>
        cases found with
        | none => rfl
        | some own => by_cases hown : own = branch <;> simp [hown]
  · rw [hall]
    exact h.2
  · rw [hany]
    exact fun hc => hc (.inl h.1)

theorem denials_getStock_of_no_role (hv : "warehouse-viewer" ∉ caller.claims.roles)
    (ha : "warehouse-viewer-all" ∉ caller.claims.roles) :
    (Request.getStock caller productId redis keys).denials = [⟨"-", "role_missing", none⟩] := by
  have hany := Claims.hasAnyRole_pair caller.claims "warehouse-viewer" "warehouse-viewer-all"
  apply if_pos
  rw [hany]
  exact fun h => h.elim hv ha

theorem denials_getStock_of_role
    (h : "warehouse-viewer" ∈ caller.claims.roles ∨ "warehouse-viewer-all" ∈ caller.claims.roles) :
    (Request.getStock caller productId redis keys).denials = [] := by
  apply if_neg
  rw [Claims.hasAnyRole_pair]
  exact fun hnot => hnot h

/-- The denials, row by row. -/
theorem denials_cases (request : Request) :
    (request.denials = [] ∧ ∀ d, ¬ Refused request d) ∨
      ∃ d, request.denials = [d] ∧ ∀ d', Refused request d' ↔ d' = d := by
  cases request with
  | getStock caller productId redis keys =>
      rcases role_cases caller.claims with ⟨hv, ha⟩ | hrole
      · refine .inr ⟨_, denials_getStock_of_no_role hv ha, fun d' => ⟨?_, ?_⟩⟩
        · rintro (_ | _)
          rfl
        · rintro rfl
          exact .stockRole hv ha
      · have hrole : "warehouse-viewer" ∈ caller.claims.roles ∨
            "warehouse-viewer-all" ∈ caller.claims.roles :=
          hrole.symm.imp And.left id
        refine .inl ⟨denials_getStock_of_role hrole, ?_⟩
        rintro d (⟨hv, ha⟩ | _)
        exact hrole.elim hv ha
  | reserve caller branch productId quantity redis =>
      have hdenials : (Request.reserve caller branch productId quantity redis).denials =
          (authorizeBranchLogged caller.exchanged caller.lookup caller.claims branch).2 := rfl
      rw [hdenials]
      rcases role_cases caller.claims with ⟨hv, ha⟩ | ha | hb
      · refine .inr ⟨_, denials_of_no_role hv ha, fun d' => ⟨?_, ?_⟩⟩
        · rintro (_ | _ | ⟨hcaller, -⟩ | ⟨hb, -⟩)
          · rfl
          · exact absurd hcaller.1.1 hv
          · exact absurd hb.1 hv
        · rintro rfl
          exact .reserveRole hv ha
      · refine .inl ⟨denials_of_all ha, ?_⟩
        rintro d (_ | ⟨-, hna⟩ | ⟨hcaller, -⟩ | ⟨hb, -⟩)
        · exact hna ha
        · exact hcaller.1.2 ha
        · exact hb.2 ha
      · rw [denials_of_decidedByBranch hb]
        cases hfound : resolveOwnBranch caller.exchanged caller.lookup caller.claims with
        | error status =>
            refine .inl ⟨rfl, ?_⟩
            rintro d (_ | ⟨hv, -⟩ | ⟨hcaller, -⟩ | ⟨-, hnone⟩)
            · exact hv hb.1
            · cases hfound.symm.trans hcaller.2
            · cases hfound.symm.trans hnone
        | ok found =>
            cases found with
            | none =>
                refine .inr ⟨_, rfl, fun d' => ⟨?_, ?_⟩⟩
                · rintro (_ | ⟨hv, -⟩ | ⟨hcaller, -⟩ | _)
                  · exact absurd hb.1 hv
                  · cases hfound.symm.trans hcaller.2
                  · rfl
                · rintro rfl
                  exact .unknown hb hfound
            | some own =>
                by_cases hown : own = branch
                · refine .inl ⟨if_pos hown, ?_⟩
                  rintro d (_ | ⟨hv, -⟩ | ⟨hcaller, hne⟩ | ⟨-, hnone⟩)
                  · exact hv hb.1
                  · cases hfound.symm.trans hcaller.2
                    exact hne hown
                  · cases hfound.symm.trans hnone
                · refine .inr ⟨_, if_neg hown, fun d' => ⟨?_, ?_⟩⟩
                  · rintro (_ | ⟨hv, -⟩ | ⟨hcaller, -⟩ | ⟨-, hnone⟩)
                    · exact absurd hb.1 hv
                    · cases hfound.symm.trans hcaller.2
                      rfl
                    · cases hfound.symm.trans hnone
                  · rintro rfl
                    exact .mismatch ⟨hb, hfound⟩ hown

theorem mem_denials_iff : d ∈ request.denials ↔ Refused request d := by
  rcases denials_cases request with ⟨hnil, hno⟩ | ⟨d', hone, hiff⟩
  · rw [hnil]
    exact ⟨nofun, fun h => absurd h (hno d)⟩
  · rw [hone, List.mem_singleton, hiff]

/-! ## Whose a `403` is -/

theorem getStock_forbidden_iff :
    (getStockByBranches σ caller productId redis keys).status = 403 ↔
      ("warehouse-viewer" ∉ caller.claims.roles ∧ "warehouse-viewer-all" ∉ caller.claims.roles) ∨
        (redis.connects = true ∧ DecidedByBranch caller.claims ∧
          resolveOwnBranch caller.exchanged caller.lookup caller.claims = .error 403) := by
  have hany := Claims.hasAnyRole_pair caller.claims "warehouse-viewer" "warehouse-viewer-all"
  rcases role_cases caller.claims with ⟨hv, ha⟩ | ha | hb
  · have hrefuse : getStockByBranches σ caller productId redis keys = refuse 403 := by
      apply if_pos
      rw [hany]
      exact fun h => h.elim hv ha
    rw [hrefuse]
    exact iff_of_true rfl (.inl ⟨hv, ha⟩)
  · have hall := Claims.hasAnyRole_singleton caller.claims "warehouse-viewer-all"
    unfold getStockByBranches
    rw [if_neg (not_not.mpr (hany.mpr (.inr ha))), if_pos (hall.mpr ha)]
    refine iff_of_false ?_ ?_
    · cases redis.connects <;> simp [refuse]
    · rintro (⟨-, hna⟩ | ⟨-, hb, -⟩)
      · exact hna ha
      · exact hb.2 ha
  · have hrole : ¬ ("warehouse-viewer" ∉ caller.claims.roles ∧
                    "warehouse-viewer-all" ∉ caller.claims.roles) :=
      fun h => h.1 hb.1
    rw [getStockByBranches_of_decidedByBranch hb]
    cases redis.connects with
    | false => simp [hrole, refuse]
    | true =>
        cases resolveOwnBranch caller.exchanged caller.lookup caller.claims with
        | error status => simp [hrole, hb, refuse]
        | ok found => cases found <;> simp [hrole]

theorem reserve_forbidden_iff :
    (reserveStock σ caller branch productId quantity redis).1.status = 403 ↔
      authorizeBranch caller.exchanged caller.lookup caller.claims branch = .error 403 := by
  unfold reserveStock
  cases authorizeBranch caller.exchanged caller.lookup caller.claims branch with
  | error status => simp [refuse]
  | ok u =>
      refine iff_of_false ?_ nofun
      simp only
      split
      · simp [refuse]
      · split
        · simp [refuse]
        · split <;> simp [refuse]

/-- A `403` is a refusal by the table, or Employee Service's. -/
theorem status_eq_forbidden_iff :
    (serve σ request).1.status = 403 ↔ (∃ d, Refused request d) ∨ request.EmployeeRefuses := by
  cases request with
  | getStock caller productId redis keys =>
      show (getStockByBranches σ caller productId redis keys).status = 403 ↔ _
      rw [getStock_forbidden_iff]
      refine or_congr ⟨?_, ?_⟩ Iff.rfl
      · rintro ⟨hv, ha⟩
        exact ⟨_, .stockRole hv ha⟩
      · rintro ⟨d, ⟨hv, ha⟩ | _⟩
        exact ⟨hv, ha⟩
  | reserve caller branch productId quantity redis =>
      show (reserveStock σ caller branch productId quantity redis).1.status = 403 ↔ _
      rw [reserve_forbidden_iff, authorizeBranch_eq_forbidden_iff]
      constructor
      · rintro (⟨hv, ha⟩ | ⟨hb, herror | ⟨found, hfound, hne⟩⟩)
        · exact .inl ⟨_, .reserveRole hv ha⟩
        · exact .inr ⟨hb, herror⟩
        · cases found with
          | none => exact .inl ⟨_, .unknown hb hfound⟩
          | some own =>
              refine .inl ⟨_, .mismatch ⟨hb, hfound⟩ ?_⟩
              rintro rfl
              exact hne rfl
      · rintro (⟨d, _ | ⟨hv, ha⟩ | ⟨hcaller, hne⟩ | ⟨hb, hnone⟩⟩ | ⟨hb, herror⟩)
        · exact .inl ⟨hv, ha⟩
        · exact .inr ⟨hcaller.1, .inr ⟨_, hcaller.2, fun h => hne (Option.some.inj h)⟩⟩
        · exact .inr ⟨hb, .inr ⟨_, hnone, nofun⟩⟩
        · exact .inr ⟨hb, .inl herror⟩

end Requests

/-! ## What is read -/

/-- What stands in an entry of type `authz_deny`. -/
structure DenialEntry where
  sub : Option String
  jti : Option String
  traceId : Option String
  branch : Option String
  reason : Option String
  employeeBranch : Option String
  deriving DecidableEq, Repr

def readDenial (e : LogLine) : DenialEntry :=
  ⟨e.get "sub", e.get "jti", e.get "trace_id", e.get "branch", e.get "reason", e.get "employee_branch"⟩

def isDenial (e : LogLine) : Bool := e.get "type" == some "authz_deny"

/-- The entry for a denial of the call. -/
def Call.denialEntry (c : Call) (d : Denial) : DenialEntry :=
  ⟨some c.sub, some (c.jti.getD "-"), some c.traceId, some d.branch, some d.reason, d.employeeBranch⟩

/-- The denial that Warehouse Service prints. -/
def printedDenial? : Printed → Option DenialEntry
  | .warehouseDeny d =>
      some ⟨some d.sub, some d.jti, some d.traceId, some d.branch, some d.reason, d.employeeBranch⟩
  | _ => none

section Reading

variable {service : String} {tsNs : Int}

/-- The two kinds of lines that Warehouse Service prints. -/
def OfWarehouse (p : Printed) : Prop := (∃ a, p = .warehouse a) ∨ ∃ d, p = .warehouseDeny d

theorem ofWarehouse_printed (c : Call) : ∀ p ∈ c.printed, OfWarehouse p := by
  intro p hp
  rcases List.mem_append.mp hp with h | h
  · obtain ⟨d, -, rfl⟩ := List.mem_map.mp h
    exact .inr ⟨_, rfl⟩
  · rw [List.mem_singleton.mp h]
    exact .inl ⟨_, rfl⟩

theorem isDenial_entry (p : Printed) :
    isDenial (entry service tsNs (p.text springBoot)) = (p.told.type == some "authz_deny") := by
  rw [← @Audit.told_text springBoot service tsNs springBoot_plain p]
  rfl

theorem readDenial_entry (d : Audit.WarehouseDeny) :
    readDenial (entry service tsNs ((Printed.warehouseDeny d).text springBoot)) =
      ⟨some d.sub, some d.jti, some d.traceId, some d.branch, some d.reason, d.employeeBranch⟩ := by
  show readDenial (entry service tsNs (Audit.display.object d.sorted)) = _
  unfold readDenial
  simp only [Audit.get_entry Audit.display_readable]
  obtain ⟨sub, jti, traceId, branch, reason, employeeBranch⟩ := d
  cases employeeBranch <;> rfl

theorem readDenials_eq (ps : List (Printed × Int)) (hps : ∀ p ∈ ps, OfWarehouse p.1) :
    ((ps.map fun p => entry service p.2 (p.1.text springBoot)).filter isDenial).map readDenial =
      (ps.map (·.1)).filterMap printedDenial? := by
  induction ps with
  | nil => rfl
  | cons p ps ih =>
      have hrest := ih fun q hq => hps q (List.mem_cons_of_mem _ hq)
      have htype := @isDenial_entry service p.2 p.1
      rw [List.map_cons, List.map_cons]
      rcases hps p List.mem_cons_self with ⟨a, ha⟩ | ⟨d, hd⟩
      · have hno : isDenial (entry service p.2 (p.1.text springBoot)) = false := by
          rw [htype, ha]
          rfl
        have hnone : printedDenial? p.1 = none := by
          rw [ha]
          rfl
        rw [List.filter_cons_of_neg (by rw [hno]; exact Bool.false_ne_true),
          List.filterMap_cons_none hnone, hrest]
      · have hyes : isDenial (entry service p.2 (p.1.text springBoot)) = true := by
          rw [htype, hd]
          rfl
        have hsome : printedDenial? p.1 = some (readDenial (entry service p.2 (p.1.text springBoot))) := by
          rw [hd, readDenial_entry]
          rfl
        rw [List.filter_cons_of_pos hyes, List.map_cons, List.filterMap_cons_some hsome, hrest]

theorem filterMap_printed (calls : List Call) :
    (calls.flatMap Call.printed).filterMap printedDenial? =
      calls.flatMap fun c => c.request.denials.map c.denialEntry := by
  have hone : ∀ c : Call, c.printed.filterMap printedDenial? = c.request.denials.map c.denialEntry := by
    intro c
    have hdenials : (c.request.denials.map fun d =>
                      Printed.warehouseDeny (c.deny d)).filterMap printedDenial? =
        c.request.denials.map c.denialEntry := by
      rw [List.filterMap_map]
      exact congrFun (List.filterMap_eq_map' (f := c.denialEntry)) _
    unfold Call.printed
    rw [List.filterMap_append, hdenials]
    exact List.append_nil _
  rw [List.filterMap_flatMap]
  simp only [hone]

end Reading

/-- **What the denials in the log are worth.** Of requests that are served side by side, the lines come
    out in any order. The denials that are read are those that were made, each of them once; a request
    has one exactly if a row of the table refuses it; and a `403` without one is Employee Service's. -/
theorem refusals_read (calls : List Call) (ps : List (Printed × Int))
    (hps : (ps.map (·.1)).Perm (calls.flatMap Call.printed)) :
    (((collect "warehouse-service" (ps.map (·.2)) (stdout springBoot (ps.map (·.1)))).filter isDenial).map
        readDenial).Perm (calls.flatMap fun c => c.request.denials.map c.denialEntry) ∧
      ∀ c ∈ calls, c.request.denials.length ≤ 1 ∧ (∀ d, d ∈ c.request.denials ↔ Refused c.request d) ∧
        (c.response.status = 403 ↔ c.request.denials ≠ [] ∨ c.request.EmployeeRefuses) := by
  constructor
  · have hkind : ∀ p ∈ ps, OfWarehouse p.1 := by
      intro p hp
      obtain ⟨c, -, hc⟩ := List.mem_flatMap.mp (hps.mem_iff.mp (List.mem_map.mpr ⟨p, hp, rfl⟩))
      exact ofWarehouse_printed c p.1 hc
    rw [Audit.collect_eq springBoot_plain, readDenials_eq ps hkind, ← filterMap_printed]
    exact hps.filterMap _
  · intro c _
    refine ⟨?_, fun d => mem_denials_iff, ?_⟩
    · rcases denials_cases c.request with ⟨hnil, -⟩ | ⟨d, hone, -⟩
      · rw [hnil]
        exact Nat.zero_le 1
      · rw [hone]
        exact Nat.le_refl 1
    · have hdenied : (∃ d, Refused c.request d) ↔ c.request.denials ≠ [] := by
        rcases denials_cases c.request with ⟨hnil, hno⟩ | ⟨d, hone, hiff⟩
        · rw [hnil]
          exact iff_of_false (fun ⟨d, h⟩ => hno d h) fun h => h rfl
        · rw [hone]
          exact iff_of_true ⟨d, (hiff d).mpr rfl⟩ (List.cons_ne_nil _ _)
      unfold Call.response
      rw [status_eq_forbidden_iff, hdenied]

/-- A caller without a role. -/
def roleless : Caller := ⟨⟨"sub-2", some "suzuki", []⟩, true, fun _ => .unreachable⟩

/-- A caller of the branch `tokyo` asks for another branch's stock to be reserved, and the other one for
a list. -/
def twoCalls : List Call :=
  [⟨.reserve tokyoCaller "osaka" "p1" 3 ⟨true, true⟩, fun _ => none, some "t1", "trace-1", "POST",
      "/warehouse/osaka/stock/p1/reserve", 4⟩,
    ⟨.getStock roleless "p1" ⟨true, true⟩ [], fun _ => none, none, "trace-2", "GET",
     "/warehouse/stock/p1", 1⟩]

/-- Their lines, one within the other. -/
def twoCallsOutput : List (Printed × Int) :=
  [(.warehouseDeny ⟨"sub-1", "t1", "trace-1", "osaka", "branch_mismatch", some "tokyo"⟩, 10),
    (.warehouseDeny ⟨"sub-2", "-", "trace-2", "-", "role_missing", none⟩, 11),
    (.warehouse ⟨"GET", "/warehouse/stock/p1", 403, 1, "sub-2", "-", "trace-2"⟩, 12),
    (.warehouse ⟨"POST", "/warehouse/osaka/stock/p1/reserve", 403, 4, "sub-1", "t1", "trace-1"⟩, 13)]

theorem twoCalls_read :
    (((collect "warehouse-service" (twoCallsOutput.map (·.2))
        (stdout springBoot (twoCallsOutput.map (·.1)))).filter
        isDenial).map readDenial).Perm (twoCalls.flatMap fun c => c.request.denials.map c.denialEntry) := by
  have hps : (twoCallsOutput.map (·.1)).Perm (twoCalls.flatMap Call.printed) := by decide +kernel
  exact (refusals_read twoCalls twoCallsOutput hps).1

end Gekko.Warehouse
