import Gekko.Lib.Json
import Gekko.Identity
import Gekko.Warehouse.Stock

/-!
# `Gekko.Warehouse.Access` — who may reserve at a branch

`authorize_branch` in two stages: one of the two warehouse roles is needed at all, and a caller without
`warehouse-viewer-all` must belong to the branch. The branch of the caller is looked up at Employee Service
by `resolve_own_branch`.

A lookup ends as a `Lookup`: no answer, or a status with a body that may or may not be JSON. The result of
each function is the value of its `Ok`, or the status of its `Err`.
-/

namespace Gekko.Warehouse

/-- How the request to Employee Service ends. -/
inductive Lookup where
  | unreachable
  | answered (status : Status) (body : Option Json)

/-- `struct EmployeeRecord` of the handlers. -/
structure EmployeeRecord where
  branch : Option String
  deriving DecidableEq, Repr

/-- The value of an `Option<String>` field. -/
def decodeBranch : Json → Option EmployeeRecord
  | .null => some ⟨none⟩
  | .str branch => some ⟨some branch⟩
  | _ => none

/-- serde's reading of an `EmployeeRecord`: from an object, whose other members are ignored and which may
    lack `branch` but not repeat it, or from a sequence of one element. -/
def EmployeeRecord.decode : Json → Option EmployeeRecord
  | .obj members =>
      match members.filter fun member => member.1 = "branch" with
      | [] => some ⟨none⟩
      | [(_, value)] => decodeBranch value
      | _ => none
  | .arr [value] => decodeBranch value
  | _ => none

/-- `StatusCode::is_success`. -/
def isSuccess (status : Status) : Bool := 200 ≤ status && status < 300

/-- `resolve_own_branch`: `exchanged` when Keycloak exchanges the token for `employee-service`, and `lookup`
    the end of the request for a user name. -/
def resolveOwnBranch (exchanged : Bool) (lookup : String → Lookup) (claims : Claims) :
    Except Status (Option String) :=
  if ¬ exchanged then .error 502
  else
    let username := claims.preferredUsername.getD ""
    match lookup username with
    | .unreachable => .error 502
    | .answered status body =>
        if ¬ isSuccess status then .error 403
        else
          match body.bind EmployeeRecord.decode with
          | none => .error 502
          | some employee => .ok employee.branch

/-- `authorize_branch`. -/
def authorizeBranch (exchanged : Bool) (lookup : String → Lookup) (claims : Claims) (branch : String) :
    Except Status Unit :=
  if ¬ claims.hasAnyRole ["warehouse-viewer", "warehouse-viewer-all"] then .error 403
  else if claims.hasAnyRole ["warehouse-viewer-all"] then .ok ()
  else
    match resolveOwnBranch exchanged lookup claims with
    | .error status => .error status
    | .ok (some employeeBranch) => if employeeBranch = branch then .ok () else .error 403
    | .ok none => .error 403

/-- What is read from an object whose names are not repeated. -/
theorem decode_obj_eq_branch_iff {members : List (String × Json)} {branch : String}
    (h : (members.map (·.1)).Nodup) :
    EmployeeRecord.decode (.obj members) = some ⟨some branch⟩ ↔
      Json.member? "branch" members = some (.str branch) := by
  unfold EmployeeRecord.decode
  simp only [Json.filter_name h]
  cases Json.member? "branch" members with
  | none => simp
  | some value => cases value <;> simp [decodeBranch]

/-! ## The decision table -/

/-- The access rule lets the caller at the branch, given what the lookup of the caller's branch finds. -/
def Admits (claims : Claims) (branch : String) (found : Except Status (Option String)) : Prop :=
  "warehouse-viewer-all" ∈ claims.roles ∨ ("warehouse-viewer" ∈ claims.roles ∧ found = .ok (some branch))

/-- The caller's branch decides: one of the roles, but not the overriding one. -/
def DecidedByBranch (claims : Claims) : Prop :=
  "warehouse-viewer" ∈ claims.roles ∧ "warehouse-viewer-all" ∉ claims.roles

variable {exchanged : Bool} {lookup : String → Lookup} {claims : Claims} {branch : String}

theorem authorizeBranch_of_no_role (hv : "warehouse-viewer" ∉ claims.roles)
    (ha : "warehouse-viewer-all" ∉ claims.roles) :
    authorizeBranch exchanged lookup claims branch = .error 403 := by
  have hany := Claims.hasAnyRole_pair claims "warehouse-viewer" "warehouse-viewer-all"
  unfold authorizeBranch
  rw [if_pos]
  rw [hany]
  rintro (h | h)
  · exact hv h
  · exact ha h

theorem authorizeBranch_of_all (ha : "warehouse-viewer-all" ∈ claims.roles) :
    authorizeBranch exchanged lookup claims branch = .ok () := by
  have hany := Claims.hasAnyRole_pair claims "warehouse-viewer" "warehouse-viewer-all"
  have hall := Claims.hasAnyRole_singleton claims "warehouse-viewer-all"
  unfold authorizeBranch
  rw [if_neg, if_pos (hall.mpr ha)]
  rw [hany]
  exact fun h => h (Or.inr ha)

theorem authorizeBranch_of_decidedByBranch (h : DecidedByBranch claims) :
    authorizeBranch exchanged lookup claims branch =
      match resolveOwnBranch exchanged lookup claims with
      | .error status => .error status
      | .ok found => if found = some branch then .ok () else .error 403 := by
  have hany := Claims.hasAnyRole_pair claims "warehouse-viewer" "warehouse-viewer-all"
  have hall := Claims.hasAnyRole_singleton claims "warehouse-viewer-all"
  unfold authorizeBranch
  rw [if_neg, if_neg]
  · cases resolveOwnBranch exchanged lookup claims with
    | error status => rfl
    | ok found =>
        cases found with
        | none => rfl
        | some own => by_cases hown : own = branch <;> simp [hown]
  · rw [hall]
    exact h.2
  · rw [hany]
    exact fun hc => hc (Or.inl h.1)

/-- The three rows of the table. -/
theorem role_cases (claims : Claims) :
    ("warehouse-viewer" ∉ claims.roles ∧ "warehouse-viewer-all" ∉ claims.roles) ∨
      "warehouse-viewer-all" ∈ claims.roles ∨ DecidedByBranch claims := by
  by_cases ha : "warehouse-viewer-all" ∈ claims.roles
  · exact Or.inr (Or.inl ha)
  · by_cases hv : "warehouse-viewer" ∈ claims.roles
    · exact Or.inr (Or.inr ⟨hv, ha⟩)
    · exact Or.inl ⟨hv, ha⟩

/-- **Who is let in.** -/
theorem authorizeBranch_eq_ok_iff :
    authorizeBranch exchanged lookup claims branch = .ok () ↔
      Admits claims branch (resolveOwnBranch exchanged lookup claims) := by
  unfold Admits
  rcases role_cases claims with ⟨hv, ha⟩ | ha | hb
  · rw [authorizeBranch_of_no_role hv ha]
    simp [hv, ha]
  · rw [authorizeBranch_of_all ha]
    simp [ha]
  · rw [authorizeBranch_of_decidedByBranch hb]
    cases resolveOwnBranch exchanged lookup claims with
    | error status => simp [hb.2]
    | ok found => by_cases hown : found = some branch <;> simp [hb.1, hb.2, hown]

/-- **Who is turned away with `403`**: a caller without a role, and one whose lookup ended with a `403` or
    with another branch than the one asked for. -/
theorem authorizeBranch_eq_forbidden_iff :
    authorizeBranch exchanged lookup claims branch = .error 403 ↔
      ("warehouse-viewer" ∉ claims.roles ∧ "warehouse-viewer-all" ∉ claims.roles) ∨
      (DecidedByBranch claims ∧ (resolveOwnBranch exchanged lookup claims = .error 403 ∨
        ∃ found, resolveOwnBranch exchanged lookup claims = .ok found ∧ found ≠ some branch)) := by
  rcases role_cases claims with ⟨hv, ha⟩ | ha | hb
  · rw [authorizeBranch_of_no_role hv ha]
    exact iff_of_true rfl (Or.inl ⟨hv, ha⟩)
  · rw [authorizeBranch_of_all ha]
    refine iff_of_false nofun ?_
    rintro (⟨-, hna⟩ | ⟨hb, -⟩)
    · exact hna ha
    · exact hb.2 ha
  · rw [authorizeBranch_of_decidedByBranch hb]
    have hnot : ¬ ("warehouse-viewer" ∉ claims.roles ∧ "warehouse-viewer-all" ∉ claims.roles) :=
      fun h => h.1 hb.1
    cases resolveOwnBranch exchanged lookup claims with
    | error status => simp [hb, hnot]
    | ok found => by_cases hown : found = some branch <;> simp [hb, hnot, hown]

theorem resolveOwnBranch_error {status : Status}
    (h : resolveOwnBranch exchanged lookup claims = .error status) : status = 403 ∨ status = 502 := by
  unfold resolveOwnBranch at h
  simp only at h
  split at h
  · cases h
    exact Or.inr rfl
  · split at h
    · cases h
      exact Or.inr rfl
    · split at h
      · cases h
        exact Or.inl rfl
      · split at h
        · cases h
          exact Or.inr rfl
        · cases h

/-- The statuses with which a caller can be turned away. -/
theorem authorizeBranch_error {status : Status}
    (h : authorizeBranch exchanged lookup claims branch = .error status) : status = 403 ∨ status = 502 := by
  rcases role_cases claims with ⟨hv, ha⟩ | ha | hb
  · rw [authorizeBranch_of_no_role hv ha] at h
    cases h
    exact Or.inl rfl
  · rw [authorizeBranch_of_all ha] at h
    cases h
  · rw [authorizeBranch_of_decidedByBranch hb] at h
    split at h
    · rename_i hresolve
      cases h
      exact resolveOwnBranch_error hresolve
    · split at h
      · cases h
      · cases h
        exact Or.inl rfl

/-- **How the lookup can end in a `403`**: only by a status that is not a success. -/
theorem resolveOwnBranch_eq_forbidden_iff :
    resolveOwnBranch exchanged lookup claims = .error 403 ↔
      exchanged = true ∧ ∃ status body,
        lookup (claims.preferredUsername.getD "") = .answered status body ∧ isSuccess status = false := by
  unfold resolveOwnBranch
  cases exchanged with
  | false => simp
  | true =>
      simp only [not_true_eq_false, if_false, true_and]
      cases lookup (claims.preferredUsername.getD "") with
      | unreachable => simp
      | answered status body =>
          cases hs : isSuccess status with
          | false => simp [hs]
          | true => cases hd : body.bind EmployeeRecord.decode <;> simp [hs, hd]

/-- How the lookup finds a branch, or finds that there is none. -/
theorem resolveOwnBranch_eq_ok_iff {found : Option String} :
    resolveOwnBranch exchanged lookup claims = .ok found ↔
      exchanged = true ∧ ∃ status json,
        lookup (claims.preferredUsername.getD "") = .answered status (some json) ∧ isSuccess status = true ∧
          EmployeeRecord.decode json = some ⟨found⟩ := by
  unfold resolveOwnBranch
  cases exchanged with
  | false => simp
  | true =>
      simp only [not_true_eq_false, if_false, true_and]
      cases lookup (claims.preferredUsername.getD "") with
      | unreachable => simp
      | answered status body =>
          cases hs : isSuccess status with
          | false => simp [hs]
          | true =>
              cases body with
              | none => simp [hs]
              | some json =>
                  cases hd : EmployeeRecord.decode json with
                  | none => simp [hs, hd]
                  | some employee =>
                      obtain ⟨own⟩ := employee
                      simp [hs, hd]

/-! ## What the lookup has to do with it -/

theorem resolveOwnBranch_congr {lookup' : String → Lookup}
    (h : lookup (claims.preferredUsername.getD "") = lookup' (claims.preferredUsername.getD "")) :
    resolveOwnBranch exchanged lookup claims = resolveOwnBranch exchanged lookup' claims := by
  unfold resolveOwnBranch
  simp only [h]

/-- For other callers than those of one branch, the lookup does not even count. -/
theorem authorizeBranch_congr {lookup' : String → Lookup}
    (h : DecidedByBranch claims →
      lookup (claims.preferredUsername.getD "") = lookup' (claims.preferredUsername.getD ""))
    (branch : String) :
    authorizeBranch exchanged lookup claims branch = authorizeBranch exchanged lookup' claims branch := by
  rcases role_cases claims with ⟨hviewer, hall⟩ | hall | hbranch
  · rw [authorizeBranch_of_no_role hviewer hall, authorizeBranch_of_no_role hviewer hall]
  · rw [authorizeBranch_of_all hall, authorizeBranch_of_all hall]
  · rw [authorizeBranch_of_decidedByBranch hbranch, authorizeBranch_of_decidedByBranch hbranch,
      resolveOwnBranch_congr (h hbranch)]

end Gekko.Warehouse
