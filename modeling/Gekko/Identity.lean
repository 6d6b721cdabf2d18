import Mathlib.Data.List.Basic

/-!
# `Gekko.Identity` — what the services read from a verified token

Each service verifies the token it is given and then reads these claims from it. Token exchange changes
the audience and the token id; the subject, the user name and the realm roles go through unchanged, so one
`Claims` stands for the caller along the whole chain.
-/

namespace Gekko

/-- The claims of a verified token that the services act on. -/
structure Claims where
  sub : String
  preferredUsername : Option String
  /-- `realm_access.roles`; empty when the claim is absent. -/
  roles : List String
  deriving DecidableEq, Repr

namespace Claims

/-- `has_any_role` of Warehouse Service and `hasAnyRole` of Inventory Service. -/
def hasAnyRole (claims : Claims) (required : List String) : Bool :=
  claims.roles.any fun role => required.contains role

/-- `hasRole(...)` of Order Service and `has_role` of Employee Service. -/
def hasRole (claims : Claims) (role : String) : Bool := claims.roles.contains role

variable {claims : Claims}

theorem hasRole_iff {role : String} : claims.hasRole role = true ↔ role ∈ claims.roles := by
  unfold hasRole
  exact List.contains_iff_mem

theorem hasAnyRole_iff {required : List String} :
    claims.hasAnyRole required = true ↔ ∃ role ∈ required, role ∈ claims.roles := by
  unfold hasAnyRole
  rw [List.any_eq_true]
  constructor
  · rintro ⟨role, hrole, hreq⟩
    exact ⟨role, List.contains_iff_mem.mp hreq, hrole⟩
  · rintro ⟨role, hreq, hrole⟩
    exact ⟨role, hrole, List.contains_iff_mem.mpr hreq⟩

theorem hasAnyRole_singleton (claims : Claims) (role : String) :
    claims.hasAnyRole [role] = true ↔ role ∈ claims.roles := by
  rw [hasAnyRole_iff]
  simp only [List.mem_singleton, exists_eq_left]

theorem hasAnyRole_pair (claims : Claims) (role role' : String) :
    claims.hasAnyRole [role, role'] = true ↔ role ∈ claims.roles ∨ role' ∈ claims.roles := by
  rw [hasAnyRole_iff]
  simp only [List.mem_cons, List.not_mem_nil, or_false, exists_eq_or_imp, exists_eq_left]

end Claims

end Gekko
