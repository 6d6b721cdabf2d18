import Gekko.Audit.Coverage


/-! # `Gekko.Roles.Agreement` — the roles in a token, as four services read them

Keycloak puts the realm roles of a user into the claim `realm_access`, and every service takes them out
again by itself, in its own language: with type assertions in Go, with serde in Rust, with a pattern in
Java, and in Python with two calls of `get` and the operator `in`. What they make of a claim that is not
as it should be differs widely. The token may be turned away, the request may fail, elements may be
skipped or printed, and Python finds a role within a longer text.

`roles_agree_iff` says for which claims the four agree on every role. These are the claims that are
there as Keycloak writes them, or not at all, and for them `Gekko.Claims` is what each service has read.
Names that start with `ROLE_` are apart: Spring takes them for names of authorities, and asks for the
role behind the prefix.
-/

namespace Gekko

open Audit

/-- The payload of a verified token, which repeats no name. -/
abbrev TokenPayload := List (String × Json)

/-! ## The four readers -/

namespace Ordering

/-- What `"ROLE_" + role` ends in. `printed` is `toString` of anything but a text. -/
def roleText (printed : Json → String) : Json → String
  | .str s => s
  | v => printed v

/-- `realmRolesToAuthorities`; `none` when the claim is no `Map` and the cast throws. -/
def realmRolesToAuthorities (printed : Json → String) (jwt : TokenPayload) : Option (List String) :=
  match Json.member? "realm_access" jwt with
  | none | some .null => some []
  | some (.obj realmAccess) =>
      match Json.member? "roles" realmAccess with
      | some (.arr roles) => some (roles.map fun role => "ROLE_" ++ roleText printed role)
      | _ => some []
  | some _ => none

/-- The name has Spring's default prefix already. -/
def Prefixed (role : String) : Prop := "ROLE_".toList <+: role.toList

instance (role : String) : Decidable (Prefixed role) := inferInstanceAs (Decidable (_ <+: _))

/-- `getRoleWithDefaultPrefix`. -/
def roleWithDefaultPrefix (role : String) : String := if Prefixed role then role else "ROLE_" ++ role

/-- `hasRole(role)` of a `@PreAuthorize`. -/
def hasRole (printed : Json → String) (jwt : TokenPayload) (role : String) : Option Bool :=
  (realmRolesToAuthorities printed jwt).map fun authorities =>
    authorities.contains (roleWithDefaultPrefix role)

/-- The realm role that a `hasRole(role)` is about. -/
def askedRole (role : String) : String := if Prefixed role then String.ofList (role.toList.drop 5) else role

theorem roleWithDefaultPrefix_eq (role : String) : roleWithDefaultPrefix role = "ROLE_" ++
    askedRole role := by
  unfold roleWithDefaultPrefix askedRole
  split
  · rename_i hprefix
    obtain ⟨rest, hrest⟩ := hprefix
    rw [← String.toList_inj, String.toList_append, ← hrest]
    have hdrop : ("ROLE_".toList ++ rest).drop 5 = rest := List.drop_left' rfl
    rw [hdrop, @String.toList_ofList rest]
  · rfl

end Ordering

namespace Employee

/-- `has_role`. -/
def hasRole (claims : TokenPayload) (role : String) : Except PyError Bool := do
  let roles ← get "roles" ((Json.member? "realm_access" claims).getD (.obj []))
  contains role (roles.getD (.arr []))

end Employee

namespace Roles

inductive Reader where
  | orderService
  | inventoryService
  | warehouseService
  | employeeService
  deriving DecidableEq, Repr

/-- The realm role that a service looks for when it is asked for one. -/
def Reader.asked : Reader → String → String
  | .orderService, role => Ordering.askedRole role
  | _, role => role

/-- Whether a service finds the role; `none` when the request with this token fails before that is known. -/
def Reader.holds (printed : Json → String) (token : TokenPayload) (role : String) : Reader → Option Bool
  | .orderService => Ordering.hasRole printed token role
  | .inventoryService => some (Inventory.hasAnyRole token [role])
  | .warehouseService =>
      (Warehouse.realmRoles (Json.member? "realm_access" token)).map fun roles => roles.contains role
  | .employeeService => (Employee.hasRole token role).toOption

/-! ## The claim -/

/-- There is no `realm_access`, or it is an object without `roles`, or one with a list of names. -/
inductive Plain : Option Json → List String → Prop where
  | absent : Plain none []
  | roleless {realmAccess : List (String × Json)} (hroles : Json.member? "roles" realmAccess = none) :
      Plain (some (.obj realmAccess)) []
  | listed {realmAccess : List (String × Json)} {roles : List String}
      (hroles : Json.member? "roles" realmAccess = some (.arr (roles.map .str))) :
      Plain (some (.obj realmAccess)) roles

section Reading

variable {printed : Json → String} {token : TokenPayload} {roles : List String} {role : String}

theorem mapM_stringElement {elements : List Json} :
    elements.mapM Warehouse.stringElement = some roles ↔ elements = roles.map .str := by
  induction elements generalizing roles with
  | nil =>
      cases roles with
      | nil => exact iff_of_true rfl rfl
      | cons role roles => exact iff_of_false nofun nofun
  | cons element elements ih =>
      rw [List.mapM_cons]
      cases element with
      | str s =>
          show ((elements.mapM Warehouse.stringElement).bind fun rest => some (s :: rest)) = some roles ↔ _
          rw [Option.bind_eq_some_iff]
          constructor
          · rintro ⟨rest, hrest, hroles⟩
            cases hroles
            rw [List.map_cons, ih.mp hrest]
          · intro h
            cases roles with
            | nil => cases h
            | cons role roles =>
                rw [List.map_cons, List.cons.injEq, Json.str.injEq] at h
                obtain ⟨rfl, hrest⟩ := h
                exact ⟨roles, ih.mpr hrest, rfl⟩
      | _ =>
          refine iff_of_false nofun ?_
          cases roles <;> simp

theorem contains_map_str : (roles.map Json.str).any (fun e => Dpop.str? e == some role) =
    roles.contains role := by
  rw [List.any_map, Bool.eq_iff_iff, List.any_eq_true, List.contains_iff_mem]
  constructor
  · rintro ⟨s, hs, hsame⟩
    rw [← Option.some.inj (eq_of_beq hsame)]
    exact hs
  · intro hrole
    exact ⟨role, hrole, beq_self_eq_true _⟩

theorem contains_authorities :
    ((roles.map Json.str).map fun role => "ROLE_" ++ Ordering.roleText printed role).contains
      (Ordering.roleWithDefaultPrefix role) = roles.contains (Ordering.askedRole role) := by
  rw [Ordering.roleWithDefaultPrefix_eq, Bool.eq_iff_iff, List.contains_iff_mem,
    List.contains_iff_mem, List.map_map, List.mem_map]
  constructor
  · rintro ⟨s, hs, hsame⟩
    rw [← (String.append_right_inj "ROLE_").mp hsame]
    exact hs
  · intro hrole
    exact ⟨Ordering.askedRole role, hrole, rfl⟩

theorem any_contains : (roles.map Json.str).any (fun e => [role].contains (Inventory.asString (some e))) =
    roles.contains role := by
  rw [List.any_map, Bool.eq_iff_iff, List.any_eq_true, List.contains_iff_mem]
  constructor
  · rintro ⟨s, hs, hsame⟩
    rw [← List.mem_singleton.mp (List.contains_iff_mem.mp hsame)]
    exact hs
  · intro hrole
    exact ⟨role, hrole, List.contains_iff_mem.mpr List.mem_cons_self⟩

/-- **What a plain claim says**, to each of the four. -/
theorem holds_of_plain (h : Plain (Json.member? "realm_access" token) roles) (reader : Reader)
    (role : String) :
    reader.holds printed token role = some (roles.contains (reader.asked role)) := by
  generalize hclaim : Json.member? "realm_access" token = claim at h
  cases h with
  | absent =>
      cases reader
      · show (Ordering.realmRolesToAuthorities printed token).map _ = _
        unfold Ordering.realmRolesToAuthorities
        rw [hclaim]
        rfl
      · show some (Inventory.hasAnyRole token [role]) = _
        unfold Inventory.hasAnyRole
        rw [hclaim]
        rfl
      · show (Warehouse.realmRoles (Json.member? "realm_access" token)).map _ = _
        rw [hclaim]
        rfl
      · show (Employee.hasRole token role).toOption = _
        unfold Employee.hasRole
        rw [hclaim]
        rfl
  | roleless hroles =>
      cases reader
      · show (Ordering.realmRolesToAuthorities printed token).map _ = _
        unfold Ordering.realmRolesToAuthorities
        simp only [hclaim, hroles]
        rfl
      · show some (Inventory.hasAnyRole token [role]) = _
        unfold Inventory.hasAnyRole
        simp only [hclaim, hroles]
        rfl
      · show (Warehouse.realmRoles (Json.member? "realm_access" token)).map _ = _
        rw [hclaim]
        simp only [Warehouse.realmRoles, hroles]
        rfl
      · show (Employee.hasRole token role).toOption = _
        unfold Employee.hasRole
        rw [hclaim]
        show (Employee.contains role ((Json.member? "roles" _).getD (.arr []))).toOption = _
        rw [hroles]
        rfl
  | listed hroles =>
      cases reader
      · show (Ordering.realmRolesToAuthorities printed token).map _ = _
        unfold Ordering.realmRolesToAuthorities
        simp only [hclaim, hroles, Option.map_some, contains_authorities]
        rfl
      · show some (Inventory.hasAnyRole token [role]) = _
        unfold Inventory.hasAnyRole
        simp only [hclaim, hroles, any_contains, Reader.asked]
      · show (Warehouse.realmRoles (Json.member? "realm_access" token)).map _ = _
        rw [hclaim]
        simp only [Warehouse.realmRoles, hroles, mapM_stringElement.mpr rfl, Option.map_some, Reader.asked]
      · show (Employee.hasRole token role).toOption = _
        unfold Employee.hasRole
        rw [hclaim]
        show (Employee.contains role ((Json.member? "roles" _).getD (.arr []))).toOption = _
        rw [hroles]
        show some ((roles.map Json.str).any fun e => Dpop.str? e == some role) = _
        rw [contains_map_str]
        rfl

/-- Employee Service fails at anything but an object, and Warehouse Service at anything but a list of
names in it. -/
theorem plain_of_holds (hemployee : (Reader.employeeService.holds printed token role).isSome = true)
    (hwarehouse : (Reader.warehouseService.holds printed token role).isSome = true) :
    ∃ roles, Plain (Json.member? "realm_access" token) roles := by
  obtain ⟨found, hfound⟩ := Option.isSome_iff_exists.mp hemployee
  obtain ⟨found', hfound'⟩ := Option.isSome_iff_exists.mp hwarehouse
  have hemployee : (Employee.hasRole token role).toOption = some found := hfound
  have hwarehouse : (Warehouse.realmRoles (Json.member? "realm_access" token)).map _ = some found' := hfound'
  unfold Employee.hasRole at hemployee
  obtain ⟨roles, hroles, -⟩ := Option.map_eq_some_iff.mp hwarehouse
  cases hclaim : Json.member? "realm_access" token with
  | none => exact ⟨[], .absent⟩
  | some claim =>
      rw [hclaim] at hemployee hroles
      cases claim with
      | obj realmAccess =>
          cases hmember : Json.member? "roles" realmAccess with
          | none => exact ⟨[], .roleless hmember⟩
          | some value =>
              simp only [Warehouse.realmRoles, hmember] at hroles
              cases value with
              | arr elements =>
                  have helements := mapM_stringElement.mp hroles
                  exact ⟨roles, .listed (hmember.trans (congrArg _ (congrArg _ helements)))⟩
              | _ => cases hroles
      | _ => cases hemployee

theorem asked_of_not_prefixed (h : ¬ Ordering.Prefixed role) (reader : Reader) :
    reader.asked role = role := by
  cases reader with
  | orderService => exact if_neg h
  | _ => rfl

/-- **When the four agree.** They find the same roles exactly if the claim is plain; and then these are
    the roles that it lists. -/
theorem roles_agree_iff (printed : Json → String) (token : TokenPayload) :
    ((∀ (reader reader' : Reader) (role : String), ¬ Ordering.Prefixed role →
        reader.holds printed token role = reader'.holds printed token role) ↔
      ∃ roles, Plain (Json.member? "realm_access" token) roles) ∧
    ∀ roles, Plain (Json.member? "realm_access" token) roles → ∀ (claims : Claims), claims.roles = roles →
      ∀ (reader : Reader) (role : String), reader.holds printed token role =
        some (claims.hasRole (reader.asked role)) := by
  constructor
  · constructor
    · intro hagree
      -- Inventory Service has an answer for every token.
      have hanswers : ∀ reader : Reader, (reader.holds printed token "").isSome = true := by
        intro reader
        rw [hagree reader .inventoryService "" (by decide)]
        rfl
      exact plain_of_holds (hanswers .employeeService) (hanswers .warehouseService)
    · rintro ⟨roles, hplain⟩ reader reader' role hrole
      rw [holds_of_plain hplain reader role, holds_of_plain hplain reader' role, asked_of_not_prefixed hrole,
        asked_of_not_prefixed hrole]
  · rintro roles hplain claims rfl reader role
    exact holds_of_plain hplain reader role

end Reading

/-- Python's `in` finds a role in the middle of another one. -/
example : Employee.hasRole [("realm_access", .obj [("roles", .str "hr-viewer-trainee")])] "hr-viewer" =
    .ok true := by
  decide +kernel

end Roles

end Gekko
