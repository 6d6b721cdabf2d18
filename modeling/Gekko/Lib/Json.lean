import Mathlib.Data.Rat.Defs

/-!
# `Gekko.Lib.Json` — JSON values

A JSON value as a tree. Numbers are rational, so integers and decimal fractions are exact. An object is the
list of its members.
-/

inductive Json where
  | null
  | bool (b : Bool)
  | num (n : Rat)
  | str (s : String)
  | arr (elements : List Json)
  | obj (members : List (String × Json))

namespace Json

/-- The value of the first member with the given name. -/
def member? (name : String) : List (String × Json) → Option Json
  | [] => none
  | (key, value) :: rest => if key = name then some value else member? name rest

/-- Member access; `none` on anything but an object that has the member. -/
def get? (name : String) : Json → Option Json
  | .obj members => member? name members
  | _ => none

/-- Where names are not repeated, the members of one name are the one that `member?` finds. -/
theorem filter_name {name : String} {members : List (String × Json)} (h : (members.map (·.1)).Nodup) :
    (members.filter fun m => m.1 = name) =
      match member? name members with
      | none => []
      | some value => [(name, value)] := by
  induction members with
  | nil => rfl
  | cons head rest ih =>
      obtain ⟨key, value⟩ := head
      rw [List.map_cons, List.nodup_cons] at h
      have hrest := ih h.2
      by_cases hkey : key = name
      · -- No later member has the name.
        subst hkey
        have hnone : (rest.filter fun m => m.1 = key) = [] := by
          rw [List.filter_eq_nil_iff]
          intro m hm hname
          exact h.1 (List.mem_map.mpr ⟨m, hm, of_decide_eq_true hname⟩)
        rw [member?, if_pos rfl, List.filter_cons_of_pos (by simp), hnone]
      · rw [member?, if_neg hkey, List.filter_cons_of_neg (by simp [hkey])]
        exact hrest

end Json
