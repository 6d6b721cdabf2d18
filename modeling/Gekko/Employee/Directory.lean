import Gekko.Lib.Json
import Gekko.Lib.Requote
import Gekko.Lib.Whatwg
import Gekko.Identity
import Gekko.Warehouse.Stock

/-!
# `Gekko.Employee.Directory` — `GET /employees/{username}`

Employee Service keeps one document for each employee. A caller may read their own record, found by
`preferred_username`; anybody else's needs the role `hr-viewer`.

`employeeRoute` is the user name that the handler gets for the one that a client put at the end of the URL:
the client's URL parser normalises the path, and the server matches the route on the percent-decoded path.
-/

namespace Gekko.Employee

open Whatwg (PlainName)

/-- A document of the `employees` collection, without its `_id`. No two of its members have one name. -/
structure Document where
  members : List (String × Json)
  nodup : (members.map (·.1)).Nodup

/-- A document that says this of the branch, and nothing else. -/
def sayingBranch (branch : Json) : Document :=
  ⟨[("branch", branch)], List.nodup_cons.mpr ⟨List.not_mem_nil, List.nodup_nil⟩⟩

/-- `find_one` by user name. -/
abbrev Employees := String → Option Document

/-- The body of an `HTTPException`. -/
def detail (text : String) : Json := .obj [("detail", .str text)]

/-- `get_employee`: the status and the body. -/
def getEmployee (employees : Employees) (claims : Claims) (username : String) : Status × Json :=
  let isSelf := claims.preferredUsername = some username
  if ¬ isSelf ∧ ¬ claims.hasRole "hr-viewer" then (403, detail "insufficient role")
  else
    match employees username with
    | none => (404, detail "employee not found")
    | some employee => (200, .obj employee.members)

/-- The path that the server matches, percent-decoded, for a text that follows the host in the URL. -/
def decodedPath (text : String) : String :=
  Utf8.decodeLossy (Percent.decodeLenient (Whatwg.path text.toList))

/-- The route `/employees/{username}` on a decoded path. -/
def matchEmployee (path : String) : Option String :=
  let pre := "/employees/".toList
  if pre.isPrefixOf path.toList then
    let username := path.toList.drop pre.length
    if username = [] ∨ '/' ∈ username then none else some (String.ofList username)
  else none

/-- The user name that `get_employee` gets for the one put into the URL; `none` when no route matches. -/
def employeeRoute (username : String) : Option String :=
  matchEmployee (decodedPath ("/employees/" ++ username))

/-- The employee record under the caller's own user name has this branch. -/
def OwnBranch (employees : Employees) (claims : Claims) (branch : String) : Prop :=
  ∃ username employee, claims.preferredUsername = some username ∧ employees username = some employee ∧
    Json.member? "branch" employee.members = some (.str branch)

/-! ## The URL of a request -/

/-- How Starlette puts the path of `request.url` together: from the decoded path, in which some versions
    escape again what would end a path. -/
structure Starlette where
  requoted : Char → Bool
  delimiter : ∀ c, requoted c = true → c = '?' ∨ c = '#' ∨ c = '\\'

namespace Starlette

/-- The decoded path as it is. -/
def plain : Starlette := ⟨fun _ => false, nofun⟩

/-- All three delimiters are escaped again. -/
def escaping : Starlette where
  requoted c := c == '?' || c == '#' || c == '\\'
  delimiter := by
    intro c h
    simpa [or_assoc] using h

/-- The path of the URL. -/
def rebuilt (starlette : Starlette) (path : String) : String :=
  String.ofList (Requote.requote starlette.requoted path.toList)

theorem quotable (starlette : Starlette) : Requote.Quotable starlette.requoted where
  ascii := by
    intro c h
    rcases starlette.delimiter c h with rfl | rfl | rfl <;> decide
  percent := by
    rw [Bool.eq_false_iff]
    intro h
    rcases starlette.delimiter _ h with h | h | h <;> cases h
  hex := by
    intro b hb
    rw [Bool.eq_false_iff]
    intro h
    have hne : ∀ d : UInt8, Percent.hexValue? d = none → Char.ofNat b.toNat ≠ Char.ofNat d.toNat := by
      intro d hd hchar
      rw [Utf8.ofNat_toNat_injective hchar, hd] at hb
      cases hb
    rcases starlette.delimiter _ h with h | h | h
    · exact hne 0x3F (by decide) h
    · exact hne 0x23 (by decide) h
    · exact hne 0x5C (by decide) h

@[simp] theorem rebuilt_plain (path : String) : plain.rebuilt path = path := by
  unfold rebuilt plain
  rw [Requote.requote_none, String.ofList_toList]

end Starlette

/-! ## Plain user names -/

/-- The route reads back the name at the end of the path. -/
theorem matchEmployee_append {username : String} (hne : username ≠ "") (hslash : '/' ∉ username.toList) :
    matchEmployee ("/employees/" ++ username) = some username := by
  have hpre : "/employees/".toList.isPrefixOf ("/employees/" ++ username).toList = true := by
    rw [String.toList_append]
    exact List.isPrefixOf_iff_prefix.mpr (List.prefix_append _ _)
  have hdrop : ("/employees/" ++ username).toList.drop "/employees/".toList.length = username.toList := by
    rw [String.toList_append]
    exact List.drop_left
  have hnil : username.toList ≠ [] := fun hnil => hne (String.toList_eq_nil_iff.mp hnil)
  unfold matchEmployee
  simp only [hpre, hdrop, hnil, hslash, if_true, false_or, if_false, String.ofList_toList]

/-- **A plain user name reaches the handler unchanged.** -/
theorem employeeRoute_of_plain {username : String} (h : PlainName username) :
    employeeRoute username = some username := by
  have htext : ("/employees/" ++ username).toList
      = Whatwg.joinText ["employees".toList, username.toList] := by
    rw [String.toList_append]
    simp [Whatwg.joinText]
  have hordinary : ∀ s ∈ ["employees".toList, username.toList], Whatwg.Ordinary s := by
    intro s hs
    simp only [List.mem_cons, List.not_mem_nil, or_false] at hs
    rcases hs with rfl | rfl
    · decide
    · exact h.ordinary
  have hpercent : '%' ∉ Whatwg.joinText ["employees".toList, username.toList] := by
    rw [← htext, String.toList_append, List.mem_append, not_or]
    exact ⟨by decide, h.percent⟩
  have hslash : '/' ∉ username.toList := by
    intro hmem
    obtain ⟨-, -, hne, -⟩ := h.chars _ hmem
    exact hne rfl
  unfold employeeRoute decodedPath
  rw [htext, Percent.decodeLenient_of_decode (Whatwg.decode_path_joinText hordinary hpercent), ← htext]
  have hback : Utf8.decodeLossy (("/employees/" ++ username).toList.flatMap String.utf8EncodeChar)
      = "/employees/" ++ username := Utf8.decodeLossy_encode _
  rw [hback]
  exact matchEmployee_append h.ne_empty hslash

section Shown

variable {employees : Employees} {claims : Claims} {username : String}

/-- Who is shown a record. -/
theorem getEmployee_of_shown (h : claims.preferredUsername = some username ∨ "hr-viewer" ∈ claims.roles) :
    getEmployee employees claims username =
      match employees username with
      | none => (404, detail "employee not found")
      | some employee => (200, .obj employee.members) := by
  unfold getEmployee
  rw [if_neg]
  rintro ⟨hself, hrole⟩
  exact h.elim hself fun hmem => hrole (Claims.hasRole_iff.mpr hmem)

theorem getEmployee_of_not_shown (h : ¬ (claims.preferredUsername = some username ∨
    "hr-viewer" ∈ claims.roles)) :
    getEmployee employees claims username = (403, detail "insufficient role") := by
  unfold getEmployee
  rw [if_pos ⟨fun hself => h (Or.inl hself), fun hrole => h (Or.inr (Claims.hasRole_iff.mp hrole))⟩]

end Shown

end Gekko.Employee
