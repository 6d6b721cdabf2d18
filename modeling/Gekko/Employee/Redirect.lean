import Gekko.Employee.Directory
import Gekko.Warehouse.Access


/-! # `Gekko.Employee.Redirect` — how the lookup of an employee ends

Warehouse Service asks for `GET {base}/employees/{username}` with the user name as it stands in the
token. When no route of Employee Service matches the decoded path and it ends in a slash, the router
redirects to the path without the slashes at its end, provided that a route matches that one, and the
client follows. What is in the `Location` is decoded once more at the next request, so a name can lead
through several redirects before it gets anywhere (`land`).

`answer` is the end of it all, as Warehouse Service sees it.
-/

namespace Gekko.Employee

open Warehouse (Lookup DecidedByBranch)
open Whatwg (PlainName)

/-- A route of the service matches the path. -/
def isRoute (path : String) : Bool := path == "/health" || (matchEmployee path).isSome

/-- `path.rstrip("/")`. -/
def rstrip (path : String) : String := String.ofList (path.toList.reverse.dropWhile (· == '/')).reverse

/-- The bytes that `quote` leaves alone in the `Location` of a `RedirectResponse`. -/
def locationKeep (b : UInt8) : Bool :=
  (0x30 ≤ b && b ≤ 0x39) || (0x41 ≤ b && b ≤ 0x5A) || (0x61 ≤ b && b ≤ 0x7A) ||
    (Utf8.encode "_.-~:/%#?=@[]!$&'()*+,;").contains b

/-- What follows the host in the `Location` for a path. -/
def location (starlette : Starlette) (path : String) : String :=
  String.ofList (Requote.ascii (Percent.encode locationKeep (Utf8.encode (starlette.rebuilt path))))

/-- `redirect_slashes`: where a request is redirected to, for a path that no route matches. -/
def redirectSlashes (starlette : Starlette) (path : String) : Option String :=
  if path.toList.getLast? = some '/' ∧ path ≠ "/" ∧ isRoute (rstrip path) = true then
    some (location starlette (rstrip path))
  else none

/-- Where a request gets to. -/
inductive Landing where
  /-- To `get_employee`, with this user name. -/
  | employee (username : String)
  | elsewhere (path : String)
  /-- The client gives up following. -/
  | lost
  deriving DecidableEq, Repr

/-- One request, whose URL has this text behind the host: where it gets to, or where it is redirected to. -/
def request (starlette : Starlette) (text : String) : Landing ⊕ String :=
  let path := decodedPath text
  match matchEmployee path, redirectSlashes starlette path with
  | some username, _ => .inl (.employee username)
  | none, none => .inl (.elsewhere path)
  | none, some target => .inr target

/-- Where the client gets to, when it follows so many redirects. -/
def land (starlette : Starlette) : Nat → String → Landing
  | 0, text => (request starlette text).elim id fun _ => .lost
  | redirects + 1, text => (request starlette text).elim id (land starlette redirects)

/-- What the libraries on both sides of the lookup contribute. -/
structure Http extends Starlette where
  /-- How many redirects the client follows. -/
  redirects : Nat
  /-- What the application answers at paths that are no employee's: its pages, and `404`. -/
  elsewhere : String → Lookup
  /-- Nothing is at the path of a caller who has no user name. -/
  nameless : elsewhere "/employees/" = .answered 404 (some (detail "Not Found"))

/-- What is not found gets `404`. -/
def sampleHttp : Http := ⟨.escaping, 10, fun _ => .answered 404 (some (detail "Not Found")), rfl⟩

/-- Where the lookup of a user name gets to. -/
def Http.leads (http : Http) (username : String) : Landing :=
  land http.toStarlette http.redirects ("/employees/" ++ username)

/-- How the lookup of a user name ends, for a caller with these claims. -/
def answer (http : Http) (employees : Employees) (claims : Claims) (username : String) : Lookup :=
  match http.leads username with
  | .employee name =>
      let (status, body) := getEmployee employees claims name
      .answered status (some body)
  | .elsewhere path => http.elsewhere path
  | .lost => .unreachable

/-- The tables agree on the record of the caller. -/
def SameOwn (claims : Claims) (employees others : Employees) : Prop :=
  ∀ username, claims.preferredUsername = some username → employees username = others username

/-- A caller whose branch counts, who may read anybody's record, and whose name leads to somebody else's. -/
structure Strays (http : Http) (claims : Claims) : Prop where
  byBranch : DecidedByBranch claims
  hrViewer : "hr-viewer" ∈ claims.roles
  leads : ∃ name, http.leads (claims.preferredUsername.getD "") = .employee name ∧
    claims.preferredUsername ≠ some name

section Answers

variable {starlette : Starlette} {redirects : Nat} {text : String} {http : Http}
  {employees others : Employees} {claims : Claims} {username : String}

theorem land_of_inl {landing : Landing} (h : request starlette text = .inl landing) :
    land starlette redirects text = landing := by
  cases redirects with
  | zero =>
      rw [land, h]
      rfl
  | succ redirects =>
      rw [land, h]
      rfl

theorem request_of_match (h : matchEmployee (decodedPath text) = some username) :
    request starlette text = .inl (.employee username) := by
  unfold request
  simp only [h]

theorem request_of_nowhere {path : String} (hpath : decodedPath text = path)
    (hmatch : matchEmployee path = none) (hredirect : redirectSlashes starlette path = none) :
    request starlette text = .inl (.elsewhere path) := by
  subst hpath
  unfold request
  simp only [hmatch, hredirect]

theorem leads_of_route (h : employeeRoute username = some username) :
    http.leads username = .employee username := by
  unfold employeeRoute at h
  exact land_of_inl (request_of_match h)

theorem leads_of_plain (h : PlainName username) : http.leads username = .employee username :=
  leads_of_route (employeeRoute_of_plain h)

theorem leads_empty : http.leads "" = .elsewhere "/employees/" := by
  have hpath : decodedPath "/employees/" = "/employees/" := by decide +kernel
  have hmatch : matchEmployee "/employees/" = none := by decide +kernel
  have hroute : isRoute (rstrip "/employees/") = false := by decide +kernel
  have hredirect : redirectSlashes http.toStarlette "/employees/" = none := by
    unfold redirectSlashes
    rw [hroute, if_neg]
    rintro ⟨-, -, h⟩
    cases h
  exact land_of_inl (request_of_nowhere
                      ((congrArg decodedPath String.append_empty).trans hpath) hmatch hredirect)

/-- What a caller gets who may see where their name leads. -/
theorem answer_of_shown {name : String} (hleads : http.leads username = .employee name)
    (hshown : claims.preferredUsername = some name ∨ "hr-viewer" ∈ claims.roles) :
    answer http employees claims username =
      match employees name with
      | none => .answered 404 (some (detail "employee not found"))
      | some employee => .answered 200 (some (.obj employee.members)) := by
  unfold answer
  rw [hleads]
  simp only [getEmployee_of_shown hshown]
  cases employees name <;> rfl

theorem answer_of_not_shown {name : String} (hleads : http.leads username = .employee name)
    (hshown : ¬ (claims.preferredUsername = some name ∨ "hr-viewer" ∈ claims.roles)) :
    answer http employees claims username = .answered 403 (some (detail "insufficient role")) := by
  unfold answer
  rw [hleads]
  simp only [getEmployee_of_not_shown hshown]

theorem answer_of_elsewhere {path : String} (hleads : http.leads username = .elsewhere path) :
    answer http employees claims username = http.elsewhere path := by
  unfold answer
  rw [hleads]

theorem answer_of_lost (hleads : http.leads username = .lost) :
    answer http employees claims username = .unreachable := by
  unfold answer
  rw [hleads]

/-- A caller without a user name is not found. -/
theorem answer_empty : answer http employees claims "" = .answered 404 (some (detail "Not Found")) :=
  (answer_of_elsewhere leads_empty).trans http.nameless

/-- **Self-lookup.** A caller whose user name leads to itself is answered from their own document,
    whatever their roles and whatever the other documents are. -/
theorem answer_self (hleads : http.leads username = .employee username)
    (hself : claims.preferredUsername = some username) :
    answer http employees claims username =
      match employees username with
      | none => .answered 404 (some (detail "employee not found"))
      | some employee => .answered 200 (some (.obj employee.members)) :=
  answer_of_shown hleads (Or.inl hself)

/-- **Nobody else's record answers the lookup of a caller who does not stray.** -/
theorem answer_congr (hbranch : DecidedByBranch claims) (hstrays : ¬ Strays http claims)
    (hsame : SameOwn claims employees others) :
    answer http employees claims (claims.preferredUsername.getD "")
      = answer http others claims (claims.preferredUsername.getD "") := by
  cases hleads : http.leads (claims.preferredUsername.getD "") with
  | lost => rw [answer_of_lost hleads, answer_of_lost hleads]
  | elsewhere path => rw [answer_of_elsewhere hleads, answer_of_elsewhere hleads]
  | employee name =>
      by_cases hself : claims.preferredUsername = some name
      · rw [answer_of_shown hleads (Or.inl hself), answer_of_shown hleads (Or.inl hself), hsame name hself]
      · have hshown : ¬ (claims.preferredUsername = some name ∨ "hr-viewer" ∈ claims.roles) := by
          rintro (h | hrole)
          · exact hself h
          · exact hstrays ⟨hbranch, hrole, name, hleads, hself⟩
        rw [answer_of_not_shown hleads hshown, answer_of_not_shown hleads hshown]

end Answers

end Gekko.Employee
