import Gekko.Lib.Json
import Gekko.Warehouse.Stock


/-! # `Gekko.Audit.AccessLog` — the lines that the audit lives on

Each service writes one JSON line for a request, of type `access_log`, with the `sub` and the `jti` of
the token that it was shown. What a service puts there is a JSON value: two of them copy the members of
the token as they are.
-/

namespace Gekko.Audit

/-- How the handler of a request ends. -/
inductive Outcome where
  | responds (status : Status)
  /-- An exception or a panic leaves the handler. -/
  | escapes
  deriving DecidableEq, Repr

/-- A line of type `access_log`. -/
structure AccessLog where
  method : String
  path : String
  status : Status
  sub : Json
  jti : Json

/-- The line names the token with these members. An empty `jti` is none. -/
structure Carries (line : AccessLog) (token : List (String × Json)) : Prop where
  sub : ∀ sub, Json.member? "sub" token = some (.str sub) → line.sub = .str sub
  jti : ∀ jti, Json.member? "jti" token = some (.str jti) → jti ≠ "" → line.jti = .str jti
  noJti : Json.member? "jti" token = none → line.jti = .str "-"

/-- One line is written, and it names the token. -/
def LogsOnce (lines : List AccessLog) (token : List (String × Json)) : Prop :=
  ∃ line, lines = [line] ∧ Carries line token

variable {line : AccessLog} {token : List (String × Json)}

theorem logsOnce_singleton_iff : LogsOnce [line] token ↔ Carries line token := by
  unfold LogsOnce
  constructor
  · rintro ⟨line', hline, hcarries⟩
    cases hline
    exact hcarries
  · intro hcarries
    exact ⟨line, rfl, hcarries⟩

theorem not_logsOnce_nil : ¬ LogsOnce [] token := by
  rintro ⟨line, hline, -⟩
  cases hline

end Gekko.Audit
