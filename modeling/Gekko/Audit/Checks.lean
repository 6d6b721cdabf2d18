import Mathlib.Algebra.Order.Ring.Int
import Gekko.Audit.Events


/-! # `Gekko.Audit.Checks` — the three checks of the audit script

`audit.py` reads the services' access logs and Keycloak's events out of Loki with six queries and
compares them:

* CHECK1: no token id is used both by a service near the user and by one further down;
* CHECK2: every token id that a backend was given is one that Keycloak issued for that backend, to that user;
* CHECK3: nobody's first access lies before their first login.

A query that fails is reported on stderr and gives an empty list, which each check takes for an answer.
`exitStatus_ne_zero_iff` says what the exit status is worth then. `check3_eq_true_iff` and
`check2_of_backed` are about the window in which the lists are cut out of the history.
-/

namespace Gekko.Audit

/-! ## Queries -/

def userFacingServices : List String := ["frontend", "order-service"]

def downstreamServices : List String := ["inventory-service", "warehouse-service", "employee-service"]

def exchangedTokenServices : List String :=
  ["order-service", "inventory-service", "warehouse-service", "employee-service"]

/-- The queries, in the order in which they are run. -/
inductive Query where
  | userFacing
  | downstream
  | exchanged
  | exchanges
  | accesses
  | logins
  deriving DecidableEq, Repr

/-- `{service=~"…"} | json | type = "access_log"`. -/
def accessLog (services : List String) (e : LogLine) : Bool :=
  services.contains e.service && e.get "type" == some "access_log"

/-- The lines that a query selects. -/
def Query.selects : Query → LogLine → Bool
  | .userFacing, e => accessLog userFacingServices e
  | .downstream, e => accessLog downstreamServices e
  | .exchanged, e => accessLog exchangedTokenServices e && e.get "status" != some "401"
  | .exchanges, e => e.service == "keycloak" && e.has "TOKEN_EXCHANGE"
  | .accesses, e => accessLog (userFacingServices ++ downstreamServices) e
  | .logins, e => e.service == "keycloak" && e.has "type=\"LOGIN\""

/-- The log store: its lines, in the order of their times, and the queries that it fails to answer. -/
structure Loki where
  lines : List LogLine
  fails : Query → Bool

/-- The default of `limit`. -/
def queryLimit : Nat := 5000

/-- The lines that match a query in a window, which here has both its ends. -/
def Loki.matching (loki : Loki) (q : Query) (startNs endNs : Int) : List LogLine :=
  loki.lines.filter fun e => q.selects e && (decide (startNs ≤ e.tsNs) && decide (e.tsNs ≤ endNs))

/-- `query_loki`. The services write no `_service` and no `_ts_ns` into their lines, so both are those
of the store. -/
def queryLoki (loki : Loki) (q : Query) (startNs endNs : Int) : List LogLine :=
  if loki.fails q then [] else (loki.matching q startNs endNs).take queryLimit

/-- The same store with every query answered. -/
def Loki.healthy (loki : Loki) : Loki := { loki with fails := fun _ => false }

/-! ## CHECK1 -/

/-- The token id of an entry, unless it is missing, empty or `-`. -/
def jti? (e : LogLine) : Option String := (e.get "jti").filter fun jti => jti ≠ "-" ∧ jti ≠ ""

/-- The token ids on both sides. -/
def bypassed (userLogs dsLogs : List LogLine) : List String :=
  (userLogs.filterMap jti?).filter fun jti => (dsLogs.filterMap jti?).contains jti

def check1 (loki : Loki) (startNs endNs : Int) : Bool :=
  (bypassed (queryLoki loki .userFacing startNs endNs) (queryLoki loki .downstream startNs endNs)).isEmpty

/-! ## CHECK2 -/

/-- The body of the loop that collects the pairs in use: the first entry of a pair stands for it. -/
def addSeen (seen : List ((String × String) × LogLine)) (e : LogLine) : List ((String × String) × LogLine) :=
  match jti? e with
  | none => seen
  | some jti => if seen.any fun s => s.1 = (jti, e.service) then seen else seen ++ [((jti, e.service), e)]

/-- `seen`. -/
def seenPairs (dsLogs : List LogLine) : List ((String × String) × LogLine) := dsLogs.foldl addSeen []

/-- The entry has an issuance record, and not one for another user. -/
def backs (record : Option Record) (e : LogLine) : Bool :=
  match record with
  | none => false
  | some record =>
      match record.sub with
      | some sub => e.get "sub" == some sub
      | none => true

/-- `check2`, with `EXCHANGE_LOOKBACK_SECONDS`. -/
def check2 (loki : Loki) (lookbackSeconds startNs endNs : Int) : Bool :=
  let dsLogs := queryLoki loki .exchanged startNs endNs
  let kcLogs := queryLoki loki .exchanges (startNs - lookbackSeconds * 10 ^ 9) endNs
  let exchanged := parseTokenExchangeEvents kcLogs
  (seenPairs dsLogs).all fun s => backs (exchanged s.1) s.2

/-! ## CHECK3 -/

/-- The user of an access. -/
def sub? (e : LogLine) : Option String := (e.get "sub").filter fun sub => sub ≠ "" ∧ sub ≠ "-"

/-- The user of a login event. -/
def uid? (e : LogLine) : Option String :=
  ((e.get "userId").filter fun uid => uid ≠ "") <|> ((e.get "user_id").filter fun uid => uid ≠ "") <|>
    (e.get "_raw").bind fun raw => kvExtract raw "userId"

/-- The body of the loops that keep the earliest time of each user. -/
def addEarliest (who : LogLine → Option String) (earliest : String → Option Int) (e : LogLine) :
    String → Option Int :=
  match who e with
  | none => earliest
  | some user =>
      match earliest user with
      | some ts => if e.tsNs < ts then Function.update earliest user (some e.tsNs) else earliest
      | none => Function.update earliest user (some e.tsNs)

/-- `first_access` and `login_ts`. -/
def earliest (who : LogLine → Option String) (logs : List LogLine) : String → Option Int :=
  logs.foldl (addEarliest who) fun _ => none

/-- The user has logged in, but only after their first access. -/
def isHardViolation (access login : Option Int) : Bool :=
  match access, login with
  | some access, some login => decide (access < login)
  | _, _ => false

def check3 (loki : Loki) (startNs endNs : Int) : Bool :=
  let svcLogs := queryLoki loki .accesses startNs endNs
  let kcLogs := queryLoki loki .logins startNs endNs
  !(svcLogs.filterMap sub?).any fun sub =>
    isHardViolation (earliest sub? svcLogs sub) (earliest uid? kcLogs sub)

/-! ## The exit status -/

/-- The status that `main` exits with, for a window that ends now. -/
def exitStatus (loki : Loki) (lookbackSeconds startNs nowNs : Int) : Nat :=
  if check1 loki startNs nowNs && check2 loki lookbackSeconds startNs nowNs && check3 loki startNs nowNs
    then 0
  else 1

/-! ## The pairs in use -/

section Seen

variable {seen : List ((String × String) × LogLine)} {dsLogs : List LogLine} {e : LogLine}

/-- The entry that stands for a pair uses it. -/
def Uses (s : (String × String) × LogLine) : Prop := jti? s.2 = some s.1.1 ∧ s.2.service = s.1.2

theorem mem_addSeen {s : (String × String) × LogLine} (h : s ∈ addSeen seen e) :
    s ∈ seen ∨ (s.2 = e ∧ Uses s) := by
  unfold addSeen at h
  split at h
  · exact Or.inl h
  · rename_i jti hjti
    split at h
    · exact Or.inl h
    · rcases List.mem_append.mp h with h | h
      · exact Or.inl h
      · rw [List.mem_singleton.mp h]
        exact Or.inr ⟨rfl, hjti, rfl⟩

theorem mem_foldl_addSeen {s : (String × String) × LogLine} (h : s ∈ dsLogs.foldl addSeen seen) :
    s ∈ seen ∨ (s.2 ∈ dsLogs ∧ Uses s) := by
  induction dsLogs generalizing seen with
  | nil => exact Or.inl h
  | cons e dsLogs ih =>
      rcases ih h with h | ⟨hmem, huses⟩
      · rcases mem_addSeen h with h | ⟨heq, huses⟩
        · exact Or.inl h
        · exact Or.inr ⟨heq ▸ List.mem_cons_self, huses⟩
      · exact Or.inr ⟨List.mem_cons_of_mem _ hmem, huses⟩

/-- What has been collected stays collected. -/
theorem foldl_addSeen_ne_nil (h : seen ≠ []) : dsLogs.foldl addSeen seen ≠ [] := by
  induction dsLogs generalizing seen with
  | nil => exact h
  | cons e dsLogs ih =>
      apply ih
      unfold addSeen
      split
      · exact h
      · split
        · exact h
        · exact List.append_ne_nil_of_left_ne_nil h _

theorem mem_seenPairs {s : (String × String) × LogLine} (h : s ∈ seenPairs dsLogs) :
    s.2 ∈ dsLogs ∧ Uses s := by
  rcases mem_foldl_addSeen h with h | h
  · exact absurd h List.not_mem_nil
  · exact h

theorem seenPairs_eq_nil_iff : seenPairs dsLogs = [] ↔ ∀ e ∈ dsLogs, jti? e = none := by
  unfold seenPairs
  induction dsLogs with
  | nil => simp
  | cons e dsLogs ih =>
      rw [List.foldl_cons, List.forall_mem_cons]
      cases hjti : jti? e with
      | none =>
          have hsame : addSeen [] e = [] := by
            unfold addSeen
            rw [hjti]
          rw [hsame, ih]
          simp
      | some jti =>
          have hone : addSeen [] e ≠ [] := by
            unfold addSeen
            rw [hjti]
            simp
          exact iff_of_false (foldl_addSeen_ne_nil hone) fun h => by cases h.1

end Seen

/-! ## Queries that fail -/

section Failing

variable {loki : Loki} {lookbackSeconds startNs endNs : Int}

theorem queryLoki_of_fails {q : Query} (h : loki.fails q = true) :
    queryLoki loki q startNs endNs = [] := if_pos h

theorem queryLoki_of_answers {q : Query} (h : loki.fails q = false) :
    queryLoki loki q startNs endNs = queryLoki loki.healthy q startNs endNs := by
  unfold queryLoki
  rw [h]
  rfl

/-- CHECK1 needs both of its lists to report anything. -/
theorem check1_eq_false_iff : check1 loki startNs endNs = false ↔
    loki.fails .userFacing = false ∧ loki.fails .downstream = false ∧
      check1 loki.healthy startNs endNs = false := by
  unfold check1
  cases huser : loki.fails .userFacing with
  | true => simp [queryLoki_of_fails huser, bypassed]
  | false =>
      cases hds : loki.fails .downstream with
      | true => simp [queryLoki_of_fails hds, bypassed]
      | false => simp [queryLoki_of_answers huser, queryLoki_of_answers hds]

/-- CHECK2 needs its access log; without the events it reports whatever is in there. -/
theorem check2_eq_false_iff : check2 loki lookbackSeconds startNs endNs = false ↔
    loki.fails .exchanged = false ∧
      ((loki.fails .exchanges = false ∧ check2 loki.healthy lookbackSeconds startNs endNs = false) ∨
        (loki.fails .exchanges = true ∧
          ∃ e ∈ queryLoki loki.healthy .exchanged startNs endNs, (jti? e).isSome = true)) := by
  unfold check2
  cases hds : loki.fails .exchanged with
  | true => simp [queryLoki_of_fails hds, seenPairs]
  | false =>
      cases hkc : loki.fails .exchanges with
      | false => simp [queryLoki_of_answers hds, queryLoki_of_answers hkc]
      | true =>
          have hseen : seenPairs (queryLoki loki.healthy .exchanged startNs endNs) = [] ↔
              ¬ ∃ e ∈ queryLoki loki.healthy .exchanged startNs endNs, (jti? e).isSome = true := by
            rw [seenPairs_eq_nil_iff]
            simp
          rw [queryLoki_of_answers hds, queryLoki_of_fails hkc]
          simp only [parseTokenExchangeEvents, List.foldl_nil, backs, reduceCtorEq,
            false_and, true_and, false_or]
          rw [← not_iff_not, ← hseen, Bool.not_eq_false]
          cases seenPairs (queryLoki loki.healthy .exchanged startNs endNs) <;> simp

theorem isHardViolation_none (access : Option Int) : isHardViolation access none = false := by
  cases access <;> rfl

/-- CHECK3 needs both of its lists. -/
theorem check3_eq_false_iff : check3 loki startNs endNs = false ↔
    loki.fails .accesses = false ∧ loki.fails .logins = false ∧
      check3 loki.healthy startNs endNs = false := by
  unfold check3
  cases hsvc : loki.fails .accesses with
  | true => simp [queryLoki_of_fails hsvc]
  | false =>
      cases hkc : loki.fails .logins with
      | true =>
          have hnobody : earliest uid? [] = fun _ => none := rfl
          have hall : ∀ svcLogs : List LogLine, ((svcLogs.filterMap sub?).any fun sub =>
              isHardViolation (earliest sub? svcLogs sub) (earliest uid? [] sub)) = false := fun svcLogs => by
            simp only [hnobody, isHardViolation_none, List.any_eq_false, Bool.false_eq_true, not_false_iff,
              implies_true]
          rw [queryLoki_of_fails hkc]
          simp only [hall]
          simp
      | false => simp [queryLoki_of_answers hsvc, queryLoki_of_answers hkc]

/-- Some violated check still has the lists it needs, or CHECK2 lacks only the events. -/
def Detects (loki : Loki) (lookbackSeconds startNs nowNs : Int) : Prop :=
  (check1 loki.healthy startNs nowNs = false ∧ loki.fails .userFacing = false ∧
   loki.fails .downstream = false) ∨
  (check2 loki.healthy lookbackSeconds startNs nowNs = false ∧ loki.fails .exchanged = false ∧
    loki.fails .exchanges = false) ∨
  ((∃ e ∈ queryLoki loki.healthy .exchanged startNs nowNs, (jti? e).isSome = true) ∧
    loki.fails .exchanged = false ∧ loki.fails .exchanges = true) ∨
  (check3 loki.healthy startNs nowNs = false ∧ loki.fails .accesses = false ∧ loki.fails .logins = false)

/-- **The exit status with failing queries.** -/
theorem exitStatus_ne_zero_iff {nowNs : Int} :
    exitStatus loki lookbackSeconds startNs nowNs ≠ 0 ↔ Detects loki lookbackSeconds startNs nowNs := by
  have hstatus : exitStatus loki lookbackSeconds startNs nowNs ≠ 0 ↔
      check1 loki startNs nowNs = false ∨ check2 loki lookbackSeconds startNs nowNs = false ∨
        check3 loki startNs nowNs = false := by
    unfold exitStatus
    cases check1 loki startNs nowNs <;> cases check2 loki lookbackSeconds startNs nowNs <;>
      cases check3 loki startNs nowNs <;> simp
  -- Each check fails in its own way, and the second one in two.
  rw [hstatus, check1_eq_false_iff, check2_eq_false_iff, check3_eq_false_iff]
  unfold Detects
  constructor
  · rintro (⟨huser, hds, h⟩ | ⟨hds, ⟨hkc, h⟩ | ⟨hkc, h⟩⟩ | ⟨hsvc, hkc, h⟩)
    · exact Or.inl ⟨h, huser, hds⟩
    · exact Or.inr (Or.inl ⟨h, hds, hkc⟩)
    · exact Or.inr (Or.inr (Or.inl ⟨h, hds, hkc⟩))
    · exact Or.inr (Or.inr (Or.inr ⟨h, hsvc, hkc⟩))
  · rintro (⟨h, huser, hds⟩ | ⟨h, hds, hkc⟩ | ⟨h, hds, hkc⟩ | ⟨h, hsvc, hkc⟩)
    · exact Or.inl ⟨huser, hds, h⟩
    · exact Or.inr (Or.inl ⟨hds, Or.inl ⟨hkc, h⟩⟩)
    · exact Or.inr (Or.inl ⟨hds, Or.inr ⟨hkc, h⟩⟩)
    · exact Or.inr (Or.inr ⟨hsvc, hkc, h⟩)

end Failing

/-- An entry of an access log. -/
def answeredEntry (service : String) (tsNs : Int) (sub jti status : String) : LogLine where
  service := service
  tsNs := tsNs
  line := ""
  json := some [("type", "access_log"), ("sub", sub), ("jti", jti), ("status", status)]

/-- One token id at the frontend and at Inventory Service. -/
def bypassStore (fails : Query → Bool) : Loki where
  lines := [answeredEntry "frontend" 10 "u" "t" "201", answeredEntry "inventory-service" 20 "u" "t" "200"]
  fails := fails

/-- **Two failed queries turn a detected violation into a clean report.** -/
theorem bypass_undetected :
    exitStatus (bypassStore fun _ => false) 300 0 100 = 1 ∧
      exitStatus (bypassStore fun q => q == .userFacing || q == .exchanged) 300 0 100 = 0 := by
  constructor
  · decide +kernel
  · decide +kernel

/-! ## The first login of a user -/

section Earliest

variable {who : LogLine → Option String} {logs : List LogLine} {user : String}

/-- The user has a time no later than `ts`. -/
def By (who : LogLine → Option String) (logs : List LogLine) (user : String) (ts : Int) : Prop :=
  ∃ e ∈ logs, who e = some user ∧ e.tsNs ≤ ts

theorem addEarliest_le_iff {first : String → Option Int} {e : LogLine} {ts : Int} :
    (∃ t ∈ addEarliest who first e user, t ≤ ts) ↔
      (∃ t ∈ first user, t ≤ ts) ∨ (who e = some user ∧ e.tsNs ≤ ts) := by
  unfold addEarliest
  cases hwho : who e with
  | none => simp
  -- The line of another user leaves the entry alone.
  | some other =>
      by_cases heq : other = user
      · subst heq
        simp only [Option.mem_def, true_and]
        cases hfirst : first other with
        | none => simp
        | some t =>
            simp only []
            by_cases hlt : e.tsNs < t
            · rw [if_pos hlt, Function.update_self]
              simp only [Option.some.injEq, exists_eq_left']
              omega
            · rw [if_neg hlt, hfirst]
              simp only [Option.some.injEq, exists_eq_left']
              omega
      · have hne : user ≠ other := Ne.symm heq
        simp only [Option.some.injEq, heq, false_and, or_false]
        cases first other with
        | none => simp only [Function.update_of_ne hne]
        | some t =>
            simp only []
            split
            · rw [Function.update_of_ne hne]
            · rfl

/-- **What the loop keeps of a user** is the least of their times. -/
theorem earliest_le_iff {ts : Int} : (∃ t ∈ earliest who logs user, t ≤ ts) ↔ By who logs user ts := by
  induction logs using List.reverseRecOn with
  | nil => simp [earliest, By]
  | append_singleton logs e ih =>
      have hstep : earliest who (logs ++ [e]) = addEarliest who (earliest who logs) e := by
        unfold earliest
        rw [List.foldl_concat]
      rw [hstep, addEarliest_le_iff, ih]
      simp [By, or_and_right, exists_or]

theorem isHardViolation_eq_false_iff {access login : Option Int} :
    isHardViolation access login = false ↔ ∀ a ∈ access, ∀ l ∈ login, l ≤ a := by
  cases access <;> cases login <;> simp [isHardViolation]

end Earliest

/-- **When CHECK3 is content**: whoever has logged in within the window has, for each access, a login in
    the window that is no later. -/
theorem check3_eq_true_iff {loki : Loki} {startNs endNs : Int} :
    check3 loki startNs endNs = true ↔
      ∀ access ∈ queryLoki loki .accesses startNs endNs, ∀ login ∈ queryLoki loki .logins startNs endNs,
        ∀ user, sub? access = some user → uid? login = some user →
          ∃ login' ∈ queryLoki loki .logins startNs endNs, uid? login' = some user ∧
          login'.tsNs ≤ access.tsNs := by
  -- The check goes over the users that have an access.
  have hcheck : check3 loki startNs endNs = true ↔
      ∀ access ∈ queryLoki loki .accesses startNs endNs, ∀ user, sub? access = some user →
        isHardViolation (earliest sub? (queryLoki loki .accesses startNs endNs) user)
          (earliest uid? (queryLoki loki .logins startNs endNs) user) = false := by
    unfold check3
    rw [Bool.not_eq_true', List.any_eq_false]
    simp only [List.mem_filterMap, Bool.not_eq_true]
    constructor
    · intro h access haccess user huser
      exact h user ⟨access, haccess, huser⟩
    · rintro h user ⟨access, haccess, huser⟩
      exact h access haccess user huser
  rw [hcheck]
  simp only [isHardViolation_eq_false_iff]
  constructor
  -- Both directions replace the least time of a user by some line of theirs.
  · intro h access haccess login hlogin user hsub huid
    obtain ⟨a, ha, hale⟩ := earliest_le_iff.mpr ⟨access, haccess, hsub, Int.le_refl _⟩
    obtain ⟨l, hl, -⟩ := earliest_le_iff.mpr ⟨login, hlogin, huid, Int.le_refl _⟩
    have hle : l ≤ a := h access haccess user hsub a ha l hl
    exact earliest_le_iff.mp ⟨l, hl, Int.le_trans hle hale⟩
  · intro h access₀ haccess₀ user huser₀ a ha l hl
    obtain ⟨access, haccess, hsub, hale⟩ := earliest_le_iff.mp ⟨a, ha, Int.le_refl _⟩
    obtain ⟨login, hlogin, huid, -⟩ := earliest_le_iff.mp ⟨l, hl, Int.le_refl _⟩
    obtain ⟨login', hlogin', huid', hle⟩ := h access haccess login hlogin user hsub huid
    obtain ⟨l', hl', hle'⟩ := earliest_le_iff.mpr ⟨login', hlogin', huid', Int.le_refl _⟩
    have hsame : l' = l := Option.mem_unique hl' hl
    omega

/-- The line of a login event. -/
def loginLine (tsNs : Int) (userId : String) : LogLine where
  service := "keycloak"
  tsNs := tsNs
  line := "type=\"LOGIN\", userId=\"" ++ userId ++ "\""
  json := none

/-- A user logs in, uses the session, and logs in once more. -/
def reloginStore : Loki where
  lines := [loginLine 0 "u", answeredEntry "frontend" 100 "u" "t" "201", loginLine 200 "u"]
  fails := fun _ => false

/-- **A second login is taken for the first** in a window that starts behind the first. -/
theorem relogin_reported :
    (∀ access ∈ reloginStore.lines, Query.accesses.selects access = true →
      ∃ login ∈ reloginStore.lines, Query.logins.selects login = true ∧ (sub? access).isSome = true ∧
        uid? login = sub? access ∧ login.tsNs ≤ access.tsNs) ∧
      check3 reloginStore 50 400 = false := by
  constructor
  · decide +kernel
  · decide +kernel

/-! ## Backed accesses -/

/-- What an exchange event says. -/
structure Exchange where
  tokenId : String
  audience : String
  userId : String
  deriving DecidableEq, Repr

/-- The line is one of Keycloak's, with the three fields as plain quoted values. -/
def Exchange.LoggedAs (x : Exchange) (e : LogLine) : Prop :=
  e.json = none ∧ HoldsPlainly e.line "token_id" x.tokenId ∧ HoldsPlainly e.line "audience" x.audience ∧
    HoldsPlainly e.line "userId" x.userId

/-- A history in which every token that a backend was shown is one that was issued for it. -/
structure Backed (lines : List LogLine) (lookbackSeconds : Int) : Prop where
  /-- Every line with the text `TOKEN_EXCHANGE` is plain, unless it names no token or no audience at all. -/
  plain : ∀ e ∈ lines, Query.exchanges.selects e = true → e.shown = none ∨ ∃ x : Exchange, x.LoggedAs e
  /-- A token id is issued once. -/
  once : ∀ e ∈ lines, ∀ e' ∈ lines, Query.exchanges.selects e = true → Query.exchanges.selects e' = true →
    ∀ x x' : Exchange, x.LoggedAs e → x'.LoggedAs e' → x.tokenId ≠ "" → x.tokenId = x'.tokenId → e = e'
  /-- The exchange behind an access, at most the lookback earlier. -/
  backed : ∀ access ∈ lines, Query.exchanged.selects access = true → ∀ jti, jti? access = some jti →
    ∃ e ∈ lines, Query.exchanges.selects e = true ∧
      (∃ sub, access.get "sub" = some sub ∧ Exchange.LoggedAs ⟨jti, access.service, sub⟩ e) ∧
      access.tsNs - lookbackSeconds * 10 ^ 9 ≤ e.tsNs ∧ e.tsNs ≤ access.tsNs

theorem mem_queryLoki {loki : Loki} {q : Query} {startNs endNs : Int} {e : LogLine}
    (h : e ∈ queryLoki loki q startNs endNs) :
    e ∈ loki.lines ∧ q.selects e = true ∧ startNs ≤ e.tsNs ∧ e.tsNs ≤ endNs := by
  unfold queryLoki at h
  split at h
  · exact absurd h List.not_mem_nil
  · have hmem := List.mem_of_mem_take h
    simpa [Loki.matching] using hmem

/-- A query that answers and stays under its limit returns every line of its window. -/
theorem mem_queryLoki_of_answers {loki : Loki} {q : Query} {startNs endNs : Int} {e : LogLine}
    (hanswers : loki.fails q = false) (hlimit : (loki.matching q startNs endNs).length < queryLimit)
    (hmem : e ∈ loki.lines) (hselects : q.selects e = true) (hstart : startNs ≤ e.tsNs)
    (hend : e.tsNs ≤ endNs) :
    e ∈ queryLoki loki q startNs endNs := by
  unfold queryLoki
  rw [hanswers, if_neg Bool.false_ne_true, List.take_of_length_le hlimit.le]
  simpa [Loki.matching, hselects, hstart, hend] using hmem

section Backing

variable {x : Exchange} {e : LogLine}

theorem Exchange.LoggedAs.get_raw (h : x.LoggedAs e) : e.get "_raw" = some e.line := by
  unfold LogLine.get
  rw [h.1]
  rfl

theorem Exchange.LoggedAs.shown_eq (h : x.LoggedAs e) (hid : x.tokenId ≠ "") (haudience : x.audience ≠ "") :
    e.shown = some (x.tokenId, x.audience) := by
  unfold LogLine.shown
  rw [h.get_raw, Option.bind_some, kvExtract_of_holds h.2.1, kvExtract_of_holds h.2.2.1,
    if_neg hid, if_neg haudience]

/-- What a line that shows a pair was logged for. -/
theorem Exchange.LoggedAs.of_shown {key : String × String} (h : x.LoggedAs e) (hshown : e.shown = some key) :
    x.tokenId = key.1 := by
  unfold LogLine.shown at hshown
  rw [h.get_raw, Option.bind_some, kvExtract_of_holds h.2.1, kvExtract_of_holds h.2.2.1] at hshown
  by_cases hid : x.tokenId = ""
  · rw [if_pos hid] at hshown
    cases hshown
  · by_cases haudience : x.audience = ""
    · rw [if_neg hid, if_pos haudience] at hshown
      cases hshown
    · rw [if_neg hid, if_neg haudience] at hshown
      exact congrArg Prod.fst (Option.some.inj hshown)

theorem Exchange.LoggedAs.record_sub (h : x.LoggedAs e) :
    e.record.sub = if x.userId = "" then none else some x.userId := by
  unfold LogLine.record
  rw [h.get_raw]
  exact kvExtract_of_holds h.2.2.2

theorem backs_record {access : LogLine} (h : x.LoggedAs e) (hsub : access.get "sub" = some x.userId) :
    backs (some e.record) access = true := by
  unfold backs
  simp only [h.record_sub]
  by_cases hempty : x.userId = ""
  · rw [if_pos hempty]
  · rw [if_neg hempty, hsub]
    exact beq_self_eq_true _

theorem jti?_ne_empty {access : LogLine} {jti : String} (h : jti? access = some jti) : jti ≠ "" := by
  unfold jti? at h
  obtain ⟨-, hjti⟩ := Option.filter_eq_some_iff.mp h
  exact (of_decide_eq_true hjti).2

theorem service_ne_empty {access : LogLine} (h : Query.exchanged.selects access = true) :
    access.service ≠ "" := by
  intro hempty
  simp [Query.selects, accessLog, exchangedTokenServices, hempty] at h

end Backing

/-- **No false alarm in CHECK2**, wherever the window lies in the history. -/
theorem check2_of_backed {loki : Loki} {lookbackSeconds : Int} (hbacked : Backed loki.lines lookbackSeconds)
    (startNs endNs : Int) (hanswers : loki.fails .exchanges = false)
    (hlimit : (loki.matching .exchanges (startNs - lookbackSeconds * 10 ^ 9) endNs).length < queryLimit) :
    check2 loki lookbackSeconds startNs endNs = true := by
  unfold check2
  rw [List.all_eq_true]
  rintro ⟨⟨jti, audience⟩, access⟩ hs
  obtain ⟨haccess, hjti, haudience⟩ := mem_seenPairs hs
  simp only [] at hjti haudience haccess ⊢
  subst haudience
  obtain ⟨hmem, hselects, hfrom, hto⟩ := mem_queryLoki haccess
  obtain ⟨e, he, hexchange, ⟨sub, hsub, hlogged⟩, hlookback, hbefore⟩ :=
    hbacked.backed access hmem hselects jti hjti
  have hne : jti ≠ "" := jti?_ne_empty hjti
  have hshown : e.shown = some (jti, access.service) := hlogged.shown_eq hne (service_ne_empty hselects)
  -- The window of the events reaches back far enough for the exchange.
  have hreturned : e ∈ queryLoki loki .exchanges (startNs - lookbackSeconds * 10 ^ 9) endNs :=
    mem_queryLoki_of_answers hanswers hlimit he hexchange (by omega) (by omega)
  obtain ⟨record, hrecord⟩ := Option.isSome_iff_exists.mp (isSome_parse_iff.mpr ⟨e, hreturned, hshown⟩)
  obtain ⟨e', he', hshown', hmade⟩ := exists_line_of_parse hrecord
  obtain ⟨hmem', hexchange', -, -⟩ := mem_queryLoki he'
  rcases hbacked.plain e' hmem' hexchange' with hplain | ⟨x', hlogged'⟩
  · rw [hshown'] at hplain
    cases hplain
  · -- The record is that of the one exchange that issued the token.
    have hid : x'.tokenId = jti := hlogged'.of_shown hshown'
    have hsame : e = e' := hbacked.once e he e' hmem' hexchange hexchange' _ x' hlogged hlogged' hne hid.symm
    subst hsame
    rw [hrecord, ← hmade]
    exact backs_record hlogged hsub

/-- The line of an exchange. -/
def exchangeLine : LogLine where
  service := "keycloak"
  tsNs := 10
  line := "type=\"TOKEN_EXCHANGE\", userId=\"u\", audience=\"order-service\", token_id=\"t\""
  json := none

/-- A token that is exchanged before the window and used twice, once outside and once inside. -/
def reuseStore : Loki where
  lines := [exchangeLine, answeredEntry "order-service" 20 "u" "t" "201",
    answeredEntry "order-service" 60 "u" "t" "201"]
  fails := fun _ => false

theorem exchangeLine_logged : Exchange.LoggedAs ⟨"t", "order-service", "u"⟩ exchangeLine := by
  refine ⟨rfl, ⟨by decide +kernel, by decide +kernel, ?_⟩, ⟨by decide +kernel, by decide +kernel, ?_⟩,
    ⟨by decide +kernel, by decide +kernel, ?_⟩⟩
  · exact ⟨"type=\"TOKEN_EXCHANGE\", userId=\"u\", audience=\"order-service\", ".toList, [],
      by decide +kernel, by decide +kernel⟩
  · exact ⟨"type=\"TOKEN_EXCHANGE\", userId=\"u\", ".toList, ", token_id=\"t\"".toList, by decide +kernel,
      by decide +kernel⟩
  · exact ⟨"type=\"TOKEN_EXCHANGE\", ".toList, ", audience=\"order-service\", token_id=\"t\"".toList,
      by decide +kernel, by decide +kernel⟩

theorem reuseStore_backed : Backed reuseStore.lines 300 := by
  have hexchange : ∀ e ∈ reuseStore.lines, Query.exchanges.selects e = true → e = exchangeLine := by
    decide +kernel
  have haccess : ∀ e ∈ reuseStore.lines, Query.exchanged.selects e = true →
      jti? e = some "t" ∧ e.get "sub" = some "u" ∧ e.service = "order-service" ∧
        10 ≤ e.tsNs ∧ e.tsNs ≤ 60 := by
    decide +kernel
  constructor
  · intro e he hselects
    rw [hexchange e he hselects]
    exact Or.inr ⟨_, exchangeLine_logged⟩
  · intro e he e' he' hselects hselects' x x' _ _ _ _
    rw [hexchange e he hselects, hexchange e' he' hselects']
  · intro access hmem hselects jti hjti
    obtain ⟨hid, hsub, hservice, hfrom, hto⟩ := haccess access hmem hselects
    have heq : jti = "t" := Option.some.inj (hjti.symm.trans hid)
    refine ⟨exchangeLine, List.mem_cons_self, by decide +kernel, ⟨"u", hsub, ?_⟩, ?_, hfrom⟩
    · rw [heq, hservice]
      exact exchangeLine_logged
    · have htime : exchangeLine.tsNs = 10 := rfl
      omega

/-- **A token reused across the edge of the window.** -/
theorem reuse_accepted : check2 reuseStore 300 50 100 = true :=
  check2_of_backed reuseStore_backed 50 100 rfl (by decide +kernel)

end Gekko.Audit
