import Gekko.Audit.AccessLog
import Gekko.Audit.Checks
import Gekko.Lib.JsonText


/-! # `Gekko.Audit.LogLines` — what the services print, and what the audit reads

The log of a service is its standard output: lines of JSON, from four JSON writers that escape different
characters, name the members in different orders and put different blanks between them. What stands in a
line is partly up to whoever sends the request: its method, its path, its token. Docker cuts the output
into lines, Loki keeps them, and `query_loki` reads each as JSON again.

`collect_stdout` says that nothing is lost and nothing added in between: there is one entry for each
print, and it has the type, the user, the token id and the status that were printed. So no request can
end a line, begin one of its own, or change a member of the line it is in.

Order Service prints with the structured logging of Spring Boot, which has members of its own. They are
parameters.
-/

namespace Gekko.Audit

open JsonText

/-! ## The writers -/

/-- The characters with a short escape in every one of the four languages. -/
def isShort (c : Char) : Bool := c == '"' || c == '\\' || [8, 9, 10, 12, 13].contains c.toNat

/-- `JSON.stringify` of the frontend. -/
def stringify : Style := ⟨isShort, fun c => c.toNat < 32, hexDigit, [], []⟩

/-- `json.Marshal` of Inventory Service. It also escapes what HTML and JavaScript could mistake for
something else. -/
def marshal : Style :=
  ⟨isShort, fun c => c.toNat < 32 || ['<', '>', '&'].contains c || [0x2028, 0x2029].contains c.toNat,
   hexDigit, [], []⟩

/-- `Display` of a `serde_json::Value`, at Warehouse Service. -/
def display : Style := ⟨isShort, fun c => c.toNat < 32, hexDigit, [], []⟩

/-- `json.dumps` of Employee Service, which leaves nothing but ASCII. -/
def dumps : Style := ⟨isShort, fun c => c.toNat < 32 || 126 < c.toNat, hexDigit, [' '], [' ']⟩

/-- The structured logging of Order Service, with the members that it puts around those of a statement. -/
structure Structured where
  style : Style
  before : List (String × Field)
  after : List (String × Field)

/-- The members of an access log's line. -/
def accessNames : List String := ["type", "method", "path", "status", "duration_ms", "sub", "jti", "trace_id"]

/-- What `query_loki` adds to a line, unless the line has it already. -/
def addedNames : List String := ["_ts_ns", "_service"]

/-- It writes JSON, and has other names for its own members. -/
structure Structured.Plain (spring : Structured) : Prop where
  readable : spring.style.Readable
  names : ∀ m ∈ spring.before ++ spring.after, m.1 ∉ accessNames ++ addedNames

/-- A style with those short escapes and perhaps that of the slash, in which every control character is
escaped. -/
theorem readable_of_controls {style : Style} (hquotes : style.short '"' = true ∧ style.short '\\' = true)
    (hshort : ∀ c, style.short c = true → isShort c = true ∨ c = '/')
    (hunit : ∀ c : Char, c.toNat < 32 → style.unit c = true)
    (hdigit : ∀ n < 16, hexValue? (style.digit n) = some n)
    (hblanks : ∀ c ∈ style.afterComma ++ style.afterColon, c = ' ') : style.Readable where
  quotes := hquotes
  letters := by
    intro c hc
    have hcode : ∀ n ∈ [8, 9, 10, 12, 13], short? (letter (Char.ofNat n)) = some (Char.ofNat n) := by decide
    rcases hshort c hc with h | rfl
    · rcases (Bool.or_eq_true _ _ ▸ h : _ ∨ _) with h | h
      · rcases (Bool.or_eq_true _ _ ▸ h : _ ∨ _) with h | h
        · rw [eq_of_beq h]
          rfl
        · rw [eq_of_beq h]
          rfl
      · have h := hcode c.toNat (List.contains_iff_mem.mp h)
        rwa [Char.ofNat_toNat] at h
    · rfl
  controls := fun c hc => .inr (hunit c hc)
  digits := hdigit
  blanks := hblanks

theorem stringify_readable : stringify.Readable :=
  readable_of_controls ⟨rfl, rfl⟩ (fun _ h => .inl h) (fun _ hc => decide_eq_true hc) hexValue?_hexDigit
    fun _ hc => by cases hc

theorem marshal_readable : marshal.Readable := by
  refine readable_of_controls ⟨rfl, rfl⟩ (fun _ h => .inl h)
    (fun c hc => ?_) hexValue?_hexDigit fun _ hc => by cases hc
  show (decide (c.toNat < 32) || _ || _) = true
  rw [decide_eq_true hc]
  rfl

theorem display_readable : display.Readable := stringify_readable

theorem dumps_readable : dumps.Readable := by
  refine readable_of_controls ⟨rfl, rfl⟩ (fun _ h => .inl h)
    (fun c hc => ?_) hexValue?_hexDigit (by simp [dumps])
  show (decide (c.toNat < 32) || _) = true
  rw [decide_eq_true hc]
  rfl

/-! ## The statements -/

/-- What an access log says of a request. -/
structure AccessFields where
  method : String
  path : String
  status : Status
  durationMs : Int
  sub : String
  jti : String
  traceId : String
  deriving DecidableEq, Repr

/-- `logAuthzDeny`. -/
structure InventoryDeny where
  sub : String
  jti : String
  traceId : String
  reason : String
  requiredRoles : List String
  deriving DecidableEq, Repr

/-- `log_authz_deny`. -/
structure WarehouseDeny where
  sub : String
  jti : String
  traceId : String
  branch : String
  reason : String
  employeeBranch : Option String
  deriving DecidableEq, Repr

/-- In the order of the object literals, of the Go struct and of Order Service's calls. -/
def AccessFields.members (a : AccessFields) : List (String × Field) :=
  [("type", .text "access_log"), ("method", .text a.method), ("path", .text a.path),
   ("status", .int a.status), ("duration_ms", .int a.durationMs), ("sub", .text a.sub),
   ("jti", .text a.jti), ("trace_id", .text a.traceId)]

/-- The map behind `json!` is ordered by the names. -/
def AccessFields.sorted (a : AccessFields) : List (String × Field) :=
  [("duration_ms", .int a.durationMs), ("jti", .text a.jti), ("method", .text a.method),
   ("path", .text a.path), ("status", .int a.status), ("sub", .text a.sub),
   ("trace_id", .text a.traceId), ("type", .text "access_log")]

def InventoryDeny.members (d : InventoryDeny) : List (String × Field) :=
  [("type", .text "authz_deny"), ("sub", .text d.sub), ("jti", .text d.jti), ("trace_id", .text d.traceId),
    ("reason", .text d.reason), ("required_roles", .texts d.requiredRoles)]

def WarehouseDeny.sorted (d : WarehouseDeny) : List (String × Field) :=
  [("branch", .text d.branch), ("employee_branch", (d.employeeBranch.map .text).getD .null),
   ("jti", .text d.jti), ("reason", .text d.reason), ("sub", .text d.sub),
   ("trace_id", .text d.traceId), ("type", .text "authz_deny")]

/-- The statements that print, one for each place in the sources. -/
inductive Printed where
  | frontend (a : AccessFields)
  | orderService (a : AccessFields)
  | inventory (a : AccessFields)
  | inventoryDeny (d : InventoryDeny)
  | warehouse (a : AccessFields)
  | warehouseDeny (d : WarehouseDeny)
  | employee (a : AccessFields)
  deriving DecidableEq, Repr

/-- The line that is printed. -/
def Printed.text (spring : Structured) : Printed → List Char
  | .frontend a => stringify.object a.members
  | .orderService a => spring.style.object (spring.before ++ a.members ++ spring.after)
  | .inventory a => marshal.object a.members
  | .inventoryDeny d => marshal.object d.members
  | .warehouse a => display.object a.sorted
  | .warehouseDeny d => display.object d.sorted
  | .employee a => dumps.object a.members

/-- The output of a service. -/
def stdout (spring : Structured) (ps : List Printed) : List Char :=
  ps.flatMap fun p => p.text spring ++ ['\n']

/-! ## The reader -/

/-- The complete lines of an output. -/
def outputLines (text : List Char) : List (List Char) := (text.splitOn '\n').dropLast

/-- The label that Loki makes of a member: a text, or the digits of an integer. -/
def label? : Json → Option String
  | .str s => some s
  | .num n => if n.den = 1 then some (toString n.num) else none
  | _ => none

/-- The members of an object with a label. Of members of one name the last one counts, so it comes first. -/
def labels? : Json → Option (List (String × String))
  | .obj ms => some (ms.reverse.filterMap fun m => (label? m.2).map fun l => (m.1, l))
  | _ => none

/-- Whether a line is an object with a member of this name. -/
def hasMember (name : String) (line : List Char) : Bool :=
  match loads line with
  | some (.obj ms) => (Json.member? name ms).isSome
  | _ => false

/-- A line in Loki, where nothing but Loki says which service it is from, and of which time. -/
def entry (service : String) (tsNs : Int) (line : List Char) : LogLine :=
  ⟨service, tsNs, String.ofList line, (loads line).bind labels?⟩

/-- The lines of a service's output, with the times at which they came in. -/
def collect (service : String) (times : List Int) (output : List Char) : List LogLine :=
  (outputLines output).zipWith (fun line tsNs => entry service tsNs line) times

/-- What the audit asks an entry for. -/
structure Told where
  type : Option String
  sub : Option String
  jti : Option String
  status : Option String
  deriving DecidableEq, Repr

def LogLine.told (e : LogLine) : Told := ⟨e.get "type", e.get "sub", e.get "jti", e.get "status"⟩

def AccessFields.told (a : AccessFields) : Told :=
  ⟨some "access_log", some a.sub, some a.jti, some (toString (a.status : Int))⟩

/-- What the statement says. -/
def Printed.told : Printed → Told
  | .frontend a => a.told
  | .orderService a => a.told
  | .inventory a => a.told
  | .inventoryDeny d => ⟨some "authz_deny", some d.sub, some d.jti, none⟩
  | .warehouse a => a.told
  | .warehouseDeny d => ⟨some "authz_deny", some d.sub, some d.jti, none⟩
  | .employee a => a.told

/-! ## The round trip -/

section RoundTrip

variable {spring : Structured} {style : Style} {service : String} {tsNs : Int}

/-- The label of a member, as it is written. -/
def fieldLabel? : Field → Option String
  | .text s => some s
  | .int n => some (toString n)
  | _ => none

theorem label?_toJson (f : Field) : label? f.toJson = fieldLabel? f := by
  cases f with
  | text s => rfl
  | int n =>
      show (if (n : Rat).den = 1 then some (toString (n : Rat).num) else none) = some (toString n)
      rw [if_pos (Rat.den_intCast n), Rat.num_intCast]
  | null => rfl
  | texts ss => rfl

/-- The label of a name among the members of an object. -/
def labelOf (ms : List (String × Field)) (name : String) : Option String :=
  ((ms.reverse.filterMap fun m => (fieldLabel? m.2).map fun l => (m.1, l)).find?
    fun m => m.1 = name).map (·.2)

/-- An entry of a printed object, by its members. -/
theorem get_entry (hstyle : style.Readable) (ms : List (String × Field)) (name : String) :
    (entry service tsNs (style.object ms)).get name = labelOf ms name := by
  have hlabels : labels? (.obj (ms.map fun m => (m.1, m.2.toJson))) =
      some (ms.reverse.filterMap fun m => (fieldLabel? m.2).map fun l => (m.1, l)) := by
    show some ((ms.map fun m => (m.1, m.2.toJson)).reverse.filterMap fun m =>
                (label? m.2).map fun l => (m.1, l)) = _
    rw [← List.map_reverse, List.filterMap_map]
    simp only [Function.comp_def, label?_toJson]
  unfold entry LogLine.get labelOf
  rw [Style.loads_object hstyle, Option.bind_some, hlabels]

/-- Members of other names make no difference. -/
theorem get_entry_around (hstyle : style.Readable) {before ms after : List (String × Field)} {name : String}
    (hbefore : ∀ m ∈ before, m.1 ≠ name) (hafter : ∀ m ∈ after, m.1 ≠ name) :
    (entry service tsNs (style.object (before ++ ms ++ after))).get name =
      (entry service tsNs (style.object ms)).get name := by
  have hnone : ∀ ns : List (String × Field), (∀ m ∈ ns, m.1 ≠ name) →
      (ns.reverse.filterMap fun m => (fieldLabel? m.2).map fun l => (m.1, l)).find?
        (fun m => m.1 = name) = none := by
    intro ns hns
    rw [List.find?_eq_none]
    intro m hm hname
    obtain ⟨n, hn, hmap⟩ := List.mem_filterMap.mp hm
    obtain ⟨l, -, rfl⟩ := Option.map_eq_some_iff.mp hmap
    exact hns n (List.mem_reverse.mp hn) (of_decide_eq_true hname)
  rw [get_entry hstyle, get_entry hstyle]
  unfold labelOf
  rw [List.reverse_append, List.reverse_append, List.filterMap_append,
    List.filterMap_append, List.find?_append, List.find?_append, hnone after hafter, hnone before hbefore,
    Option.none_or, Option.or_none]

theorem told_object (hstyle : style.Readable) (ms : List (String × Field)) :
    (entry service tsNs (style.object ms)).told =
      ⟨labelOf ms "type", labelOf ms "sub", labelOf ms "jti", labelOf ms "status"⟩ := by
  unfold LogLine.told
  rw [get_entry hstyle, get_entry hstyle, get_entry hstyle, get_entry hstyle]

theorem told_access (hstyle : style.Readable) (a : AccessFields) :
    (entry service tsNs (style.object a.members)).told = a.told := by
  rw [told_object hstyle]
  rfl

theorem told_sorted (hstyle : style.Readable) (a : AccessFields) :
    (entry service tsNs (style.object a.sorted)).told = a.told := by
  rw [told_object hstyle]
  rfl

/-- **A line is read as what was printed.** -/
theorem told_text (hspring : spring.Plain) (p : Printed) :
    (entry service tsNs (p.text spring)).told = p.told := by
  cases p with
  | frontend a => exact told_access stringify_readable a
  | orderService a =>
      have hother : ∀ name ∈ accessNames, (∀ m ∈ spring.before, m.1 ≠ name) ∧
          ∀ m ∈ spring.after, m.1 ≠ name := by
        intro name hname
        constructor
        · rintro m hm rfl
          exact hspring.names m (List.mem_append_left _ hm) (List.mem_append_left _ hname)
        · rintro m hm rfl
          exact hspring.names m (List.mem_append_right _ hm) (List.mem_append_left _ hname)
      have hget : ∀ name ∈ accessNames, (entry service tsNs ((Printed.orderService a).text spring)).get name =
          (entry service tsNs (spring.style.object a.members)).get name := fun name hname =>
        get_entry_around hspring.readable (hother name hname).1 (hother name hname).2
      have htold : (entry service tsNs (spring.style.object a.members)).told = a.told :=
        told_access hspring.readable a
      show _ = a.told
      rw [← htold]
      unfold LogLine.told
      rw [hget "type" (by decide +kernel), hget "sub" (by decide +kernel), hget "jti" (by decide +kernel),
        hget "status" (by decide +kernel)]
  | inventory a => exact told_access marshal_readable a
  | inventoryDeny d =>
      show (entry service tsNs (marshal.object d.members)).told = _
      rw [told_object marshal_readable]
      rfl
  | warehouse a => exact told_sorted display_readable a
  | warehouseDeny d =>
      show (entry service tsNs (display.object d.sorted)).told = _
      rw [told_object display_readable]
      obtain ⟨sub, jti, traceId, branch, reason, employeeBranch⟩ := d
      cases employeeBranch <;> rfl
  | employee a => exact told_access dumps_readable a

/-- A line is an object, and its members leave the names to `query_loki` that it wants to add. -/
theorem text_eq_object (hspring : spring.Plain) (p : Printed) :
    ∃ style : Style, style.Readable ∧ ∃ ms, p.text spring = style.object ms ∧ ∀ m ∈ ms, m.1 ∉ addedNames := by
  have hfree : ∀ (ms : List (String × Field)) (names : List String), ms.map (·.1) = names →
      (∀ name ∈ names, name ∉ addedNames) → ∀ m ∈ ms, m.1 ∉ addedNames := by
    rintro ms _ rfl h m hm
    exact h m.1 (List.mem_map_of_mem hm)
  have haccess : ∀ a : AccessFields, ∀ m ∈ a.members, m.1 ∉ addedNames := fun a =>
    hfree a.members accessNames rfl (by decide +kernel)
  cases p with
  | frontend a => exact ⟨stringify, stringify_readable, a.members, rfl, haccess a⟩
  | orderService a =>
      refine ⟨spring.style, hspring.readable, spring.before ++ a.members ++ spring.after, rfl, ?_⟩
      intro m hm
      rcases List.mem_append.mp hm with hm | hm
      · rcases List.mem_append.mp hm with hm | hm
        · exact fun h => hspring.names m (List.mem_append_left _ hm) (List.mem_append_right _ h)
        · exact haccess a m hm
      · exact fun h => hspring.names m (List.mem_append_right _ hm) (List.mem_append_right _ h)
  | inventory a => exact ⟨marshal, marshal_readable, a.members, rfl, haccess a⟩
  | inventoryDeny d =>
      exact ⟨marshal, marshal_readable, d.members, rfl,
        hfree d.members ["type", "sub", "jti", "trace_id",
                         "reason", "required_roles"] rfl (by decide +kernel)⟩
  | warehouse a =>
      exact ⟨display, display_readable, a.sorted, rfl,
        hfree a.sorted ["duration_ms", "jti", "method", "path", "status", "sub", "trace_id", "type"] rfl
          (by decide +kernel)⟩
  | warehouseDeny d =>
      exact ⟨display, display_readable, d.sorted, rfl,
        hfree d.sorted ["branch", "employee_branch", "jti", "reason", "sub", "trace_id", "type"] rfl
          (by decide +kernel)⟩
  | employee a => exact ⟨dumps, dumps_readable, a.members, rfl, haccess a⟩

theorem oneLine_text (hspring : spring.Plain) (p : Printed) : Style.OneLine (p.text spring) := by
  obtain ⟨style, hstyle, ms, htext, -⟩ := text_eq_object hspring p
  rw [htext]
  exact Style.oneLine_object hstyle ms

theorem hasMember_object (hstyle : style.Readable) {ms : List (String × Field)} {name : String}
    (hms : ∀ m ∈ ms, m.1 ≠ name) : hasMember name (style.object ms) = false := by
  have hnone : Json.member? name (ms.map fun m => (m.1, m.2.toJson)) = none := by
    induction ms with
    | nil => rfl
    | cons m ms ih =>
        show (if m.1 = name then _ else Json.member? name (ms.map fun m => (m.1, m.2.toJson))) = none
        rw [if_neg (hms m List.mem_cons_self)]
        exact ih fun m hm => hms m (List.mem_cons_of_mem _ hm)
  unfold hasMember
  simp only [Style.loads_object hstyle, hnone, Option.isSome_none]

theorem hasMember_text (hspring : spring.Plain) (p : Printed) {name : String} (hname : name ∈ addedNames) :
    hasMember name (p.text spring) = false := by
  obtain ⟨style, hstyle, ms, htext, hms⟩ := text_eq_object hspring p
  rw [htext]
  apply hasMember_object hstyle
  rintro m hm rfl
  exact hms m hm hname

/-- An output is cut where the prints end. -/
theorem outputLines_stdout (hspring : spring.Plain) (ps : List Printed) :
    outputLines (stdout spring ps) = ps.map (Printed.text spring) := by
  have hsplit : (stdout spring ps).splitOn '\n' = ps.map (Printed.text spring) ++ [[]] := by
    induction ps with
    | nil => exact List.splitOn_nil '\n'
    | cons p ps ih =>
        have hno : '\n' ∉ p.text spring := by
          intro hmem
          have hcode : 32 ≤ '\n'.toNat := oneLine_text hspring p _ hmem
          exact absurd hcode (by decide)
        have hshape : stdout spring (p :: ps) = p.text spring ++ '\n' :: stdout spring ps := by
          show (p.text spring ++ ['\n']) ++ stdout spring ps = _
          rw [List.append_assoc]
          rfl
        rw [hshape, List.splitOn_append_cons_self_of_not_mem hno, ih]
        rfl
  unfold outputLines
  rw [hsplit, List.dropLast_concat]

theorem collect_eq (hspring : spring.Plain) (service : String) (ps : List (Printed × Int)) :
    collect service (ps.map (·.2)) (stdout spring (ps.map (·.1))) =
      ps.map fun p => entry service p.2 (p.1.text spring) := by
  unfold collect
  rw [outputLines_stdout hspring, List.map_map]
  induction ps with
  | nil => rfl
  | cons p ps ih =>
      simp only [List.map_cons, List.zipWith_cons_cons, Function.comp_apply] at ih ⊢
      rw [ih]

/-- **Each print is one entry, with the time at which it came in, and it says what was printed**; and no
    line has a member that would be taken for its time or its service. -/
theorem collect_stdout (hspring : spring.Plain) (service : String) (ps : List (Printed × Int)) :
    (collect service (ps.map (·.2)) (stdout spring (ps.map (·.1)))).map (fun e =>
      (e.service, e.tsNs, e.told)) =
        ps.map (fun p => (service, p.2, p.1.told)) ∧
      ∀ line ∈ outputLines (stdout spring (ps.map (·.1))), ∀ name ∈ addedNames,
      hasMember name line = false := by
  constructor
  · rw [collect_eq hspring, List.map_map]
    apply List.map_congr_left
    intro p _
    rw [Function.comp_apply, told_text hspring]
    rfl
  · intro line hline name hname
    rw [outputLines_stdout hspring, List.map_map] at hline
    obtain ⟨p, -, rfl⟩ := List.mem_map.mp hline
    exact hasMember_text hspring p.1 hname

end RoundTrip

/-- The writer of Spring Boot, at its defaults. It also escapes slashes, and digits are in upper case. -/
def springBoot : Structured where
  style :=
    ⟨fun c => isShort c || c == '/', fun c => c.toNat < 32 || (127 ≤ c.toNat && c.toNat < 160),
      fun n => Char.ofNat (if n < 10 then 48 + n else 55 + n), [], []⟩
  before :=
    [("@timestamp", .text "2026-07-01T00:00:00.000000000Z"), ("@version", .text "1"), ("message", .text ""),
      ("logger_name", .text "access"), ("thread_name", .text "http-nio-8081-exec-1"), ("level", .text "INFO"),
      ("level_value", .int 20000)]
  after := []

theorem springBoot_plain : springBoot.Plain where
  readable := by
    refine readable_of_controls ⟨rfl, rfl⟩ (fun c hc => ?_) (fun c hc => ?_) (by decide) fun _ hc => by
      cases hc
    · rcases (Bool.or_eq_true _ _ ▸ hc : _ ∨ _) with h | h
      · exact .inl h
      · exact .inr (eq_of_beq h)
    · show (decide (c.toNat < 32) || _) = true
      rw [decide_eq_true hc]
      rfl
  names := by decide +kernel

/-- Two requests, with paths that try to look like the ends of their lines. -/
def forgeries : List (Printed × Int) :=
  [(.orderService ⟨"GET", "/orders/x\",\"jti\":\"y\"\x7d\n\x7b\"type\":\"access_log",
                   200, 3, "alice", "trrtcc:1", "-"⟩, 17),
    (.orderService ⟨"GET", "/orders/\\\n<\u2028>", 404, 8, "bob", "trrtcc:2", "-"⟩, 21)]

theorem forgeries_told :
    springBoot.Plain ∧
      (collect "order-service" (forgeries.map (·.2)) (stdout springBoot (forgeries.map (·.1)))).map
          (fun e => (e.service, e.tsNs, e.told)) =
        [("order-service", 17, ⟨some "access_log", some "alice", some "trrtcc:1", some "200"⟩),
          ("order-service", 21, ⟨some "access_log", some "bob", some "trrtcc:2", some "404"⟩)] ∧
      ∀ line ∈ outputLines (stdout springBoot (forgeries.map (·.1))), ∀ name ∈ addedNames,
      hasMember name line = false :=
  ⟨springBoot_plain, collect_stdout springBoot_plain "order-service" forgeries⟩

end Gekko.Audit
