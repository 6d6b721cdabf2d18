import Mathlib.Logic.Function.Basic
import Gekko.Lib.LastWins
import Gekko.Lib.Search


/-! # `Gekko.Audit.Events` — Keycloak's event lines, as the audit script reads them

Keycloak logs an event as a line of `key="value"` fields. `kv_extract` takes the value of a key out of
such a line with an unanchored regular expression: it reads what follows the first `key=` in the whole
line, up to the next quote or comma. `parse_token_exchange_events` builds its issuance records from two
of these.

`kvExtract_render` says what is read in terms of the fields: the first field counts whose key *ends in*
the key asked for, or whose value has the text `key=` in it. From that, `records_iff_truthful` is the
exact condition on a list of events under which the records are those of the exchanges that took place.
-/

namespace Gekko.Audit

open LastWins
open Search (afterFirst)

/-- A line of the log store. -/
structure LogLine where
  service : String
  tsNs : Int
  line : String
  /-- The text members of the line, when it is a JSON object. -/
  json : Option (List (String × String))
  deriving DecidableEq, Repr

/-- `entry.get(name)`, for an entry of `query_loki`. -/
def LogLine.get (e : LogLine) (name : String) : Option String :=
  match e.json with
  | some members => (members.find? fun m => m.1 = name).map (·.2)
  | none => if name = "_raw" then some e.line else none

/-- The filter `|= text` of a log query. -/
def LogLine.has (e : LogLine) (text : String) : Bool := (afterFirst text.toList e.line.toList).isSome

/-! ## `kv_extract` -/

/-- The group of `"?([^",]*)"?`; `None` when it is empty. -/
def matchValue (rest : List Char) : Option String :=
  let rest := if rest.head? = some '"' then rest.tail else rest
  let value := rest.takeWhile fun c => c ≠ '"' ∧ c ≠ ','
  if value = [] then none else some (String.ofList value)

/-- `kv_extract`. -/
def kvExtract (line key : String) : Option String :=
  (afterFirst (key.toList ++ ['=']) line.toList).bind matchValue

/-! ## `parse_token_exchange_events` -/

/-- An issuance record. -/
structure Record where
  sub : Option String
  tsNs : Int
  deriving DecidableEq, Repr

/-- The token id and the audience that the script reads from a line. -/
def LogLine.shown (e : LogLine) : Option (String × String) :=
  (e.get "_raw").bind fun raw =>
    match kvExtract raw "token_id", kvExtract raw "audience" with
    | some tokenId, some audience => some (tokenId, audience)
    | _, _ => none

/-- The record made from a line. -/
def LogLine.record (e : LogLine) : Record := ⟨(e.get "_raw").bind fun raw => kvExtract raw "userId", e.tsNs⟩

/-- The body of the loop. -/
def addRecord (records : String × String → Option Record) (e : LogLine) : String × String → Option Record :=
  match e.shown with
  | some key => Function.update records key (some e.record)
  | none => records

def parseTokenExchangeEvents (kcLogs : List LogLine) : String × String → Option Record :=
  kcLogs.foldl addRecord fun _ => none

/-- **What the records are**: the one for a key is made from the last line that shows it. -/
theorem parse_eq_lastOf (kcLogs : List LogLine) (key : String × String) :
    parseTokenExchangeEvents kcLogs key =
      lastOf (fun e => if e.shown = some key then some e.record else none) kcLogs := by
  have hinsert : ∀ (records : String × String → Option Record) (e : LogLine) (key : String × String),
      addRecord records e key = (if e.shown = some key then some e.record else none).or (records key) := by
    intro records e key
    unfold addRecord
    cases e.shown with
    | none => simp
    | some shown =>
        by_cases h : shown = key
        · subst h
          simp
        · simp [h, Function.update_of_ne (Ne.symm h)]
  exact (foldl_insert hinsert kcLogs (fun _ => none) key).trans Option.or_none

/-- A key has a record when some line shows it. -/
theorem isSome_parse_iff {kcLogs : List LogLine} {key : String × String} :
    (parseTokenExchangeEvents kcLogs key).isSome = true ↔ ∃ e ∈ kcLogs, e.shown = some key := by
  rw [parse_eq_lastOf, isSome_lastOf_iff]
  simp

theorem exists_line_of_parse {kcLogs : List LogLine} {key : String × String} {record : Record}
    (h : parseTokenExchangeEvents kcLogs key = some record) :
    ∃ e ∈ kcLogs, e.shown = some key ∧ e.record = record := by
  rw [parse_eq_lastOf] at h
  obtain ⟨e, he, hrecord⟩ := exists_mem_of_lastOf h
  obtain ⟨hshown, hsame⟩ := Option.ite_none_right_eq_some.mp hrecord
  exact ⟨e, he, hshown, Option.some.inj hsame⟩

/-! ## Lines that hold a field plainly -/

/-- The line has the field `key="value"`, and nothing in front of it reads as `key=`. -/
def HoldsPlainly (line key value : String) : Prop :=
  '"' ∉ value.toList ∧ ',' ∉ value.toList ∧
    ∃ pre post, line.toList = pre ++ (key.toList ++ '=' :: '"' :: (value.toList ++ '"' :: post)) ∧
      ¬ key.toList ++ ['='] <:+: pre ++ key.toList

theorem kvExtract_of_holds {line key value : String} (h : HoldsPlainly line key value) :
    kvExtract line key = if value = "" then none else some value := by
  obtain ⟨hquote, hcomma, pre, post, hline, hfirst⟩ := h
  have hplain : ∀ c ∈ value.toList, (decide (c ≠ '"' ∧ c ≠ ',')) = true := by
    intro c hc
    rw [decide_eq_true_eq]
    constructor
    · rintro rfl
      exact hquote hc
    · rintro rfl
      exact hcomma hc
  have htake : (value.toList ++ '"' :: post).takeWhile (fun c => c ≠ '"' ∧ c ≠ ',') = value.toList := by
    rw [List.takeWhile_append_of_pos hplain, List.takeWhile_cons_of_neg (by decide), List.append_nil]
  unfold kvExtract matchValue
  rw [hline, Search.afterFirst_of_first hfirst, Option.bind_some]
  simp only [List.head?_cons, if_true, List.tail_cons, htake, String.toList_eq_nil_iff, String.ofList_toList]

/-! ## Events and their lines -/

/-- A Keycloak event: its time and its fields, in the order in which they are logged. -/
structure Event where
  tsNs : Int
  fields : List (String × String)
  keys : ∀ f ∈ fields, '"' ∉ f.1.toList ∧ '=' ∉ f.1.toList
  values : ∀ f ∈ fields, '"' ∉ f.2.toList
  nodup : (fields.map (·.1)).Nodup

/-- `key="value"`. -/
def renderField (f : String × String) : List Char := f.1.toList ++ '=' :: '"' :: f.2.toList ++ ['"']

/-- The fields behind the first one, each behind a comma. -/
def renderRest : List (String × String) → List Char
  | [] => []
  | f :: fs => ',' :: ' ' :: (renderField f ++ renderRest fs)

/-- The fields, separated by commas. -/
def render : List (String × String) → List Char
  | [] => []
  | f :: fs => renderField f ++ renderRest fs

namespace Event

def field (e : Event) (name : String) : Option String := (e.fields.find? fun f => f.1 = name).map (·.2)

def log (e : Event) : LogLine where
  service := "keycloak"
  tsNs := e.tsNs
  line := String.ofList (render e.fields)
  json := none

/-- A successful exchange that issued the token `tokenId` for `audience`. -/
def Issued (e : Event) (tokenId audience : String) : Prop :=
  e.field "type" = some "TOKEN_EXCHANGE" ∧ e.field "error" = none ∧ e.field "token_id" = some tokenId ∧
    e.field "audience" = some audience

end Event

/-- What `kv_extract` makes of a value: the part in front of a comma. -/
def readValue (value : List Char) : Option String :=
  let value := value.takeWhile fun c => c ≠ ','
  if value = [] then none else some (String.ofList value)

/-- What `kv_extract` reads, in terms of the fields. -/
def scan (key : String) : List (String × String) → Option String
  | [] => none
  | (name, value) :: fs =>
      if key.toList <:+ name.toList then readValue value.toList
      else
        match afterFirst (key.toList ++ ['=']) value.toList with
        | some rest => readValue rest
        | none => scan key fs

/-! ## From the line to the fields -/

/-- A key that may be asked for: a plain word. -/
def Word (key : String) : Prop :=
  '"' ∉ key.toList ∧ '=' ∉ key.toList ∧ ',' ∉ key.toList ∧ ' ' ∉ key.toList

instance (key : String) : Decidable (Word key) := inferInstanceAs (Decidable (_ ∧ _ ∧ _ ∧ _))

section Scan

variable {key : String}

theorem takeWhile_append_quote {value tail : List Char} (hvalue : '"' ∉ value) :
    (value ++ '"' :: tail).takeWhile (fun c => c ≠ '"' ∧ c ≠ ',') = value.takeWhile fun c => c ≠ ',' := by
  induction value with
  | nil => rfl
  | cons c value ih =>
      rw [List.mem_cons, not_or] at hvalue
      have hc : c ≠ '"' := Ne.symm hvalue.1
      rw [List.cons_append, List.takeWhile_cons, List.takeWhile_cons, ih hvalue.2]
      simp [hc]

/-- Right behind `key=`: the value in its quotes. -/
theorem matchValue_quoted {value tail : List Char} (hvalue : '"' ∉ value) :
    matchValue ('"' :: (value ++ '"' :: tail)) = readValue value := by
  unfold matchValue readValue
  simp only [List.head?_cons, if_true, List.tail_cons, takeWhile_append_quote hvalue]

/-- Behind `key=` inside a value: the rest of that value. -/
theorem matchValue_inside {value tail : List Char} (hvalue : '"' ∉ value)
    (htail : tail = [] ∨ tail.head? = some ',') : matchValue (value ++ '"' :: tail) = readValue value := by
  cases value with
  | nil =>
      -- The optional quote of the expression takes the closing quote.
      unfold matchValue readValue
      rcases htail with rfl | htail
      · rfl
      · obtain ⟨t, rfl⟩ := List.head?_eq_some_iff.mp htail
        rfl
  | cons c value =>
      have hc : c ≠ '"' := fun h => hvalue (h ▸ List.mem_cons_self)
      have htake : (c :: value ++ '"' :: tail).takeWhile (fun d => d ≠ '"' ∧ d ≠ ',')
          = (c :: value).takeWhile fun d => d ≠ ',' := takeWhile_append_quote hvalue
      unfold matchValue readValue
      simp only [List.cons_append, List.head?_cons, Option.some.injEq, hc, if_false] at htake ⊢
      rw [htake]

/-- The word is not split by what stands between two fields. -/
theorem suffix_separator_iff (hword : Word key) {name : List Char} :
    key.toList <:+ ',' :: ' ' :: name ↔ key.toList <:+ name := by
  obtain ⟨-, -, hcomma, hspace⟩ := hword
  rw [List.suffix_cons_iff, List.suffix_cons_iff]
  constructor
  · rintro (h | h | h)
    · exact absurd (h ▸ List.mem_cons_self) hcomma
    · exact absurd (h ▸ List.mem_cons_self) hspace
    · exact h
  · intro h
    exact Or.inr (Or.inr h)

/-- **One field**, with `name` in front of its `=` and `tail` behind its closing quote. -/
theorem extract_field (hword : Word key) {name value tail : List Char} (hname : '"' ∉ name ∧ '=' ∉ name)
    (hvalue : '"' ∉ value) (htail : tail = [] ∨ tail.head? = some ',') :
    (afterFirst (key.toList ++ ['=']) (name ++ '=' :: '"' :: (value ++ '"' :: tail))).bind matchValue =
      if key.toList <:+ name then readValue value
      else
        match afterFirst (key.toList ++ ['=']) value with
        | some rest => readValue rest
        | none => (afterFirst (key.toList ++ ['=']) tail).bind matchValue := by
  have hne : key.toList ++ ['='] ≠ [] := by simp
  have hquote : '"' ∉ key.toList ++ ['='] := by
    rw [List.mem_append, not_or]
    exact ⟨hword.1, by decide⟩
  have hsplit : name ++ '=' :: '"' :: (value ++ '"' :: tail)
      = (name ++ ['=']) ++ '"' :: (value ++ '"' :: tail) := by simp
  rw [hsplit, Search.afterFirst_append_cons hne hquote, Search.afterFirst_concat hname.2]
  -- The search stops at the name of the field, inside its value, or behind it.
  by_cases hsuffix : key.toList <:+ name
  · simp only [if_pos hsuffix, List.nil_append, Option.bind_some]
    exact matchValue_quoted hvalue
  · simp only [if_neg hsuffix]
    rw [Search.afterFirst_append_cons hne hquote]
    cases hinside : afterFirst (key.toList ++ ['=']) value with
    | none => rfl
    | some rest =>
        have hrest : '"' ∉ rest := fun h => hvalue (Search.subset_of_afterFirst hinside h)
        simp only [Option.bind_some]
        exact matchValue_inside hrest htail

theorem renderRest_head (fs : List (String × String)) :
    renderRest fs = [] ∨ (renderRest fs).head? = some ',' := by
  cases fs with
  | nil => exact Or.inl rfl
  | cons f fs => exact Or.inr rfl

theorem renderField_append (f : String × String) (tail : List Char) :
    renderField f ++ tail = f.1.toList ++ '=' :: '"' :: (f.2.toList ++ '"' :: tail) := by
  unfold renderField
  simp

theorem extract_renderRest (hword : Word key) {fs : List (String × String)}
    (hkeys : ∀ f ∈ fs, '"' ∉ f.1.toList ∧ '=' ∉ f.1.toList) (hvalues : ∀ f ∈ fs, '"' ∉ f.2.toList) :
    (afterFirst (key.toList ++ ['=']) (renderRest fs)).bind matchValue = scan key fs := by
  induction fs with
  | nil =>
      rw [renderRest, Search.afterFirst_nil (by simp)]
      rfl
  | cons f fs ih =>
      have hname : '"' ∉ ',' :: ' ' :: f.1.toList ∧ '=' ∉ ',' :: ' ' :: f.1.toList := by
        obtain ⟨hquote, hequals⟩ := hkeys f List.mem_cons_self
        simp [hquote, hequals]
      have hrest := ih (fun g hg => hkeys g (List.mem_cons_of_mem _ hg))
        (fun g hg => hvalues g (List.mem_cons_of_mem _ hg))
      have hfield := extract_field hword hname (hvalues f List.mem_cons_self) (renderRest_head fs)
      simp only [suffix_separator_iff hword, hrest, List.cons_append] at hfield
      rw [renderRest, renderField_append]
      exact hfield

/-- **What `kv_extract` reads from the line of an event.** -/
theorem kvExtract_render (hword : Word key) (e : Event) :
    kvExtract (String.ofList (render e.fields)) key = scan key e.fields := by
  have hkeys := e.keys
  have hvalues := e.values
  unfold kvExtract
  rw [String.toList_ofList]
  cases hfields : e.fields with
  | nil =>
      rw [render, Search.afterFirst_nil (by simp)]
      rfl
  | cons f fs =>
      rw [hfields] at hkeys hvalues
      have hrest := extract_renderRest hword (fun g hg => hkeys g (List.mem_cons_of_mem _ hg))
        (fun g hg => hvalues g (List.mem_cons_of_mem _ hg))
      have hfield := extract_field hword (hkeys f List.mem_cons_self) (hvalues f List.mem_cons_self)
        (renderRest_head fs)
      rw [hrest] at hfield
      rw [render, renderField_append]
      exact hfield

end Scan

/-! ## When the records are true -/

namespace Event

/-- The line of the event makes a record for the pair. -/
def Shows (e : Event) (tokenId audience : String) : Prop :=
  e.log.has "TOKEN_EXCHANGE" = true ∧ scan "token_id" e.fields = some tokenId ∧
    scan "audience" e.fields = some audience

/-- The line makes a record for a pair that the event did not issue. -/
def Forges (e : Event) (tokenId audience : String) : Prop :=
  e.Shows tokenId audience ∧ ¬ e.Issued tokenId audience

/-- The event issued the pair, and its line makes no record for it. -/
def Hides (e : Event) (tokenId audience : String) : Prop :=
  e.Issued tokenId audience ∧ ¬ e.Shows tokenId audience

theorem has_log (e : Event) (text : String) :
    e.log.has text = (afterFirst text.toList (render e.fields)).isSome := by
  unfold LogLine.has log
  rw [String.toList_ofList]

theorem shown_log (e : Event) (tokenId audience : String) :
    e.log.shown = some (tokenId, audience) ↔
      scan "token_id" e.fields = some tokenId ∧ scan "audience" e.fields = some audience := by
  have hraw : e.log.get "_raw" = some (String.ofList (render e.fields)) := by
    simp [log, LogLine.get]
  unfold LogLine.shown
  rw [hraw, Option.bind_some, kvExtract_render (by decide +kernel), kvExtract_render (by decide +kernel)]
  cases scan "token_id" e.fields <;> cases scan "audience" e.fields <;> simp

end Event

/-- The lines that the query for exchanges returns. -/
def exchangeLines (events : List Event) : List LogLine :=
  (events.map Event.log).filter fun e => e.has "TOKEN_EXCHANGE"

theorem isSome_record_iff {events : List Event} {tokenId audience : String} :
    (parseTokenExchangeEvents (exchangeLines events) (tokenId, audience)).isSome = true ↔
      ∃ e ∈ events, e.Shows tokenId audience := by
  rw [isSome_parse_iff]
  constructor
  · rintro ⟨line, hline, hshown⟩
    obtain ⟨hmem, hhas⟩ := List.mem_filter.mp hline
    obtain ⟨e, he, rfl⟩ := List.mem_map.mp hmem
    exact ⟨e, he, hhas, (e.shown_log tokenId audience).mp hshown⟩
  · rintro ⟨e, he, hhas, hscan⟩
    exact ⟨e.log, List.mem_filter.mpr ⟨List.mem_map_of_mem he, hhas⟩,
           (e.shown_log tokenId audience).mpr hscan⟩

/-- Every forged pair has been issued by some other event, and every hidden one is shown by another line. -/
structure Truthful (events : List Event) : Prop where
  forged : ∀ e ∈ events, ∀ tokenId audience, e.Forges tokenId audience →
      ∃ e' ∈ events, e'.Issued tokenId audience
  hidden : ∀ e ∈ events, ∀ tokenId audience, e.Hides tokenId audience →
      ∃ e' ∈ events, e'.Shows tokenId audience

/-- **The records are those of the successful exchanges exactly where no line forges or hides one.** -/
theorem records_iff_truthful (events : List Event) :
    (∀ tokenId audience,
      (parseTokenExchangeEvents (exchangeLines events) (tokenId, audience)).isSome = true ↔
        ∃ e ∈ events, e.Issued tokenId audience) ↔ Truthful events := by
  simp only [isSome_record_iff]
  -- A record is a line that shows the pair; what differs from an issuance is forged or hidden.
  constructor
  · intro h
    constructor
    · intro e he tokenId audience hforges
      exact (h tokenId audience).mp ⟨e, he, hforges.1⟩
    · intro e he tokenId audience hhides
      exact (h tokenId audience).mpr ⟨e, he, hhides.1⟩
  · intro h tokenId audience
    constructor
    · rintro ⟨e, he, hshows⟩
      by_cases hissued : e.Issued tokenId audience
      · exact ⟨e, he, hissued⟩
      · exact h.forged e he tokenId audience ⟨hshows, hissued⟩
    · rintro ⟨e, he, hissued⟩
      by_cases hshows : e.Shows tokenId audience
      · exact ⟨e, he, hshows⟩
      · exact h.hidden e he tokenId audience ⟨hissued, hshows⟩

/-! ## Lines that neither forge nor hide -/

/-- Only the field `key` itself can be taken for it, and its value is read as it stands. -/
structure PlainKey (key : String) (fields : List (String × String)) : Prop where
  others : ∀ f ∈ fields, f.1 ≠ key → ¬ key.toList <:+ f.1.toList ∧ ¬ key.toList ++ ['='] <:+: f.2.toList
  own : ∀ f ∈ fields, f.1 = key → f.2 ≠ "" ∧ ',' ∉ f.2.toList

theorem readValue_plain {value : String} (hne : value ≠ "") (hcomma : ',' ∉ value.toList) :
    readValue value.toList = some value := by
  have htake : (value.toList.takeWhile fun c => c ≠ ',') = value.toList :=
    Search.takeWhile_ne_eq_self_iff.mpr hcomma
  unfold readValue
  simp only [htake]
  rw [if_neg fun h => hne (String.toList_eq_nil_iff.mp h), String.ofList_toList]

/-- Then it is read. -/
theorem scan_of_plain {key : String} {fields : List (String × String)} (h : PlainKey key fields) :
    scan key fields = (fields.find? fun f => f.1 = key).map (·.2) := by
  induction fields with
  | nil => rfl
  | cons f fs ih =>
      have hrest : PlainKey key fs :=
        ⟨fun g hg => h.others g (List.mem_cons_of_mem _ hg), fun g hg => h.own g (List.mem_cons_of_mem _ hg)⟩
      by_cases hkey : f.1 = key
      · obtain ⟨hne, hcomma⟩ := h.own f List.mem_cons_self hkey
        rw [scan, if_pos (hkey ▸ List.suffix_refl _), List.find?_cons_of_pos (by simp [hkey]),
          readValue_plain hne hcomma]
        rfl
      · obtain ⟨hsuffix, hinside⟩ := h.others f List.mem_cons_self hkey
        rw [scan, if_neg hsuffix, Search.afterFirst_eq_none_iff.mpr hinside,
          List.find?_cons_of_neg (by simp [hkey])]
        exact ih hrest

/-- **Lines without key-like text in other places**, and with the text `TOKEN_EXCHANGE` only where it is
    the type of a successful exchange, are read right. -/
theorem truthful_of_plain {events : List Event}
    (hplain : ∀ e ∈ events, PlainKey "token_id" e.fields ∧ PlainKey "audience" e.fields)
    (htype : ∀ e ∈ events, e.log.has "TOKEN_EXCHANGE" = true ↔
      e.field "type" = some "TOKEN_EXCHANGE" ∧ e.field "error" = none) : Truthful events := by
  have hiff : ∀ e ∈ events, ∀ tokenId audience, e.Shows tokenId audience ↔ e.Issued tokenId audience := by
    intro e he tokenId audience
    obtain ⟨htoken, haudience⟩ := hplain e he
    unfold Event.Shows Event.Issued
    rw [htype e he, scan_of_plain htoken, scan_of_plain haudience, and_assoc]
    rfl
  constructor
  · intro e he tokenId audience hforges
    exact absurd ((hiff e he _ _).mp hforges.1) hforges.2
  · intro e he tokenId audience hhides
    exact absurd ((hiff e he _ _).mpr hhides.1) hhides.2

/-- A failed login with a user name that an attacker has typed into the form. -/
def typedName : Event where
  tsNs := 0
  fields :=
    [("type", "LOGIN_ERROR"), ("clientId", "frontend"), ("userId", "null"), ("error", "user_not_found"),
      ("username", "TOKEN_EXCHANGE token_id=forged,audience=inventory-service")]
  keys := by decide +kernel
  values := by decide +kernel
  nodup := by decide +kernel

/-- **A typed user name makes an issuance record.** -/
theorem typedName_forges :
    (parseTokenExchangeEvents (exchangeLines [typedName]) ("forged", "inventory-service")).isSome = true ∧
      ¬ ∃ e ∈ [typedName], e.Issued "forged" "inventory-service" := by
  constructor
  · have hshows : typedName.Shows "forged" "inventory-service" :=
      ⟨by rw [Event.has_log]; decide +kernel, by decide +kernel, by decide +kernel⟩
    exact isSome_record_iff.mpr ⟨typedName, List.mem_cons_self, hshows⟩
  · rintro ⟨e, he, htype, -⟩
    cases List.mem_singleton.mp he
    revert htype
    decide +kernel

end Gekko.Audit
