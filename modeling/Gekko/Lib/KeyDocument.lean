import Gekko.Lib.Json
import Gekko.Lib.LastWins


/-! # `Gekko.Lib.KeyDocument` — key sets in JSON

A key set is a JSON object with an array `keys` of keys, each an object of its own with a key type `kty`
and the members that go with the type. An RSA key has a modulus `n` and an exponent `e`; it is found by
its `kid`. Where several keys have one `kid`, the last one counts.

`Document` and `Entry` carry what makes them well formed, so a value of theirs is a well-formed key set.
Members beyond these are anything.
-/

namespace KeyDocument

def textOf : Json → Option String
  | .str text => some text
  | _ => none

theorem textOf_eq_some_iff {value : Json} {text : String} : textOf value = some text ↔ value = .str text := by
  cases value <;> simp [textOf]

/-- The text of a member that is a string. -/
def text? (name : String) (members : List (String × Json)) : Option String :=
  (Json.member? name members).bind textOf

theorem text?_eq_some_iff {name text : String} {members : List (String × Json)} :
    text? name members = some text ↔ Json.member? name members = some (.str text) := by
  unfold text?
  rw [Option.bind_eq_some_iff]
  simp only [textOf_eq_some_iff, exists_eq_right]

/-- One key. -/
structure Entry where
  members : List (String × Json)
  nodup : (members.map (·.1)).Nodup
  kty : (text? "kty" members).isSome = true
  kid : ∀ value, Json.member? "kid" members = some value → ∃ text, value = .str text
  rsa : text? "kty" members = some "RSA" →
    (text? "kid" members).isSome = true ∧ (text? "n" members).isSome = true ∧
        (text? "e" members).isSome = true

def Entry.toJson (x : Entry) : Json := .obj x.members

def Entry.isRsa (x : Entry) : Bool := text? "kty" x.members = some "RSA"

/-- An RSA key. -/
def Entry.ofRsa (kid n e : String) : Entry where
  members := [("kid", .str kid), ("kty", .str "RSA"), ("n", .str n), ("e", .str e)]
  nodup := by simp
  kty := by simp [text?, Json.member?, textOf]
  kid := by simp [Json.member?]
  rsa := by simp [text?, Json.member?, textOf]

structure Document where
  members : List (String × Json)
  nodup : (members.map (·.1)).Nodup
  entries : List Entry
  keys : Json.member? "keys" members = some (.arr (entries.map Entry.toJson))

/-- The key set with these entries. -/
def Document.ofEntries (entries : List Entry) : Document where
  members := [("keys", .arr (entries.map Entry.toJson))]
  nodup := by simp
  entries := entries
  keys := by simp [Json.member?]

def Document.toJson (doc : Document) : Json := .obj doc.members

section Keys

variable {κ : Type*} (decodeKey : String → String → Option κ)

/-- The key that an entry has for a `kid`, of whatever type it says it is. -/
def Entry.keyFor (kid : String) (x : Entry) : Option κ :=
  match text? "kid" x.members, text? "n" x.members, text? "e" x.members with
  | some id, some n, some e => if id = kid then decodeKey n e else none
  | _, _, _ => none

def Entry.rsaKeyFor (kid : String) (x : Entry) : Option κ := if x.isRsa then x.keyFor decodeKey kid else none

/-- The RSA keys of the document. -/
def Document.rsaKeys (doc : Document) (kid : String) : Option κ :=
  LastWins.lastOf (Entry.rsaKeyFor decodeKey kid) doc.entries

end Keys

/-- Entries that are read one by one, by two readers that agree on each of them. -/
theorem forall₂_congr {α β : Type*} {R S : α → β → Prop} {l : List α} {l' : List β}
    (h : ∀ a ∈ l, ∀ b, R a b ↔ S a b) : List.Forall₂ R l l' ↔ List.Forall₂ S l l' := by
  have himp : ∀ {P Q : α → β → Prop}, (∀ a ∈ l, ∀ b, P a b → Q a b) → List.Forall₂ P l l' →
      List.Forall₂ Q l l' := by
    intro P Q hPQ hP
    have hboth := (List.forall₂_and_left l l').mpr ⟨fun a ha => ha, hP⟩
    exact hboth.imp fun a b hab => hPQ a hab.1 b hab.2
  exact ⟨himp fun a ha b => (h a ha b).mp, himp fun a ha b => (h a ha b).mpr⟩

end KeyDocument
