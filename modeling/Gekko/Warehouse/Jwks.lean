import Mathlib.Data.List.Forall2
import Mathlib.Logic.Function.Basic
import Gekko.Lib.Json
import Gekko.Lib.LastWins


/-! # `Gekko.Warehouse.Jwks` — how Warehouse Service reads a key set

`fetch_keys` reads the answer of Keycloak as a `JwkSet` with serde's derived decoder, which wants every
field of every entry, and makes an RSA key of each entry. It asks neither for the status of the answer
nor for the key type of an entry.
-/

namespace Gekko.Warehouse

/-! ## The decoder -/

/-- `struct Jwk`. -/
structure Jwk where
  kid : String
  n : String
  e : String
  deriving DecidableEq, Repr

/-- The value of a `String` field: the member is there, once, and is a string. -/
def textField (name : String) (members : List (String × Json)) : Option String :=
  match members.filter fun member => member.1 = name with
  | [(_, .str text)] => some text
  | _ => none

/-- serde's reading of a `Jwk`: from an object, whose other members are ignored, or from the sequence of
its fields. -/
def Jwk.decode : Json → Option Jwk
  | .obj members =>
      match textField "kid" members, textField "n" members, textField "e" members with
      | some kid, some n, some e => some ⟨kid, n, e⟩
      | _, _, _ => none
  | .arr [.str kid, .str n, .str e] => some ⟨kid, n, e⟩
  | _ => none

/-- serde's reading of a `Vec<Jwk>`: one element that cannot be read spoils all of them. -/
def decodeAll : List Json → Option (List Jwk)
  | [] => some []
  | value :: values =>
      match Jwk.decode value, decodeAll values with
      | some jwk, some jwks => some (jwk :: jwks)
      | _, _ => none

/-- serde's reading of a `JwkSet`. -/
def JwkSet.decode : Json → Option (List Jwk)
  | .obj members =>
      match members.filter fun member => member.1 = "keys" with
      | [(_, .arr values)] => decodeAll values
      | _ => none
  | .arr [.arr values] => decodeAll values
  | _ => none

/-! ## `fetch_keys` -/

section Fetch

variable {κ : Type} (decodeKey : String → String → Option κ)

/-- The body of the loop, where `decodeKey` is `DecodingKey::from_rsa_components`. -/
def insertKey (keys : String → Option κ) (jwk : Jwk) : String → Option κ :=
  match decodeKey jwk.n jwk.e with
  | some key => Function.update keys jwk.kid (some key)
  | none => keys

/-- `fetch_keys`, for the JSON value that is answered, if any; `none` is its `Err`. -/
def fetchKeys (answer : Option Json) : Option (String → Option κ) :=
  (answer.bind JwkSet.decode).map fun set => set.foldl (insertKey decodeKey) fun _ => none

end Fetch

/-! ## What is read -/

section Reading

variable {κ : Type} {decodeKey : String → String → Option κ} {members : List (String × Json)} {name : String}

/-- Where names are not repeated, the field is the member. -/
theorem textField_eq_some_iff (h : (members.map (·.1)).Nodup) {text : String} :
    textField name members = some text ↔ Json.member? name members = some (.str text) := by
  unfold textField
  rw [Json.filter_name h]
  cases Json.member? name members with
  | none => simp
  | some value => cases value <;> simp

/-- The list is read when every element of it is. -/
theorem decodeAll_eq_some_iff {values : List Json} {set : List Jwk} :
    decodeAll values = some set ↔ List.Forall₂ (fun value jwk => Jwk.decode value = some jwk) values set := by
  induction values generalizing set with
  | nil =>
      rw [List.forall₂_nil_left_iff, decodeAll, Option.some.injEq, eq_comm]
  | cons value values ih =>
      rw [decodeAll, List.forall₂_cons_left_iff]
      constructor
      · intro h
        split at h
        · rename_i jwk jwks hjwk hjwks
          cases h
          exact ⟨jwk, jwks, hjwk, ih.mp hjwks, rfl⟩
        · cases h
      · rintro ⟨jwk, jwks, hjwk, hjwks, rfl⟩
        rw [hjwk, ih.mpr hjwks]

/-- **The map that is built**: under a `kid`, the key of the last entry that has one. -/
theorem foldl_insertKey (set : List Jwk) (kid : String) :
    set.foldl (insertKey decodeKey) (fun _ => none) kid =
      LastWins.lastOf (fun jwk => if jwk.kid = kid then decodeKey jwk.n jwk.e else none) set := by
  have hinsert : ∀ (keys : String → Option κ) (jwk : Jwk) (kid : String), insertKey decodeKey keys jwk kid =
      (if jwk.kid = kid then decodeKey jwk.n jwk.e else none).or (keys kid) := by
    intro keys jwk kid
    unfold insertKey
    by_cases hkid : jwk.kid = kid
    · subst hkid
      cases decodeKey jwk.n jwk.e <;> simp
    · cases decodeKey jwk.n jwk.e <;> simp [hkid, Function.update_of_ne (Ne.symm hkid)]
  rw [LastWins.foldl_insert hinsert, Option.or_none]

end Reading

end Gekko.Warehouse
