import Mathlib.Data.List.Forall2
import Gekko.Inventory.Jwks
import Gekko.Lib.KeyDocument


/-! # `Gekko.Inventory.Refresh` — what Inventory Service makes of an answer to its fetch

`refresh` decodes the body of whatever answer comes into a `jwkSet`, without a look at the status, and
takes the keys from that. `encoding/json` leaves a field alone that the body does not have: a body that
is `null` or an object without `keys` decodes into the empty set. It takes a member for a field if its
name differs in nothing but the case of letters.

`orderly_iff` says for which answers the keys are those of a key set that Keycloak has sent, or stay as
they were.
-/

namespace Gekko.Inventory.Jwks

open KeyDocument LastWins

/-! ## `encoding/json` -/

/-- `foldRune`, on the letters that are in the names of fields: Kelvin's sign and the long s are among
them. -/
def foldRune (c : Char) : Char :=
  if c.toNat = 0x212A then 'k'
  else if c.toNat = 0x17F then 's'
  else if 65 ≤ c.toNat ∧ c.toNat ≤ 90 then Char.ofNat (c.toNat + 32)
  else c

def foldName (name : String) : List Char := name.toList.map foldRune

inductive Field where
  | kid
  | kty
  | n
  | e
  deriving DecidableEq, Repr

/-- The tag of the field. -/
def Field.tag : Field → String
  | .kid => "kid"
  | .kty => "kty"
  | .n => "n"
  | .e => "e"

/-- The field that a member of the name is taken for. -/
def Field.ofName (name : String) : Option Field :=
  [Field.kid, .kty, .n, .e].find? fun f => foldName name = f.tag.toList

def Jwk.get (j : Jwk) : Field → String
  | .kid => j.kid
  | .kty => j.kty
  | .n => j.n
  | .e => j.e

def Jwk.set (j : Jwk) (f : Field) (text : String) : Jwk :=
  match f with
  | .kid => { j with kid := text }
  | .kty => { j with kty := text }
  | .n => { j with n := text }
  | .e => { j with e := text }

/-- The zero value. -/
def Jwk.zero : Jwk := ⟨"", "", "", ""⟩

/-- A value is stored in a string that holds `old`. `null` has no effect. -/
def storeText (old : String) : Json → Option String
  | .null => some old
  | .str text => some text
  | _ => none

def Jwk.storeMember (j : Jwk) (member : String × Json) : Option Jwk :=
  match Field.ofName member.1 with
  | some f => (storeText (j.get f) member.2).map (j.set f)
  | none => some j

/-- A value is stored in a struct. A value of the wrong type makes `Decode` fail in the end. -/
def Jwk.store (j : Jwk) : Json → Option Jwk
  | .null => some j
  | .obj members => members.foldlM Jwk.storeMember j
  | _ => none

/-- The elements of an array are stored in the cells of a slice, which is made longer where it has to be. -/
def storeAll : List Jwk → List Json → Option (List Jwk)
  | cells, [] => some cells
  | [], value :: values =>
      match Jwk.zero.store value, storeAll [] values with
      | some j, some cells => some (j :: cells)
      | _, _ => none
  | cell :: cells, value :: values =>
      match cell.store value, storeAll cells values with
      | some j, some cells => some (j :: cells)
      | _, _ => none

/-- A slice, with the cells of its array that have been in use. -/
structure Slice where
  cells : List Jwk
  len : Nat
  deriving DecidableEq, Repr

/-- A value is stored in the slice. `null` sets it to `nil`. -/
def Slice.store (s : Slice) : Json → Option Slice
  | .null => some ⟨[], 0⟩
  | .arr [] => some ⟨[], 0⟩
  -- What is in the cells from before is not cleared.
  | .arr values => (storeAll s.cells values).map fun cells => ⟨cells, values.length⟩
  | _ => none

def Slice.storeMember (s : Slice) (member : String × Json) : Option Slice :=
  if foldName member.1 = "keys".toList then s.store member.2 else some s

/-- `Decode(&set)`, for the first value in the body. -/
def decodeSet : Json → Option (List Jwk)
  | .null => some []
  | .obj members => (members.foldlM Slice.storeMember ⟨[], 0⟩).map fun s => s.cells.take s.len
  | _ => none

/-! ## `refresh` -/

/-- An answer. `body` is the first JSON value in its body, if it begins with one. -/
structure Response where
  status : Nat
  body : Option Json

structure Cache (κ : Type) where
  keys : String → Option κ
  lastFetch : Int

inductive RefreshError where
  /-- `fetching JWKS` -/
  | fetching
  /-- `decoding JWKS` -/
  | decoding
  deriving DecidableEq, Repr

variable {κ : Type}

/-- `refresh`, where `none` is an error of `http.Get`, and `now` is the time when it is done. -/
def refresh (decodeKey : String → String → Option κ) (now : Int) (c : Cache κ) (resp : Option Response) :
    Except RefreshError Unit × Cache κ :=
  match resp with
  | none => (.error .fetching, c)
  | some r =>
      match r.body.bind decodeSet with
      | none => (.error .decoding, c)
      | some set => (.ok (), ⟨keysOf decodeKey set, now⟩)

/-- The cache in a state of the machine. -/
def State.cache (s : State κ) : Cache κ := ⟨s.keys, s.lastFetch⟩

variable {decodeKey : String → String → Option κ} {now : Int} {c : Cache κ} {resp : Option Response}

/-- **The machine's last step of a fetch is `refresh`**: `install` where it succeeds, `fail` where it
does not. -/
theorem perform_refresh {s : State κ} {i : Nat} {call : Call κ} (hcall : s.calls[i]? = some call)
    (hphase : call.phase = .fetching) (resp : Option Response) :
    ∃ act s', s.perform decodeKey act = some s' ∧ s'.cache = (refresh decodeKey s.now s.cache resp).2 ∧
      match (refresh decodeKey s.now s.cache resp).1 with
      | .ok _ => ∃ set, act = .install i set
      | .error _ => act = .fail i := by
  have hfail : ∃ s', s.perform decodeKey (.fail i) = some s' ∧ s'.cache = s.cache := by
    simp only [State.perform, hcall, hphase]
    exact ⟨_, rfl, rfl⟩
  have hinstall : ∀ set, ∃ s', s.perform decodeKey (.install i set) = some s' ∧
      s'.cache = ⟨keysOf decodeKey set, s.now⟩ := by
    intro set
    simp only [State.perform, hcall, hphase]
    exact ⟨_, rfl, rfl⟩
  unfold refresh
  split
  · obtain ⟨s', hs', hcache⟩ := hfail
    exact ⟨_, s', hs', hcache, rfl⟩
  · split
    · obtain ⟨s', hs', hcache⟩ := hfail
      exact ⟨_, s', hs', hcache, rfl⟩
    · rename_i set hset
      obtain ⟨s', hs', hcache⟩ := hinstall set
      exact ⟨_, s', hs', hcache, set, rfl⟩

/-! ## What is read from a key set -/

@[simp] theorem Jwk.get_set (j : Jwk) (f g : Field) (text : String) :
    (j.set f text).get g = if g = f then text else j.get g := by
  cases f <;> cases g <;> rfl

theorem Jwk.ext_get {j k : Jwk} (h : ∀ f, j.get f = k.get f) : j = k := by
  obtain ⟨kid, kty, n, e⟩ := j
  obtain ⟨kid', kty', n', e'⟩ := k
  have hkid : kid = kid' := h .kid
  have hkty : kty = kty' := h .kty
  have hn : n = n' := h .n
  have he : e = e' := h .e
  rw [hkid, hkty, hn, he]

theorem ofName_tag (f : Field) : Field.ofName f.tag = some f := by
  cases f <;> decide +kernel

/-- No member is taken for a field without having its name. -/
def PlainNames (members : List (String × Json)) : Prop :=
  ∀ member ∈ members, ∀ f, Field.ofName member.1 = some f → member.1 = f.tag

/-- The values that are taken for fields can be stored in strings. -/
def Storable (members : List (String × Json)) : Prop :=
  ∀ f : Field, ∀ value, Json.member? f.tag members = some value → value = .null ∨ ∃ text, value = .str text

theorem tag_injective {f g : Field} (h : f.tag = g.tag) : f = g := by
  have hsame := ofName_tag f
  rw [h, ofName_tag g] at hsame
  exact (Option.some.inj hsame).symm

/-- A string is left alone by `null`, set by a string, and by nothing else. -/
theorem storeText_eq_some_iff {old text : String} {value : Json} :
    storeText old value = some text ↔ (value = .null ∧ old = text) ∨ value = .str text := by
  cases value <;> simp [storeText]

theorem member?_cons_ne {name key : String} {value : Json} {members : List (String × Json)} (h : key ≠ name) :
    Json.member? name ((key, value) :: members) = Json.member? name members := if_neg h

theorem member?_eq_none {name : String} {members : List (String × Json)} (h : name ∉ members.map (·.1)) :
    Json.member? name members = none := by
  induction members with
  | nil => rfl
  | cons head rest ih =>
      obtain ⟨key, value⟩ := head
      rw [List.map_cons, List.mem_cons, not_or] at h
      rw [member?_cons_ne (Ne.symm h.1)]
      exact ih h.2

section Cons

variable {name : String} {value : Json} {rest : List (String × Json)} {g : Field}

theorem text?_cons_ne {key : String} (h : key ≠ name) :
    text? name ((key, value) :: rest) = text? name rest := by
  unfold text?
  rw [member?_cons_ne h]

/-- A member that has the name of no field is passed over. -/
theorem storable_cons_of_ne (hne : ∀ f : Field, name ≠ f.tag) :
    Storable ((name, value) :: rest) ↔ Storable rest := by
  refine forall_congr' fun f => ?_
  rw [member?_cons_ne (hne f)]

/-- A member for a field has to be one that a string can hold, and the others are asked about by
themselves. -/
theorem storable_cons_tag (habsent : Json.member? g.tag rest = none) :
    Storable ((g.tag, value) :: rest) ↔ (value = .null ∨ ∃ text, value = .str text) ∧ Storable rest := by
  have hfirst : Json.member? g.tag ((g.tag, value) :: rest) = some value := if_pos rfl
  have hother : ∀ f : Field, f ≠ g → Json.member? f.tag ((g.tag, value) :: rest) = Json.member? f.tag rest :=
    fun f hf => member?_cons_ne fun hsame => hf (tag_injective hsame).symm
  constructor
  · intro hstorable
    refine ⟨hstorable g value hfirst, ?_⟩
    intro f v hv
    by_cases hf : f = g
    · subst hf
      rw [habsent] at hv
      cases hv
    · exact hstorable f v ((hother f hf).trans hv)
  · rintro ⟨hvalue, hstorable⟩ f v hv
    by_cases hf : f = g
    · subst hf
      rw [hfirst] at hv
      cases hv
      exact hvalue
    · rw [hother f hf] at hv
      exact hstorable f v hv

/-- What a field holds in the end, before and after its member has been stored. -/
theorem getD_text?_cons_tag {j : Jwk} {text : String} (habsent : Json.member? g.tag rest = none)
    (hstore : storeText (j.get g) value = some text) (f : Field) :
    (text? f.tag ((g.tag, value) :: rest)).getD (j.get f) =
      (text? f.tag rest).getD ((j.set g text).get f) := by
  rw [Jwk.get_set]
  by_cases hf : f = g
  · subst hf
    have hfirst : Json.member? f.tag ((f.tag, value) :: rest) = some value := if_pos rfl
    rw [if_pos rfl]
    unfold text?
    rw [habsent, hfirst]
    rcases storeText_eq_some_iff.mp hstore with ⟨rfl, hold⟩ | rfl
    · exact hold
    · rfl
  · rw [if_neg hf, text?_cons_ne fun hsame => hf (tag_injective hsame).symm]

end Cons

/-- **What an entry is read as**, where names are plain and not repeated: a field is the text of the
    member of its name, if there is one. -/
theorem foldlM_storeMember {members : List (String × Json)} (hnodup : (members.map (·.1)).Nodup)
    (hplain : PlainNames members) (j j' : Jwk) :
    members.foldlM Jwk.storeMember j = some j' ↔
      Storable members ∧ ∀ f, j'.get f = (text? f.tag members).getD (j.get f) := by
  induction members generalizing j with
  | nil =>
      constructor
      · intro h
        cases h
        exact ⟨nofun, fun f => rfl⟩
      · rintro ⟨-, h⟩
        show some j = some j'
        rw [Jwk.ext_get (j := j) (k := j') fun f => (h f).symm]
  | cons head rest ih =>
      obtain ⟨name, value⟩ := head
      rw [List.map_cons, List.nodup_cons] at hnodup
      have hrest := ih hnodup.2 (fun member hmember => hplain member (List.mem_cons_of_mem _ hmember))
      rw [List.foldlM_cons]
      cases hname : Field.ofName name with
      | none =>
          -- The member is taken for no field, and so has the name of none.
          have hne : ∀ f : Field, name ≠ f.tag := by
            rintro f rfl
            rw [ofName_tag] at hname
            cases hname
          have hstep : Jwk.storeMember j (name, value) = some j := by
            simp only [Jwk.storeMember, hname]
          rw [hstep, storable_cons_of_ne hne]
          simp only [text?_cons_ne (hne _)]
          exact hrest j
      | some g =>
          have htag : name = g.tag := hplain _ List.mem_cons_self g hname
          subst htag
          have habsent : Json.member? g.tag rest = none := member?_eq_none hnodup.1
          have hstep : Jwk.storeMember j (g.tag, value) = (storeText (j.get g) value).map (j.set g) := by
            simp only [Jwk.storeMember, hname]
          rw [hstep, storable_cons_tag habsent]
          cases hstore : storeText (j.get g) value with
          | none =>
              show (none : Option Jwk) = some j' ↔ _
              refine iff_of_false nofun ?_
              rintro ⟨⟨rfl | ⟨text, rfl⟩, -⟩, -⟩
              · cases hstore
              · cases hstore
          | some text =>
              have hvalue : value = .null ∨ ∃ text, value = .str text := by
                rcases storeText_eq_some_iff.mp hstore with ⟨hnull, -⟩ | hstr
                · exact Or.inl hnull
                · exact Or.inr ⟨text, hstr⟩
              simp only [hvalue, true_and, getD_text?_cons_tag habsent hstore]
              exact hrest (j.set g text)

theorem foldlM_storeKeys {members : List (String × Json)} (hnodup : (members.map (·.1)).Nodup)
    (hplain : ∀ member ∈ members, foldName member.1 = "keys".toList → member.1 = "keys") (s : Slice) :
    members.foldlM Slice.storeMember s = (Json.member? "keys" members).elim (some s) s.store := by
  induction members generalizing s with
  | nil => rfl
  | cons head rest ih =>
      obtain ⟨name, value⟩ := head
      rw [List.map_cons, List.nodup_cons] at hnodup
      have hrest := ih hnodup.2 (fun member hmember => hplain member (List.mem_cons_of_mem _ hmember))
      rw [List.foldlM_cons]
      by_cases hname : foldName name = "keys".toList
      · have hkeys : name = "keys" := hplain _ List.mem_cons_self hname
        subst hkeys
        have hstep : Slice.storeMember s ("keys", value) = s.store value := if_pos hname
        have hfirst : Json.member? "keys" (("keys", value) :: rest) = some value := if_pos rfl
        rw [hstep, hfirst]
        cases hstore : s.store value with
        | none => exact hstore.symm
        | some s' =>
            refine (hrest s').trans ?_
            rw [member?_eq_none hnodup.1]
            exact hstore.symm
      · have hstep : Slice.storeMember s (name, value) = some s := if_neg hname
        have hne : name ≠ "keys" := by
          rintro rfl
          exact hname (by decide +kernel)
        rw [hstep, member?_cons_ne hne]
        exact hrest s

/-- A slice that is new has one cell for each element. -/
theorem storeAll_nil_eq_some_iff {values : List Json} {cells : List Jwk} :
    storeAll [] values = some cells ↔
    List.Forall₂ (fun value j => Jwk.zero.store value = some j) values cells := by
  induction values generalizing cells with
  | nil =>
      rw [List.forall₂_nil_left_iff, storeAll, Option.some.injEq, eq_comm]
  | cons value values ih =>
      rw [storeAll, List.forall₂_cons_left_iff]
      constructor
      · intro h
        split at h
        · rename_i j rest hj hrest
          cases h
          exact ⟨j, rest, hj, ih.mp hrest, rfl⟩
        · cases h
      · rintro ⟨j, rest, hj, hrest, rfl⟩
        rw [hj, ih.mpr hrest]

/-- No name in the document differs from that of a field in nothing but the case of letters. -/
def Plain (doc : Document) : Prop :=
  (∀ member ∈ doc.members, foldName member.1 = "keys".toList → member.1 = "keys") ∧
    ∀ x ∈ doc.entries, PlainNames x.members

/-- What `encoding/json` makes of an entry. -/
def ReadAs (x : Entry) (j : Jwk) : Prop := Storable x.members ∧
    ∀ f : Field, j.get f = (text? f.tag x.members).getD ""

theorem store_toJson {x : Entry} (hplain : PlainNames x.members) {j : Jwk} :
    Jwk.zero.store x.toJson = some j ↔ ReadAs x j := by
  have hzero : ∀ f, Jwk.zero.get f = "" := by
    intro f
    cases f <;> rfl
  show x.members.foldlM Jwk.storeMember Jwk.zero = some j ↔ ReadAs x j
  rw [foldlM_storeMember x.nodup hplain]
  simp only [hzero]
  rfl

/-- **What is read from a key set**, entry by entry. -/
theorem decodeSet_toJson {doc : Document} (hplain : Plain doc) {set : List Jwk} :
    decodeSet doc.toJson = some set ↔ List.Forall₂ ReadAs doc.entries set := by
  have hall : storeAll [] (doc.entries.map Entry.toJson) = some set ↔
      List.Forall₂ ReadAs doc.entries set := by
    rw [storeAll_nil_eq_some_iff, List.forall₂_map_left_iff]
    exact forall₂_congr fun x hx j => store_toJson (hplain.2 x hx)
  have hdecode : decodeSet doc.toJson =
      (Slice.store ⟨[], 0⟩ (.arr (doc.entries.map Entry.toJson))).map fun s => s.cells.take s.len := by
    have hfold := foldlM_storeKeys doc.nodup hplain.1 ⟨[], 0⟩
    rw [doc.keys] at hfold
    exact congrArg (Option.map fun s : Slice => s.cells.take s.len) hfold
  rw [hdecode, ← hall]
  cases hentries : doc.entries.map Entry.toJson with
  | nil => rfl
  | cons value values =>
      -- There is a cell for each element, so none is cut off.
      simp only [Slice.store, Option.map_map]
      cases hcells : storeAll [] (value :: values) with
      | none => exact iff_of_false nofun nofun
      | some cells =>
          have hlength : cells.length = (value :: values).length :=
            (storeAll_nil_eq_some_iff.mp hcells).length_eq.symm
          simp only [Option.map_some, Function.comp, ← hlength, List.take_length]

/-! ## The keys that are taken from it -/

theorem keysOf_eq_lastOf (set : List Jwk) (kid : String) :
    keysOf decodeKey set kid =
      lastOf (fun j => if j.kty = "RSA" ∧ j.kid = kid then decodeKey j.n j.e else none) set := by
  rw [← Option.or_none (o := lastOf _ set)]
  refine @foldl_insert Jwk String κ _
    (fun j kid => if j.kty = "RSA" ∧ j.kid = kid then decodeKey j.n j.e else none) ?_ set
    (fun _ => none) kid
  intro keys j kid
  by_cases hkty : j.kty = "RSA"
  · by_cases hkid : j.kid = kid
    · subst hkid
      cases decodeKey j.n j.e <;> simp [hkty]
    · cases decodeKey j.n j.e <;> simp [hkty, hkid, Function.update_of_ne (Ne.symm hkid)]
  · simp [hkty]

/-- An entry that is read without an error counts for what it says. -/
theorem rsaKeyFor_eq {x : Entry} {j : Jwk} (h : ReadAs x j) (kid : String) :
    x.rsaKeyFor decodeKey kid = if j.kty = "RSA" ∧ j.kid = kid then decodeKey j.n j.e else none := by
  obtain ⟨-, hget⟩ := h
  have hkty : j.kty = (text? "kty" x.members).getD "" := hget .kty
  have hkid : j.kid = (text? "kid" x.members).getD "" := hget .kid
  have hn : j.n = (text? "n" x.members).getD "" := hget .n
  have he : j.e = (text? "e" x.members).getD "" := hget .e
  obtain ⟨kty, htext⟩ := Option.isSome_iff_exists.mp x.kty
  rw [htext, Option.getD_some] at hkty
  unfold Entry.rsaKeyFor Entry.isRsa
  by_cases hrsa : kty = "RSA"
  · -- An RSA entry has all of its members.
    subst hrsa
    obtain ⟨hkids, hns, hes⟩ := x.rsa htext
    obtain ⟨id, hid⟩ := Option.isSome_iff_exists.mp hkids
    obtain ⟨n, hn'⟩ := Option.isSome_iff_exists.mp hns
    obtain ⟨e, he'⟩ := Option.isSome_iff_exists.mp hes
    rw [hid, Option.getD_some] at hkid
    rw [hn', Option.getD_some] at hn
    rw [he', Option.getD_some] at he
    unfold Entry.keyFor
    simp only [htext, hid, hn', he', hkty, hkid, hn, he, decide_true, if_true, true_and]
  · have hne : text? "kty" x.members ≠ some "RSA" := by
      rw [htext]
      exact fun hsame => hrsa (Option.some.inj hsame)
    simp [hne, hkty, hrsa]

/-- **The keys of a key set** are those of its RSA entries. -/
theorem keysOf_document {doc : Document} {set : List Jwk} (h : List.Forall₂ ReadAs doc.entries set) :
    keysOf decodeKey set = doc.rsaKeys decodeKey := by
  funext kid
  rw [keysOf_eq_lastOf]
  exact (lastOf_forall₂ h fun x j _ hread => rsaKeyFor_eq hread kid).symm

/-! ## Answers -/

/-- A status of success. -/
def success (status : Nat) : Bool := decide (200 ≤ status ∧ status < 300)

/-- The keys are those of a key set that has been answered with success, or an error is returned and the
    cache is as it was. -/
def Orderly (decodeKey : String → String → Option κ) (now : Int) (c : Cache κ)
    (resp : Option Response) : Prop :=
  (∃ status, ∃ doc : Document, resp = some ⟨status, some doc.toJson⟩ ∧ success status = true ∧
      refresh decodeKey now c resp = (.ok (), ⟨doc.rsaKeys decodeKey, now⟩)) ∨
    ∃ error, refresh decodeKey now c resp = (.error error, c)

/-- A body that can be decoded is a key set, and comes with a status of success. -/
def Credible (resp : Option Response) : Prop :=
  ∀ r ∈ resp, ∀ body ∈ r.body, (decodeSet body).isSome = true →
    success r.status = true ∧ ∃ doc : Document, body = doc.toJson

/-- A key set in the body is plain. -/
def PlainlyNamed (resp : Option Response) : Prop :=
  ∀ r ∈ resp, ∀ doc : Document, r.body = some doc.toJson → Plain doc

theorem credible_of_orderly (h : Orderly decodeKey now c resp) : Credible resp := by
  intro r hr body hbody hdecodes
  cases hr
  obtain ⟨status, body'⟩ := r
  cases hbody
  rcases h with ⟨status', doc, hresp, hsuccess, -⟩ | ⟨error, herror⟩
  · cases hresp
    exact ⟨hsuccess, doc, rfl⟩
  · -- A body that can be decoded makes no error.
    obtain ⟨set, hset⟩ := Option.isSome_iff_exists.mp hdecodes
    simp only [refresh, Option.bind_some, hset] at herror
    cases herror

theorem orderly_of_credible (hcredible : Credible resp) (hplain : PlainlyNamed resp) :
    Orderly decodeKey now c resp := by
  cases resp with
  | none => exact Or.inr ⟨.fetching, rfl⟩
  | some r =>
      obtain ⟨status, body⟩ := r
      cases hdecode : body.bind decodeSet with
      | none =>
          refine Or.inr ⟨.decoding, ?_⟩
          simp only [refresh, hdecode]
      | some set =>
          obtain ⟨value, rfl, hvalue⟩ := Option.bind_eq_some_iff.mp hdecode
          obtain ⟨hsuccess, doc, rfl⟩ := hcredible _ rfl value rfl (by rw [hvalue]; rfl)
          have hread := (decodeSet_toJson (hplain _ rfl doc rfl)).mp hvalue
          refine Or.inl ⟨status, doc, rfl, hsuccess, ?_⟩
          simp only [refresh, Option.bind_some, hvalue, keysOf_document hread]

/-- **Which answers are taken for what they are**: of those in which no name differs from that of a
    field in nothing but the case of letters, exactly the credible ones. -/
theorem orderly_iff :
    (PlainlyNamed resp → (Orderly decodeKey now c resp ↔ Credible resp)) ∧
      (Orderly decodeKey now c resp → Credible resp) :=
  ⟨fun hplain => ⟨credible_of_orderly, fun hcredible => orderly_of_credible hcredible hplain⟩,
   credible_of_orderly⟩

/-- Names that are those of fields are plain. -/
theorem plainNames_of_tags {members : List (String × Json)}
    (h : ∀ member ∈ members, ∃ g : Field, member.1 = g.tag) :
    PlainNames members := by
  intro member hmember f hf
  obtain ⟨g, hg⟩ := h member hmember
  rw [hg, ofName_tag] at hf
  rw [hg, Option.some.inj hf]

theorem plainNames_ofRsa (kid n e : String) : PlainNames (Entry.ofRsa kid n e).members := by
  refine plainNames_of_tags ?_
  intro member hmember
  simp only [Entry.ofRsa, List.mem_cons, List.not_mem_nil, or_false] at hmember
  rcases hmember with rfl | rfl | rfl | rfl
  · exact ⟨.kid, rfl⟩
  · exact ⟨.kty, rfl⟩
  · exact ⟨.n, rfl⟩
  · exact ⟨.e, rfl⟩

theorem plain_ofEntries {entries : List Entry} (h : ∀ x ∈ entries, PlainNames x.members) :
    Plain (.ofEntries entries) := by
  refine ⟨?_, h⟩
  intro member hmember _
  cases List.mem_singleton.mp hmember
  rfl

/-- Two keys, as Keycloak answers with them. -/
def twoKeys : Document := .ofEntries [.ofRsa "old" "AQAB" "AQAB", .ofRsa "new" "AQAC" "AQAB"]

theorem twoKeys_plain : Plain twoKeys := by
  refine plain_ofEntries ?_
  intro x hx
  rcases List.mem_pair.mp hx with rfl | rfl
  · exact plainNames_ofRsa _ _ _
  · exact plainNames_ofRsa _ _ _

/-- The names are those in the JSON value. -/
theorem Plain.of_toJson {doc doc' : Document} (h : Plain doc) (heq : doc.toJson = doc'.toJson) :
    Plain doc' := by
  have hmembers : doc.members = doc'.members := Json.obj.inj heq
  have hentries : doc.entries.map Entry.toJson = doc'.entries.map Entry.toJson := by
    have hkeys := doc.keys
    rw [hmembers, doc'.keys] at hkeys
    exact (Json.arr.inj (Option.some.inj hkeys)).symm
  refine ⟨hmembers ▸ h.1, ?_⟩
  intro x hx
  obtain ⟨y, hy, hxy⟩ := List.mem_map.mp (hentries ▸ List.mem_map_of_mem hx)
  rw [← Json.obj.inj hxy]
  exact h.2 y hy

theorem twoKeys_orderly :
    Orderly (fun n e => some (n, e)) 20 ⟨fun _ => none, 0⟩ (some ⟨200, some twoKeys.toJson⟩) := by
  have hplain : PlainlyNamed (some ⟨200, some twoKeys.toJson⟩) := by
    intro r hr doc hdoc
    cases hr
    exact twoKeys_plain.of_toJson (Option.some.inj hdoc)
  refine (orderly_iff.1 hplain).mpr ?_
  intro r hr body hbody _
  cases hr
  cases hbody
  exact ⟨rfl, twoKeys, rfl⟩

/-- An answer of a proxy that cannot reach Keycloak. -/
def badGateway : Option Response := some ⟨502, some (.obj [("error", .str "Bad Gateway")])⟩

/-- **An error response erases the keys**, and counts as a fetch that has succeeded. -/
theorem badGateway_erases :
    (refresh (fun _ _ => some ()) 20 ⟨fun _ => some (), 0⟩ badGateway).1 = .ok () ∧
      (refresh (fun _ _ => some ()) 20 ⟨fun _ => some (), 0⟩ badGateway).2.keys "current" = none ∧
      ¬ Orderly (fun _ _ => some ()) 20 ⟨fun _ => some (), 0⟩ badGateway := by
  have hdecode : decodeSet (.obj [("error", .str "Bad Gateway")]) = some [] := by
    have hstep : Slice.storeMember ⟨[], 0⟩ ("error", .str "Bad Gateway") = some ⟨[], 0⟩ :=
      if_neg (by decide +kernel)
    simp only [decodeSet, List.foldlM_cons, hstep]
    rfl
  have hrefresh : refresh (fun _ _ => some ()) 20 ⟨fun _ => some (), 0⟩ badGateway =
      (.ok (), ⟨fun _ => none, 20⟩) := by
    simp only [refresh, badGateway, Option.bind_some, hdecode]
    rfl
  refine ⟨by rw [hrefresh], by rw [hrefresh], ?_⟩
  rintro (⟨status, doc, hresp, hsuccess, -⟩ | ⟨error, herror⟩)
  · rw [badGateway, Option.some.injEq, Response.mk.injEq] at hresp
    rw [← hresp.1] at hsuccess
    cases hsuccess
  · rw [hrefresh] at herror
    cases herror

end Gekko.Inventory.Jwks
