import Gekko.Inventory.Refresh
import Gekko.Warehouse.Jwks


/-! # `Gekko.Jwks.Agreement` — one key set at two services

Inventory Service and Warehouse Service fetch the same key set. Inventory Service skips an entry that is
no RSA key and has no use for a member that is not there; Warehouse Service has no look at the key type,
but wants a `kid`, an `n` and an `e` of every entry and takes whatever makes a key.

`agree_iff_shielded` says for which key sets both end up with its RSA keys.
-/

namespace Gekko.Jwks

open KeyDocument LastWins

variable {κ : Type} {decodeKey : String → String → Option κ} {doc : Document}

/-! ## What Warehouse Service makes of a key set -/

/-- What serde makes of an entry. -/
def DecodedAs (x : Entry) (jwk : Warehouse.Jwk) : Prop :=
  text? "kid" x.members = some jwk.kid ∧ text? "n" x.members = some jwk.n ∧ text? "e" x.members = some jwk.e

theorem textField_eq_text? (x : Entry) (name : String) :
    Warehouse.textField name x.members = text? name x.members := by
  rw [Option.ext_iff]
  intro text
  rw [Warehouse.textField_eq_some_iff x.nodup, text?_eq_some_iff]

theorem decode_toJson {x : Entry} {jwk : Warehouse.Jwk} :
    Warehouse.Jwk.decode x.toJson = some jwk ↔ DecodedAs x jwk := by
  obtain ⟨kid, n, e⟩ := jwk
  unfold DecodedAs
  simp only [Entry.toJson, Warehouse.Jwk.decode, textField_eq_text?]
  cases text? "kid" x.members <;> cases text? "n" x.members <;> cases text? "e" x.members <;> simp

theorem decodeSet_toJson {set : List Warehouse.Jwk} :
    Warehouse.JwkSet.decode doc.toJson = some set ↔ List.Forall₂ DecodedAs doc.entries set := by
  have hdecode : Warehouse.JwkSet.decode doc.toJson = Warehouse.decodeAll (doc.entries.map Entry.toJson) := by
    have hfilter : (doc.members.filter fun m => m.1 = "keys") = _ := Json.filter_name doc.nodup
    rw [doc.keys] at hfilter
    simp only [Document.toJson, Warehouse.JwkSet.decode, hfilter]
  rw [hdecode, Warehouse.decodeAll_eq_some_iff, List.forall₂_map_left_iff]
  exact forall₂_congr fun x _ jwk => decode_toJson

/-- Every entry has what Warehouse Service wants. -/
def Complete (doc : Document) : Prop :=
  ∀ x ∈ doc.entries, (text? "kid" x.members).isSome = true ∧ (text? "n" x.members).isSome = true ∧
    (text? "e" x.members).isSome = true

theorem exists_forall₂ {α β : Type} {R : α → β → Prop} {l : List α} :
    (∃ l', List.Forall₂ R l l') ↔ ∀ a ∈ l, ∃ b, R a b := by
  induction l with
  | nil =>
      refine iff_of_true ⟨[], .nil⟩ ?_
      intro a ha
      exact absurd ha List.not_mem_nil
  | cons a l ih =>
      rw [List.forall_mem_cons, ← ih]
      constructor
      · rintro ⟨l', h⟩
        obtain ⟨b, l'', hab, hrest, -⟩ := List.forall₂_cons_left_iff.mp h
        exact ⟨⟨b, hab⟩, l'', hrest⟩
      · rintro ⟨⟨b, hab⟩, l', hrest⟩
        exact ⟨b :: l', .cons hab hrest⟩

theorem exists_decodedAs_iff : (∃ set, List.Forall₂ DecodedAs doc.entries set) ↔ Complete doc := by
  rw [exists_forall₂]
  refine forall_congr' fun x => forall_congr' fun _ => ?_
  simp only [Option.isSome_iff_exists]
  constructor
  · rintro ⟨jwk, hkid, hn, he⟩
    exact ⟨⟨_, hkid⟩, ⟨_, hn⟩, ⟨_, he⟩⟩
  · rintro ⟨⟨kid, hkid⟩, ⟨n, hn⟩, ⟨e, he⟩⟩
    exact ⟨⟨kid, n, e⟩, hkid, hn, he⟩

/-- The keys that Warehouse Service has, whatever the types of the entries. -/
def allKeys (decodeKey : String → String → Option κ) (doc : Document) (kid : String) : Option κ :=
  lastOf (Entry.keyFor decodeKey kid) doc.entries

theorem fetchKeys_of_decodedAs {set : List Warehouse.Jwk} (h : List.Forall₂ DecodedAs doc.entries set) :
    Warehouse.fetchKeys decodeKey (some doc.toJson) = some (allKeys decodeKey doc) := by
  have hkeys : set.foldl (Warehouse.insertKey decodeKey) (fun _ => none) = allKeys decodeKey doc := by
    funext kid
    rw [Warehouse.foldl_insertKey]
    refine (lastOf_forall₂ h ?_).symm
    rintro x jwk - ⟨hkid, hn, he⟩
    simp only [Entry.keyFor, hkid, hn, he]
  simp only [Warehouse.fetchKeys, Option.bind_some, decodeSet_toJson.mpr h, Option.map_some, hkeys]

theorem fetchKeys_eq_some_iff {keys : String → Option κ} :
    Warehouse.fetchKeys decodeKey (some doc.toJson) = some keys ↔ Complete doc ∧
    allKeys decodeKey doc = keys := by
  constructor
  · intro h
    obtain ⟨set, hset, -⟩ := Option.map_eq_some_iff.mp h
    have hdecoded := decodeSet_toJson.mp hset
    rw [fetchKeys_of_decodedAs hdecoded] at h
    exact ⟨exists_decodedAs_iff.mp ⟨set, hdecoded⟩, Option.some.inj h⟩
  · rintro ⟨hcomplete, hkeys⟩
    obtain ⟨set, hset⟩ := exists_decodedAs_iff.mpr hcomplete
    rw [fetchKeys_of_decodedAs hset, hkeys]

/-! ## What Inventory Service makes of it -/

/-- Members that Warehouse Service can read are ones that Inventory Service can. -/
theorem exists_readAs (hcomplete : Complete doc) :
    ∃ set, List.Forall₂ Inventory.Jwks.ReadAs doc.entries set := by
  rw [exists_forall₂]
  intro x hx
  obtain ⟨hkid, hn, he⟩ := hcomplete x hx
  obtain ⟨kid, hkid⟩ := Option.isSome_iff_exists.mp hkid
  obtain ⟨kty, hkty⟩ := Option.isSome_iff_exists.mp x.kty
  obtain ⟨n, hn⟩ := Option.isSome_iff_exists.mp hn
  obtain ⟨e, he⟩ := Option.isSome_iff_exists.mp he
  refine ⟨⟨kid, kty, n, e⟩, ?_, ?_⟩
  · intro f value hvalue
    -- Each of the four is a string.
    have htext : ∀ {text}, text? f.tag x.members = some text → value = .null ∨ ∃ text, value = .str text := by
      intro text htext
      rw [text?_eq_some_iff, hvalue] at htext
      exact Or.inr ⟨text, Option.some.inj htext⟩
    cases f with
    | kid => exact htext hkid
    | kty => exact htext hkty
    | n => exact htext hn
    | e => exact htext he
  · intro f
    cases f with
    | kid => exact (congrArg (Option.getD · "") hkid).symm
    | kty => exact (congrArg (Option.getD · "") hkty).symm
    | n => exact (congrArg (Option.getD · "") hn).symm
    | e => exact (congrArg (Option.getD · "") he).symm

section Agreement

variable (decodeKey) (now : Int) (c : Inventory.Jwks.Cache κ) (status : Nat)

/-- Both services succeed, and have the RSA keys of the document. -/
def Agree (doc : Document) : Prop :=
  Inventory.Jwks.refresh decodeKey now c (some ⟨status, some doc.toJson⟩) =
      (.ok (), ⟨doc.rsaKeys decodeKey, now⟩) ∧
    Warehouse.fetchKeys decodeKey (some doc.toJson) = some (doc.rsaKeys decodeKey)

/-- A key of another type makes no difference: an entry after it has a key for the `kid`, or the last
    RSA entry before it has the same key. -/
def Shielded (doc : Document) : Prop :=
  ∀ pre x post kid key, doc.entries = pre ++ x :: post → x.keyFor decodeKey kid = some key → x.isRsa = false →
    (∃ y ∈ post, (y.keyFor decodeKey kid).isSome = true) ∨
      lastOf (Entry.rsaKeyFor decodeKey kid) pre = some key

end Agreement

variable {now : Int} {c : Inventory.Jwks.Cache κ} {status : Nat}

theorem allKeys_eq_rsaKeys_iff : allKeys decodeKey doc = doc.rsaKeys decodeKey ↔ Shielded decodeKey doc := by
  have hrsa : ∀ (x : Entry) kid,
      x.rsaKeyFor decodeKey kid = if x.isRsa then x.keyFor decodeKey kid else none :=
    fun x kid => rfl
  have hcases : ∀ kid, ∀ x ∈ doc.entries, x.rsaKeyFor decodeKey kid = x.keyFor decodeKey kid ∨
      x.rsaKeyFor decodeKey kid = none := by
    intro kid x _
    rw [hrsa]
    split
    · exact Or.inl rfl
    · exact Or.inr rfl
  rw [funext_iff]
  constructor
  · intro h pre x post kid key hsplit hkey hother
    refine (lastOf_eq_iff (hcases kid)).mp (h kid) pre x post key hsplit hkey ?_
    rw [hrsa, hother]
    rfl
  · intro h kid
    refine (lastOf_eq_iff (hcases kid)).mpr ?_
    intro pre x post key hsplit hkey hnone
    refine h pre x post kid key hsplit hkey ?_
    -- An RSA entry would have its key among the RSA keys.
    by_contra hother
    rw [Bool.not_eq_false] at hother
    rw [hrsa, hother, if_pos rfl, hkey] at hnone
    cases hnone

/-- **Where both services agree**: on a plain document exactly if it is complete and shielded, and on no
    document that is not. -/
theorem agree_iff_shielded :
    (Inventory.Jwks.Plain doc → (Agree decodeKey now c status doc ↔ Complete doc ∧ Shielded decodeKey doc)) ∧
      (Agree decodeKey now c status doc → Complete doc ∧ Shielded decodeKey doc) := by
  have hneeded : Agree decodeKey now c status doc → Complete doc ∧ Shielded decodeKey doc := by
    rintro ⟨-, hwarehouse⟩
    obtain ⟨hcomplete, hkeys⟩ := fetchKeys_eq_some_iff.mp hwarehouse
    exact ⟨hcomplete, allKeys_eq_rsaKeys_iff.mp hkeys⟩
  refine ⟨fun hplain => ⟨hneeded, ?_⟩, hneeded⟩
  rintro ⟨hcomplete, hshielded⟩
  obtain ⟨set, hset⟩ := exists_readAs hcomplete
  refine ⟨?_, fetchKeys_eq_some_iff.mpr ⟨hcomplete, allKeys_eq_rsaKeys_iff.mpr hshielded⟩⟩
  have hdecode := (Inventory.Jwks.decodeSet_toJson hplain).mpr hset
  simp only [Inventory.Jwks.refresh, Option.bind_some, hdecode, Inventory.Jwks.keysOf_document hset]

open Inventory.Jwks in
theorem twoKeys_agree : Agree (fun n e => some (n, e)) 20 ⟨fun _ => none, 0⟩ 200 twoKeys := by
  have hrsa : ∀ x ∈ twoKeys.entries, x.isRsa = true ∧ (text? "kid" x.members).isSome = true ∧
      (text? "n" x.members).isSome = true ∧ (text? "e" x.members).isSome = true := by
    intro x hx
    rcases List.mem_pair.mp hx with rfl | rfl <;> decide +kernel
  refine (agree_iff_shielded.1 twoKeys_plain).mpr ⟨fun x hx => (hrsa x hx).2, ?_⟩
  intro pre x post kid key hsplit _ hother
  have hx : x ∈ twoKeys.entries := by
    rw [hsplit]
    exact List.mem_append_right _ List.mem_cons_self
  rw [(hrsa x hx).1] at hother
  cases hother

/-- A key for another algorithm, as a realm can have it beside its RSA keys. -/
def ecKey : Entry where
  members := [("kid", .str "ec"), ("kty", .str "EC"), ("crv", .str "P-256"), ("x", .str "AQAB"),
              ("y", .str "AQAC")]
  nodup := by simp
  kty := by simp [text?, Json.member?, textOf]
  kid := by simp [Json.member?]
  rsa := by simp [text?, Json.member?, textOf]

def withEcKey : Document := .ofEntries [.ofRsa "old" "AQAB" "AQAB", ecKey]

/-- **One key of another type** takes Warehouse Service all of its keys, and Inventory Service none. -/
theorem withEcKey_divides :
    (Inventory.Jwks.refresh (fun n e => some (n, e)) 20 ⟨fun _ => none, 0⟩
      (some ⟨200, some withEcKey.toJson⟩)).1 = .ok () ∧
      (Inventory.Jwks.refresh (fun n e => some (n, e)) 20 ⟨fun _ => none, 0⟩
        (some ⟨200, some withEcKey.toJson⟩)).2.keys "old" = some ("AQAB", "AQAB") ∧
      Warehouse.fetchKeys (fun n e => some (n, e)) (some withEcKey.toJson) = none ∧
      ¬ Agree (fun n e => some (n, e)) 20 ⟨fun _ => none, 0⟩ 200 withEcKey := by
  have hdecode : Inventory.Jwks.decodeSet withEcKey.toJson =
      some [⟨"old", "RSA", "AQAB", "AQAB"⟩, ⟨"ec", "EC", "", ""⟩] := by decide +kernel
  have hincomplete : ¬ Complete withEcKey := by
    intro h
    have hec := (h ecKey (List.mem_cons_of_mem _ List.mem_cons_self)).2.1
    revert hec
    decide +kernel
  have hnone : Warehouse.fetchKeys (fun n e => some (n, e)) (some withEcKey.toJson) = none := by
    rw [Option.eq_none_iff_forall_ne_some]
    intro keys hkeys
    exact hincomplete (fetchKeys_eq_some_iff.mp hkeys).1
  refine ⟨?_, ?_, hnone, ?_⟩
  · simp only [Inventory.Jwks.refresh, Option.bind_some, hdecode]
  · simp only [Inventory.Jwks.refresh, Option.bind_some, hdecode]
    decide +kernel
  · rintro ⟨-, hwarehouse⟩
    rw [hnone] at hwarehouse
    cases hwarehouse

end Gekko.Jwks
