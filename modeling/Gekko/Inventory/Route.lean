import Gekko.Lib.Utf8
import Gekko.Lib.Percent
import Gekko.Lib.Search
import Gekko.Lib.Whatwg

/-!
# `Gekko.Inventory.Route` — the URL that `reserveAtWarehouse` builds, and where it leads

`reserveAtWarehouse` pastes the branch and the product id into
`"%s/warehouse/%s/stock/%s/reserve"` as they are. What the warehouse handler then gets as its two path
parameters is decided by three parties: `net/url` parses the string, `net/http` sends the path in the form
of `URL.EscapedPath`, and the axum router splits that at the slashes and percent-decodes the parameters.
`warehouseRoute` is their composition, from the two strings that the service put in to the two strings that
the handler gets out.

The order service, on the other hand, expands `/inventory/{productId}/reserve` with strict encoding, so the
Go router gives back what was put in: `inventoryRoute`.
-/

namespace Gekko.Inventory

open Percent (percent)

/-- The byte of an ASCII character. -/
def byte (c : Char) : UInt8 := UInt8.ofNat c.toNat

def isAlphaNum (b : UInt8) : Bool :=
  (byte '0' ≤ b && b ≤ byte '9') || (byte 'A' ≤ b && b ≤ byte 'Z') || (byte 'a' ≤ b && b ≤ byte 'z')

/-- `stringContainsCTLByte` of `net/url`, for one byte. -/
def isControl (b : UInt8) : Bool := b < 0x20 || b == 0x7F

/-! ## `net/url` -/

/-- The bytes that `net/url` does not escape in a path. -/
def goPathKeep (b : UInt8) : Bool :=
  isAlphaNum b || ("-_.~$&+,/:;=@".toList.map byte).contains b

/-- The bytes that `validEncoded` accepts in a path that is already encoded. -/
def goValidEncoded (b : UInt8) : Bool :=
  goPathKeep b || ("!'()*[]%".toList.map byte).contains b

/-- `URL.EscapedPath` of a parsed path: the path as given where it is a valid encoding, else the encoding of
    what it decodes to. `none` when a `%` in it starts no escape, where `url.Parse` fails. -/
def escapedPath (path : List UInt8) : Option (List UInt8) :=
  (Percent.decode path).map fun decoded =>
    if path.all goValidEncoded then path else Percent.encode goPathKeep decoded

/-- The path that is sent for a URL whose part after the host is `raw`. `url.Parse` cuts the fragment off and
    refuses control bytes in what is left, then cuts the query off. -/
def sentPath (raw : List UInt8) : Option (List UInt8) :=
  let beforeFragment := raw.takeWhile (· ≠ byte '#')
  let fragment := raw.drop (beforeFragment.length + 1)
  if beforeFragment.any isControl then none
  else if (Percent.decode fragment).isNone then none
  else escapedPath (beforeFragment.takeWhile (· ≠ byte '?'))

/-- The part after the host of the URL of `reserveAtWarehouse`. -/
def reservePath (branch productId : String) : String :=
  "/warehouse/" ++ branch ++ "/stock/" ++ productId ++ "/reserve"

/-! ## The axum router -/

/-- A path parameter: a non-empty segment, percent-decoded, which must be UTF-8. -/
def pathParam (segment : List UInt8) : Option String :=
  if segment = [] then none else Utf8.decode (Percent.decodeLenient segment)

/-- `/warehouse/:branch/stock/:product_id/reserve`, matched on the path as sent. -/
def matchReserve (path : List UInt8) : Option (String × String) :=
  match path.splitOn (byte '/') with
  | [root, warehouse, branch, stock, productId, reserve] =>
      if root = [] ∧ warehouse = Utf8.encode "warehouse" ∧ stock = Utf8.encode "stock"
          ∧ reserve = Utf8.encode "reserve" then
        match pathParam branch, pathParam productId with
        | some b, some p => some (b, p)
        | _, _ => none
      else none
  | _ => none

/-- The branch and product id that `reserve_stock` gets for the ones that `reserveAtWarehouse` was given;
    `none` when the request cannot be built or reaches no handler. -/
def warehouseRoute (branch productId : String) : Option (String × String) :=
  (sentPath (Utf8.encode (reservePath branch productId))).bind matchReserve

/-- The request reaches no stock but the one it is meant for. -/
def RouteFaithful (branch productId : String) : Prop :=
  ∀ target, warehouseRoute branch productId = some target → target = (branch, productId)

/-! ## The order service's URL -/

/-- The bytes that strict encoding of a URI variable leaves alone. -/
def uriUnreserved (b : UInt8) : Bool := isAlphaNum b || ("-._~".toList.map byte).contains b

/-- The `{id}` that the Go router of `POST /inventory/{id}/reserve` hands to `reserve` for the product id
    that `InventoryClient.reserve` expanded. An empty segment or a dot segment is cleaned away by the router,
    which then answers with a redirect: no handler is reached. -/
def inventoryRoute (productId : String) : Option String :=
  let segment := Percent.encode uriUnreserved (Utf8.encode productId)
  if segment = [] ∨ segment = [byte '.'] ∨ segment = [byte '.', byte '.'] then none
  else (Percent.decode segment).bind Utf8.decode

/-! ## Where plain names lead -/

/-- A name that a path segment can hold as it is: not empty, and without control characters and the
    characters that end a segment, a path or an escape. -/
def PlainSegment (s : String) : Prop :=
  s ≠ "" ∧ ∀ c ∈ s.toList, 32 ≤ c.toNat ∧ c.toNat ≠ 127 ∧ c ≠ '/' ∧ c ≠ '?' ∧ c ≠ '#' ∧ c ≠ '%'

theorem byte_toNat {c : Char} (hc : c.toNat < 128) : (byte c).toNat = c.toNat := by
  unfold byte
  rw [UInt8.toNat_ofNat', Nat.mod_eq_of_lt (by omega)]

theorem byte_not_mem_encode {c : Char} {s : String} (hc : c.toNat < 128) (h : c ∉ s.toList) :
    byte c ∉ Utf8.encode s := by
  intro hmem
  have hlt : byte c < 0x80 := by
    show (byte c).toNat < 128
    rw [byte_toNat hc]
    exact hc
  obtain ⟨d, hd, hdc⟩ := Utf8.exists_mem_of_mem_encode hmem hlt
  rw [byte_toNat hc] at hdc
  exact h (Char.toNat_inj.mp hdc ▸ hd)

namespace PlainSegment

variable {s : String}

theorem slash (h : PlainSegment s) : byte '/' ∉ Utf8.encode s :=
  byte_not_mem_encode (by decide) fun hmem => (h.2 _ hmem).2.2.1 rfl

theorem question (h : PlainSegment s) : byte '?' ∉ Utf8.encode s :=
  byte_not_mem_encode (by decide) fun hmem => (h.2 _ hmem).2.2.2.1 rfl

theorem hash (h : PlainSegment s) : byte '#' ∉ Utf8.encode s :=
  byte_not_mem_encode (by decide) fun hmem => (h.2 _ hmem).2.2.2.2.1 rfl

theorem percent (h : PlainSegment s) : percent ∉ Utf8.encode s :=
  byte_not_mem_encode (by decide) fun hmem => (h.2 _ hmem).2.2.2.2.2 rfl

theorem control (h : PlainSegment s) {b : UInt8} (hb : b ∈ Utf8.encode s) : isControl b = false := by
  by_contra hctl
  rw [Bool.not_eq_false] at hctl
  unfold isControl at hctl
  rw [Bool.or_eq_true, decide_eq_true_eq, beq_iff_eq] at hctl
  have hlt : b.toNat < 32 ∨ b.toNat = 127 := hctl.imp id (fun he => by rw [he]; rfl)
  have hascii : b < 0x80 := by
    show b.toNat < 128
    omega
  obtain ⟨c, hc, hcb⟩ := Utf8.exists_mem_of_mem_encode hb hascii
  have hge := (h.2 c hc).1
  have hne := (h.2 c hc).2.1
  omega

end PlainSegment

/-- What the router reads in a segment that was sent for a plain name, encoded or not. -/
theorem pathParam_sent {s : String} (h : PlainSegment s) {sent : List UInt8}
    (hsent : sent = Utf8.encode s ∨ sent = Percent.encode goPathKeep (Utf8.encode s)) :
    byte '/' ∉ sent ∧ pathParam sent = some s := by
  have hne : Utf8.encode s ≠ [] := Utf8.encode_ne_nil h.1
  rcases hsent with rfl | rfl
  · refine ⟨h.slash, ?_⟩
    rw [pathParam, if_neg hne, Percent.decodeLenient_of_decode (Percent.decode_of_not_mem h.percent),
      Utf8.decode_encode]
  · refine ⟨fun hmem => ?_, ?_⟩
    · rcases Percent.mem_encode hmem with ⟨hs, _⟩ | hs | hs
      · exact h.slash hs
      · exact absurd hs (by decide)
      · exact absurd hs (by decide)
    · rw [pathParam, if_neg (Percent.encode_ne_nil hne),
        Percent.decodeLenient_of_decode
          (Percent.decode_encode fun b _ => Percent.ne_percent_of_keep (by decide)), Utf8.decode_encode]

/-- The router on a path with the two parameters in place. -/
theorem matchReserve_of_segments {x y : List UInt8} {b p : String}
    (hx : byte '/' ∉ x ∧ pathParam x = some b) (hy : byte '/' ∉ y ∧ pathParam y = some p) :
    matchReserve (Utf8.encode "/warehouse/" ++ x ++ Utf8.encode "/stock/" ++ y ++ Utf8.encode "/reserve")
      = some (b, p) := by
  have hjoin : Utf8.encode "/warehouse/" ++ x ++ Utf8.encode "/stock/" ++ y ++ Utf8.encode "/reserve"
      = [byte '/'].intercalate
          [[], Utf8.encode "warehouse", x, Utf8.encode "stock", y, Utf8.encode "reserve"] := by
    rw [show Utf8.encode "/warehouse/" = byte '/' :: Utf8.encode "warehouse" ++ [byte '/'] by decide,
      show Utf8.encode "/stock/" = byte '/' :: Utf8.encode "stock" ++ [byte '/'] by decide,
      show Utf8.encode "/reserve" = byte '/' :: Utf8.encode "reserve" by decide]
    simp [List.intercalate, List.intersperse]
  have hsplit : ([byte '/'].intercalate
      [[], Utf8.encode "warehouse", x, Utf8.encode "stock", y, Utf8.encode "reserve"]).splitOn (byte '/')
        = [[], Utf8.encode "warehouse", x, Utf8.encode "stock", y, Utf8.encode "reserve"] := by
    refine List.splitOn_intercalate (byte '/') ?_ (List.cons_ne_nil _ _)
    simp only [List.mem_cons, List.not_mem_nil, or_false]
    rintro l (rfl | rfl | rfl | rfl | rfl | rfl)
    · exact List.not_mem_nil
    · decide
    · exact hx.1
    · decide
    · exact hy.1
    · decide
  unfold matchReserve
  rw [hjoin, hsplit]
  simp only [hx.2, hy.2, and_self, if_true]

/-- A URL without special bytes is sent with its own path, encoded where needed. -/
theorem sentPath_of_plain {raw : List UInt8} (hhash : byte '#' ∉ raw) (hquery : byte '?' ∉ raw)
    (hpercent : percent ∉ raw) (hctl : ∀ b ∈ raw, isControl b = false) :
    sentPath raw = some (if raw.all goValidEncoded then raw else Percent.encode goPathKeep raw) := by
  have hfragment := Search.takeWhile_ne_eq_self_iff.mpr hhash
  have hpath := Search.takeWhile_ne_eq_self_iff.mpr hquery
  have hany : raw.any isControl = false := by
    rw [List.any_eq_false]
    intro b hb
    rw [hctl b hb]
    decide
  have hdrop : raw.drop (raw.length + 1) = [] := List.drop_eq_nil_of_le (by omega)
  have hnil : (Percent.decode []).isNone = false := rfl
  unfold sentPath escapedPath
  simp only [hfragment, hpath, hany, hdrop, hnil, Percent.decode_of_not_mem hpercent,
    Option.map_some, Bool.false_eq_true, if_false]

/-- **A plain branch and a plain product id reach the handler unchanged.** -/
theorem warehouseRoute_of_plain {branch productId : String} (hb : PlainSegment branch)
    (hp : PlainSegment productId) : warehouseRoute branch productId = some (branch, productId) := by
  have hraw : Utf8.encode (reservePath branch productId)
      = Utf8.encode "/warehouse/" ++ Utf8.encode branch ++ Utf8.encode "/stock/" ++ Utf8.encode productId
        ++ Utf8.encode "/reserve" := by
    unfold reservePath
    simp only [Utf8.encode_append]
  have hbytes : ∀ P : UInt8 → Prop, (∀ x ∈ Utf8.encode branch, P x) → (∀ x ∈ Utf8.encode productId, P x) →
      (∀ x ∈ Utf8.encode "/warehouse/" ++ Utf8.encode "/stock/" ++ Utf8.encode "/reserve", P x) →
      ∀ x ∈ Utf8.encode (reservePath branch productId), P x := by
    intro P h₁ h₂ h₃ x hx
    rw [hraw] at hx
    simp only [List.mem_append] at hx h₃
    rcases hx with (((hx | hx) | hx) | hx) | hx
    · exact h₃ x (Or.inl (Or.inl hx))
    · exact h₁ x hx
    · exact h₃ x (Or.inl (Or.inr hx))
    · exact h₂ x hx
    · exact h₃ x (Or.inr hx)
  have hnot : ∀ c : UInt8, c ∉ Utf8.encode branch → c ∉ Utf8.encode productId →
      c ∉ Utf8.encode "/warehouse/" ++ Utf8.encode "/stock/" ++ Utf8.encode "/reserve" →
      c ∉ Utf8.encode (reservePath branch productId) := by
    intro c h₁ h₂ h₃ hmem
    exact hbytes (· ≠ c) (fun x hx he => h₁ (he ▸ hx)) (fun x hx he => h₂ (he ▸ hx))
      (fun x hx he => h₃ (he ▸ hx)) c hmem rfl
  unfold warehouseRoute
  rw [sentPath_of_plain (hnot _ hb.hash hp.hash (by decide)) (hnot _ hb.question hp.question (by decide))
    (hnot _ hb.percent hp.percent (by decide))
    (hbytes _ (fun x => hb.control) (fun x => hp.control) (List.all_iff_forall_prop.mp (by decide))),
    Option.bind_some, hraw]
  split
  · exact matchReserve_of_segments (pathParam_sent hb (Or.inl rfl)) (pathParam_sent hp (Or.inl rfl))
  · simp only [Percent.encode_append]
    rw [show Percent.encode goPathKeep (Utf8.encode "/warehouse/") = Utf8.encode "/warehouse/" by decide,
      show Percent.encode goPathKeep (Utf8.encode "/stock/") = Utf8.encode "/stock/" by decide,
      show Percent.encode goPathKeep (Utf8.encode "/reserve") = Utf8.encode "/reserve" by decide]
    exact matchReserve_of_segments (pathParam_sent hb (Or.inr rfl)) (pathParam_sent hp (Or.inr rfl))

theorem routeFaithful_of_plain {branch productId : String} (hb : PlainSegment branch)
    (hp : PlainSegment productId) : RouteFaithful branch productId := by
  intro target htarget
  rw [warehouseRoute_of_plain hb hp] at htarget
  exact (Option.some.inj htarget).symm

/-- **What the order service encodes, the inventory service gets back**, for every product id that is sent
    as a segment of its own. -/
theorem inventoryRoute_eq {productId id : String} (h : inventoryRoute productId = some id) :
    id = productId := by
  unfold inventoryRoute at h
  simp only at h
  split at h
  · cases h
  · rw [Percent.decode_encode fun b _ => Percent.ne_percent_of_keep (by decide), Option.bind_some,
      Utf8.decode_encode] at h
    exact (Option.some.inj h).symm

theorem plainSegment_of_plainName {s : String} (h : Whatwg.PlainName s) : PlainSegment s := by
  refine ⟨h.ne_empty, fun c hc => ?_⟩
  obtain ⟨hlt, hdel, hslash, -, hquery, hhash, hpercent⟩ := h.chars c hc
  exact ⟨by omega, hdel, hslash, hquery, hhash, hpercent⟩

theorem inventoryRoute_of_ne {productId : String} (hempty : productId ≠ "") (hdot : productId ≠ ".")
    (hdots : productId ≠ "..") : inventoryRoute productId = some productId := by
  have hdecode : Percent.decode (Percent.encode uriUnreserved (Utf8.encode productId))
      = some (Utf8.encode productId) :=
    Percent.decode_encode fun b _ => Percent.ne_percent_of_keep (by decide)
  -- A segment of dots would decode to itself, and the product id would be dots.
  have hne : ∀ dots : String, Percent.decode (Utf8.encode dots) = some (Utf8.encode dots) →
      productId ≠ dots → Percent.encode uriUnreserved (Utf8.encode productId) ≠ Utf8.encode dots := by
    intro dots hself hid heq
    rw [heq, hself] at hdecode
    exact hid (Utf8.encode_injective (Option.some.inj hdecode)).symm
  unfold inventoryRoute
  simp only
  rw [if_neg, hdecode, Option.bind_some, Utf8.decode_encode]
  rintro (hnil | hone | htwo)
  · exact Percent.encode_ne_nil (Utf8.encode_ne_nil hempty) hnil
  · exact hne "." (by decide) hdot hone
  · exact hne ".." (by decide) hdots htwo

theorem inventoryRoute_of_plain {productId : String} (h : Whatwg.PlainName productId) :
    inventoryRoute productId = some productId := inventoryRoute_of_ne h.ne_empty h.ne_dot h.ne_dots

end Gekko.Inventory
