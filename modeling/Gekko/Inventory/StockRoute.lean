import Gekko.Inventory.Route


/-! # `Gekko.Inventory.StockRoute` — where the URL of `getWarehouseStock` leads

`getWarehouseStock` pastes the product id into `"%s/warehouse/stock/%s"` as it is. What follows a `#` in
it is no part of the request, what follows a `?` is its query, and an escape stands for what it decodes
to. `stockRoute` goes from the product id that was pasted to the one that the handler of Warehouse
Service gets.

`stockRoute_eq_some_iff` says which ids lead to the handler at all, and `stockRoute_eq_self_iff` which
of those lead there as themselves: the ones without `?`, `#` and `%`. Whether the server takes the
request line is up to its HTTP parser, which is the parameter `parses`.
-/

namespace Gekko.Inventory

open Percent (percent)

/-- The request line that is sent for a URL whose part after the host is `raw`: the path, and the query
    with its `?`, which goes as it is. -/
def sentTarget (raw : List UInt8) : Option (List UInt8 × List UInt8) :=
  (sentPath raw).map fun path => (path, (raw.takeWhile (· ≠ byte '#')).dropWhile (· ≠ byte '?'))

/-- The part after the host of the URL of `getWarehouseStock`, up to the product id. -/
def stockPrefix : List UInt8 := Utf8.encode "/warehouse/stock/"

/-- `/warehouse/stock/:product_id`, matched on the path as sent. -/
def matchStock (path : List UInt8) : Option String :=
  match path.splitOn (byte '/') with
  | [root, warehouse, stock, productId] =>
      if root = [] ∧ warehouse = Utf8.encode "warehouse" ∧
        stock = Utf8.encode "stock" then pathParam productId
      else none
  | _ => none

/-- The product id that `get_stock_by_branches` gets for the one that `getWarehouseStock` was given;
    `none` when the request cannot be built or reaches no handler. -/
def stockRoute (parses : List UInt8 → Bool) (productId : String) : Option String :=
  (sentTarget (stockPrefix ++ Utf8.encode productId)).bind fun target =>
    if parses (target.1 ++ target.2) then matchStock target.1 else none

/-! ## The parts of a product id -/

/-- What comes before the first `#`. -/
def beforeFragment (productId : String) : List UInt8 := (Utf8.encode productId).takeWhile (· ≠ byte '#')

/-- What comes after it. -/
def fragment (productId : String) : List UInt8 :=
  (Utf8.encode productId).drop ((beforeFragment productId).length + 1)

/-- What is left for the path. -/
def segment (productId : String) : List UInt8 := (beforeFragment productId).takeWhile (· ≠ byte '?')

/-- What goes into the query. -/
def query (productId : String) : List UInt8 := (beforeFragment productId).dropWhile (· ≠ byte '?')

/-- No character that ends a path or starts an escape. -/
structure Verbatim (productId : String) : Prop where
  question : '?' ∉ productId.toList
  hash : '#' ∉ productId.toList
  percent : '%' ∉ productId.toList

/-- The URL with this product id can be parsed, its request line is taken, and its path is one segment below
    `/warehouse/stock`. -/
structure Leads (parses : List UInt8 → Bool) (productId : String) : Prop where
  control : (beforeFragment productId).any isControl = false
  fragment : (Percent.decode (fragment productId)).isSome = true
  segment : ∃ sent, escapedPath (segment productId) = some sent ∧ byte '/' ∉ sent ∧
    (pathParam sent).isSome = true ∧ parses (stockPrefix ++ sent ++ query productId) = true

/-! ## From the URL to the parts -/

variable {parses : List UInt8 → Bool} {productId id : String}

/-- What `net/url` leaves alone in front of a path it leaves alone. -/
theorem escapedPath_append {as : List UInt8} (hkeep : ∀ b ∈ as, goPathKeep b = true) (bs : List UInt8) :
    escapedPath (as ++ bs) = (escapedPath bs).map (as ++ ·) := by
  have hpercent : percent ∉ as := fun hmem => Percent.ne_percent_of_keep (by decide) (hkeep _ hmem) rfl
  have hvalid : as.all goValidEncoded = true := by
    rw [List.all_eq_true]
    intro b hb
    unfold goValidEncoded
    rw [hkeep b hb, Bool.true_or]
  unfold escapedPath
  rw [Percent.decode_append_of_not_mem hpercent]
  cases Percent.decode bs with
  | none => rfl
  | some decoded =>
      rw [List.all_append, hvalid, Bool.true_and]
      simp only [Option.map_some]
      split
      · rfl
      · rw [Percent.encode_append, Percent.encode_of_all hkeep]

theorem sentTarget_eq :
    sentTarget (stockPrefix ++ Utf8.encode productId) =
      if (beforeFragment productId).any isControl then none
      else if (Percent.decode (fragment productId)).isNone then none
      else (escapedPath (segment productId)).map fun sent => (stockPrefix ++ sent, query productId) := by
  have hbefore : (stockPrefix ++ Utf8.encode productId).takeWhile (· ≠ byte '#')
      = stockPrefix ++ beforeFragment productId := Search.takeWhile_ne_append (by decide) _
  have hdrop : (stockPrefix ++ Utf8.encode productId).drop
      ((stockPrefix ++ beforeFragment productId).length + 1) = fragment productId := by
    rw [List.length_append, Nat.add_assoc, List.drop_length_add_append]
    rfl
  have hsegment : (stockPrefix ++ beforeFragment productId).takeWhile (· ≠ byte '?')
      = stockPrefix ++ segment productId := Search.takeWhile_ne_append (by decide) _
  have hquery : (stockPrefix ++ beforeFragment productId).dropWhile (· ≠ byte '?') = query productId :=
    Search.dropWhile_ne_append (by decide) _
  have hcontrol : stockPrefix.any isControl = false := by decide
  unfold sentTarget sentPath
  simp only [hbefore, hdrop, hsegment, hquery, List.any_append, hcontrol, Bool.false_or]
  rw [escapedPath_append (List.all_iff_forall_prop.mp (by decide))]
  split
  · rfl
  · split
    · rfl
    · rw [Option.map_map]
      rfl

/-- The router takes one segment after the prefix, and no more. -/
theorem matchStock_prefix (sent : List UInt8) :
    matchStock (stockPrefix ++ sent) = if byte '/' ∈ sent then none else pathParam sent := by
  have happend : stockPrefix ++ sent = [] ++ byte '/' :: (Utf8.encode "warehouse" ++ byte '/' ::
      (Utf8.encode "stock" ++ byte '/' :: sent)) := by
    rw [show stockPrefix = byte '/' :: (Utf8.encode "warehouse" ++ byte '/' ::
      (Utf8.encode "stock" ++ [byte '/'])) by decide]
    simp
  have hsplit : (stockPrefix ++ sent).splitOn (byte '/')
      = [] :: Utf8.encode "warehouse" :: Utf8.encode "stock" :: sent.splitOn (byte '/') := by
    rw [happend, List.splitOn_append_cons_self_of_not_mem List.not_mem_nil,
      List.splitOn_append_cons_self_of_not_mem (by decide),
      List.splitOn_append_cons_self_of_not_mem (by decide)]
  unfold matchStock
  rw [hsplit]
  by_cases hslash : byte '/' ∈ sent
  · -- A slash makes two segments of it at least.
    rw [if_pos hslash]
    obtain ⟨before, after, rfl⟩ := List.append_of_mem hslash
    rw [List.splitOn_append_cons_self]
    obtain ⟨b, bs, hb⟩ := List.exists_cons_of_ne_nil (List.splitOn_ne_nil (byte '/') before)
    obtain ⟨c, cs, hc⟩ := List.exists_cons_of_ne_nil (List.splitOn_ne_nil (byte '/') after)
    rw [hb, hc]
    cases bs with
    | nil => rfl
    | cons d ds => rfl
  · rw [if_neg hslash, List.splitOn_eq_singleton hslash]
    simp only [and_self, if_true]

/-! ## Which ids lead to the handler -/

theorem stockRoute_eq_some_iff :
    stockRoute parses productId = some id ↔
      (beforeFragment productId).any isControl = false ∧ (Percent.decode (fragment productId)).isSome = true ∧
      ∃ sent, escapedPath (segment productId) = some sent ∧ byte '/' ∉ sent ∧ pathParam sent = some id ∧
        parses (stockPrefix ++ sent ++ query productId) = true := by
  unfold stockRoute
  rw [sentTarget_eq]
  by_cases hcontrol : (beforeFragment productId).any isControl = true
  · simp [hcontrol]
  · rw [if_neg hcontrol]
    rw [Bool.not_eq_true] at hcontrol
    cases hfragment : Percent.decode (fragment productId) with
    | none => simp
    | some decoded =>
        cases hsent : escapedPath (segment productId) with
        | none => simp
        | some sent =>
            simp only [hcontrol, Option.isNone_some, Bool.false_eq_true, if_false, Option.map_some,
              Option.bind_some, matchStock_prefix, Option.isSome_some, Option.some.injEq,
              exists_eq_left', true_and]
            by_cases hslash : byte '/' ∈ sent
            · simp [hslash]
            · simp [hslash, and_comm]

theorem leads_iff : Leads parses productId ↔ ∃ id, stockRoute parses productId = some id := by
  constructor
  · rintro ⟨hcontrol, hfragment, sent, hsent, hslash, hparam, hparses⟩
    obtain ⟨id, hid⟩ := Option.isSome_iff_exists.mp hparam
    exact ⟨id, stockRoute_eq_some_iff.mpr ⟨hcontrol, hfragment, sent, hsent, hslash, hid, hparses⟩⟩
  · rintro ⟨id, hroute⟩
    obtain ⟨hcontrol, hfragment, sent, hsent, hslash, hid, hparses⟩ := stockRoute_eq_some_iff.mp hroute
    exact ⟨hcontrol, hfragment, sent, hsent, hslash, Option.isSome_iff_exists.mpr ⟨id, hid⟩, hparses⟩

/-! ## Which ids arrive as themselves -/

theorem decode_of_pathParam {sent : List UInt8} (h : pathParam sent = some id) :
    Utf8.decode (Percent.decodeLenient sent) = some id := by
  unfold pathParam at h
  split at h
  · cases h
  · exact h

/-- The handler gets what the segment decodes to, in whichever form it was sent. -/
theorem decode_segment (h : stockRoute parses productId = some id) :
    Percent.decode (segment productId) = some (Utf8.encode id) := by
  obtain ⟨-, -, sent, hsent, -, hid, -⟩ := stockRoute_eq_some_iff.mp h
  obtain ⟨decoded, hdecoded, rfl⟩ := Option.map_eq_some_iff.mp hsent
  have hlenient : Percent.decodeLenient
      (if (segment productId).all goValidEncoded then segment productId
        else Percent.encode goPathKeep decoded) = decoded := by
    split
    · exact Percent.decodeLenient_of_decode hdecoded
    · exact Percent.decodeLenient_of_decode
        (Percent.decode_encode fun b _ => Percent.ne_percent_of_keep (by decide))
  have hutf8 := decode_of_pathParam hid
  rw [hlenient] at hutf8
  rw [hdecoded, Utf8.encode_of_decode hutf8]

theorem byte_mem_encode {c : Char} {s : String} (hc : c.toNat < 128) (h : c ∈ s.toList) :
    byte c ∈ Utf8.encode s := by
  refine List.mem_flatMap.mpr ⟨c, h, ?_⟩
  rw [Utf8.encodeChar_of_ascii hc]
  exact List.mem_singleton_self _

/-- An id without the three characters is a segment as a whole. -/
theorem segment_of_verbatim (h : Verbatim productId) :
    segment productId = Utf8.encode productId ∧ percent ∉ Utf8.encode productId := by
  have hhash := Search.takeWhile_ne_eq_self_iff.mpr (byte_not_mem_encode (c := '#') (by decide) h.hash)
  have hquestion := Search.takeWhile_ne_eq_self_iff.mpr
    (byte_not_mem_encode (c := '?') (by decide) h.question)
  refine ⟨?_, byte_not_mem_encode (c := '%') (by decide) h.percent⟩
  unfold segment beforeFragment
  rw [hhash, hquestion]

/-- **An id arrives as itself exactly when it has none of the three characters.** An escape makes the id
    shorter, and so does what is cut off. -/
theorem stockRoute_eq_self_iff (h : stockRoute parses productId = some id) :
    id = productId ↔ Verbatim productId := by
  have hdecode := decode_segment h
  constructor
  · rintro rfl
    obtain ⟨hle, hlt⟩ := Percent.length_decode hdecode
    have hbefore : beforeFragment id <+: Utf8.encode id := List.takeWhile_prefix _
    have hsegment : segment id <+: beforeFragment id := List.takeWhile_prefix _
    -- Nothing was cut off, because nothing can have been added.
    have hseg : segment id = beforeFragment id :=
      hsegment.eq_of_length (Nat.le_antisymm hsegment.length_le (hbefore.length_le.trans hle))
    have hall : beforeFragment id = Utf8.encode id :=
      hbefore.eq_of_length (Nat.le_antisymm hbefore.length_le (hle.trans hsegment.length_le))
    have hquestion : byte '?' ∉ Utf8.encode id := by
      rw [← hall]
      exact Search.takeWhile_ne_eq_self_iff.mp hseg
    have hpercent : percent ∉ Utf8.encode id := by
      rw [← hall, ← hseg]
      intro hmem
      have hshort := hlt hmem
      rw [hseg, hall] at hshort
      exact absurd hshort (Nat.lt_irrefl _)
    constructor
    · exact fun hmem => hquestion (byte_mem_encode (by decide) hmem)
    · exact fun hmem => Search.takeWhile_ne_eq_self_iff.mp hall (byte_mem_encode (by decide) hmem)
    · exact fun hmem => hpercent (byte_mem_encode (c := '%') (by decide) hmem)
  · intro hverbatim
    obtain ⟨hsegment, hpercent⟩ := segment_of_verbatim hverbatim
    rw [hsegment, Percent.decode_of_not_mem hpercent] at hdecode
    exact (Utf8.encode_injective (Option.some.inj hdecode)).symm

end Gekko.Inventory
