import Gekko.Lib.Percent
import Gekko.Lib.Utf8


/-! # `Gekko.Lib.Form` — `application/x-www-form-urlencoded`

A form is a list of names with values. Writers agree on how it is put together and on `+` for a blank,
and differ in which other bytes they leave as they are. `parse_serialize` is the round trip: names and
values may be any texts at all, and for any choice of bytes that leaves out the four with a meaning, the
form is read as it was written.
-/

namespace Form

def space : UInt8 := 0x20

def plus : UInt8 := 0x2B

def ampersand : UInt8 := 0x26

def equals : UInt8 := 0x3D

/-! ## Writing -/

/-- Blanks become `+`; `keep` says which other bytes are not escaped. -/
def encodeText (keep : UInt8 → Bool) (s : String) : List UInt8 :=
  (Percent.encode (fun b => keep b || b == space) (Utf8.encode s)).map fun b => if b = space then plus else b

def encodePair (keep : UInt8 → Bool) (p : String × String) : List UInt8 :=
  encodeText keep p.1 ++ equals :: encodeText keep p.2

def serialize (keep : UInt8 → Bool) (form : List (String × String)) : List UInt8 :=
  [ampersand].intercalate (form.map (encodePair keep))

/-! ## Reading -/

def decodeText (bs : List UInt8) : String :=
  Utf8.decodeLossy (Percent.decodeLenient (bs.map fun b => if b = plus then space else b))

/-- A name ends at the first `=`. -/
def parsePair (bs : List UInt8) : String × String :=
  (decodeText (bs.takeWhile (· ≠ equals)), decodeText ((bs.dropWhile (· ≠ equals)).tail))

def parse (bs : List UInt8) : List (String × String) :=
  ((bs.splitOn ampersand).filter (· ≠ [])).map parsePair

/-- The first value of a name. -/
def value? (name : String) (form : List (String × String)) : Option String :=
  (form.find? fun p => p.1 = name).map (·.2)

/-! ## The round trip -/

/-- The bytes with a meaning are escaped. -/
structure Clean (keep : UInt8 → Bool) : Prop where
  percent : keep Percent.percent = false
  plus : keep plus = false
  ampersand : keep ampersand = false
  equals : keep equals = false

def isAlphanumeric (b : UInt8) : Bool :=
  (0x30 ≤ b && b ≤ 0x39) || (0x41 ≤ b && b ≤ 0x5A) || (0x61 ≤ b && b ≤ 0x7A)

/-- What `URLSearchParams`, Java's `URLEncoder` and Rust's `form_urlencoded` leave as it is: letters,
digits and `*-._`. -/
def urlencoded (b : UInt8) : Bool := isAlphanumeric b || [0x2A, 0x2D, 0x2E, 0x5F].contains b

/-- What Go's `QueryEscape` leaves as it is: letters, digits and `-_.~`. -/
def queryEscaped (b : UInt8) : Bool := isAlphanumeric b || [0x2D, 0x5F, 0x2E, 0x7E].contains b

theorem urlencoded_clean : Clean urlencoded := ⟨by decide, by decide, by decide, by decide⟩

theorem queryEscaped_clean : Clean queryEscaped := ⟨by decide, by decide, by decide, by decide⟩

variable {keep : UInt8 → Bool}

/-- The bytes of a text that was written. -/
theorem mem_encodeText {s : String} {b : UInt8} (h : b ∈ encodeText keep s) :
    b = plus ∨ (b ≠ space ∧ (keep b = true ∨ b = Percent.percent ∨ (Percent.hexValue? b).isSome)) := by
  unfold encodeText at h
  obtain ⟨c, hc, rfl⟩ := List.mem_map.mp h
  by_cases hspace : c = space
  · rw [if_pos hspace]
    exact .inl rfl
  · rw [if_neg hspace]
    refine .inr ⟨hspace, ?_⟩
    rcases Percent.mem_encode hc with ⟨-, hkeep⟩ | h | h
    · rcases (Bool.or_eq_true _ _ ▸ hkeep : _ ∨ _) with hkeep | hkeep
      · exact .inl hkeep
      · exact absurd (eq_of_beq hkeep) hspace
    · exact .inr (.inl h)
    · exact .inr (.inr h)

theorem not_mem_encodeText {s : String} {b : UInt8} (hkeep : keep b = false) (hplus : b ≠ plus)
    (hpercent : b ≠ Percent.percent) (hhex : Percent.hexValue? b = none) : b ∉ encodeText keep s := by
  intro hmem
  rcases mem_encodeText hmem with h | ⟨-, h | h | h⟩
  · exact hplus h
  · rw [hkeep] at h
    cases h
  · exact hpercent h
  · rw [hhex] at h
    cases h

theorem equals_not_mem (hkeep : Clean keep) (s : String) : equals ∉ encodeText keep s :=
  not_mem_encodeText hkeep.equals (by decide) (by decide) (by decide)

theorem ampersand_not_mem (hkeep : Clean keep) (s : String) : ampersand ∉ encodeText keep s :=
  not_mem_encodeText hkeep.ampersand (by decide) (by decide) (by decide)

/-- A text is read as itself. -/
theorem decodeText_encodeText (hkeep : Clean keep) (s : String) : decodeText (encodeText keep s) = s := by
  have hplain : ∀ b ∈ Percent.encode (fun b => keep b || b == space) (Utf8.encode s), b ≠ plus := by
    rintro b hb rfl
    rcases Percent.mem_encode hb with ⟨-, h⟩ | h | h
    · rcases (Bool.or_eq_true _ _ ▸ h : _ ∨ _) with h | h
      · rw [hkeep.plus] at h
        cases h
      · exact absurd h (by decide)
    · exact absurd h (by decide)
    · exact absurd h (by decide)
  have hback : (encodeText keep s).map (fun b => if b = plus then space else b) =
      Percent.encode (fun b => keep b || b == space) (Utf8.encode s) := by
    unfold encodeText
    rw [List.map_map]
    conv_rhs => rw [← List.map_id (Percent.encode _ _)]
    apply List.map_congr_left
    intro b hb
    have hne := hplain b hb
    by_cases hspace : b = space
    · rw [Function.comp_apply, if_pos hspace, if_pos rfl, hspace]
      rfl
    · rw [Function.comp_apply, if_neg hspace, if_neg hne]
      rfl
  have hpercent : (keep Percent.percent || Percent.percent == space) = false := by
    rw [hkeep.percent]
    decide
  have hdecode : Percent.decode (Percent.encode (fun b => keep b || b == space) (Utf8.encode s)) =
      some (Utf8.encode s) := by
    apply Percent.decode_encode
    intro b _ hb
    exact @Percent.ne_percent_of_keep (fun b => keep b || b == space) hpercent b hb
  unfold decodeText
  rw [hback, Percent.decodeLenient_of_decode hdecode, Utf8.decodeLossy_encode]

theorem parsePair_encodePair (hkeep : Clean keep) (p : String × String) :
    parsePair (encodePair keep p) = p := by
  have hname : ∀ b ∈ encodeText keep p.1, decide (b ≠ equals) = true := by
    rintro b hb
    refine decide_eq_true ?_
    rintro rfl
    exact equals_not_mem hkeep p.1 hb
  unfold parsePair encodePair
  rw [List.takeWhile_append_of_pos hname, List.dropWhile_append_of_pos hname,
    List.takeWhile_cons_of_neg (by decide), List.dropWhile_cons_of_neg (by decide), List.append_nil,
    List.tail_cons, decodeText_encodeText hkeep, decodeText_encodeText hkeep]

/-- **A form is read as it was written.** -/
theorem parse_serialize (hkeep : Clean keep) (form : List (String × String)) :
    parse (serialize keep form) = form := by
  cases form with
  | nil => rfl
  | cons p ps =>
      have hsplit : (serialize keep (p :: ps)).splitOn ampersand = (p :: ps).map (encodePair keep) := by
        apply List.splitOn_intercalate
        · intro bs hbs hmem
          obtain ⟨q, -, rfl⟩ := List.mem_map.mp hbs
          rcases List.mem_append.mp hmem with h | h
          · exact ampersand_not_mem hkeep q.1 h
          · rcases List.mem_cons.mp h with h | h
            · exact absurd h (by decide)
            · exact ampersand_not_mem hkeep q.2 h
        · exact List.cons_ne_nil _ _
      have hfilter : ((p :: ps).map (encodePair keep)).filter (· ≠ []) = (p :: ps).map (encodePair keep) := by
        rw [List.filter_eq_self]
        intro bs hbs
        obtain ⟨q, -, rfl⟩ := List.mem_map.mp hbs
        refine decide_eq_true fun h => ?_
        exact List.cons_ne_nil _ _ (List.append_eq_nil_iff.mp h).2
      unfold parse
      rw [hsplit, hfilter, List.map_map]
      conv_rhs => rw [← List.map_id (p :: ps)]
      apply List.map_congr_left
      intro q _
      exact parsePair_encodePair hkeep q

/-! ## Forms whose names are not repeated -/

theorem value?_eq_some_iff {form : List (String × String)} (hnodup : (form.map (·.1)).Nodup)
    {name v : String} :
    value? name form = some v ↔ (name, v) ∈ form := by
  induction form with
  | nil => exact ⟨nofun, nofun⟩
  | cons p form ih =>
      rw [List.map_cons, List.nodup_cons] at hnodup
      have hrest := ih hnodup.2
      unfold value? at hrest ⊢
      by_cases hname : p.1 = name
      · subst hname
        rw [List.find?_cons_of_pos (by exact decide_eq_true rfl), Option.map_some, List.mem_cons]
        constructor
        · intro h
          exact .inl (by rw [← Option.some.inj h])
        · rintro (h | h)
          · rw [← h]
          · exact absurd (List.mem_map.mpr ⟨_, h, rfl⟩) hnodup.1
      · rw [List.find?_cons_of_neg (by simpa using hname), hrest, List.mem_cons]
        constructor
        · exact .inr
        · rintro (h | h)
          · exact absurd (congrArg Prod.fst h).symm hname
          · exact h

/-- The order of such a form does not matter. -/
theorem value?_of_perm {form form' : List (String × String)} (hperm : form.Perm form')
    (hnodup : (form'.map (·.1)).Nodup) (name : String) : value? name form = value? name form' := by
  have hnodup' : (form.map (·.1)).Nodup := (hperm.map _).nodup_iff.mpr hnodup
  apply Option.ext
  intro v
  rw [value?_eq_some_iff hnodup', value?_eq_some_iff hnodup, hperm.mem_iff]

end Form
