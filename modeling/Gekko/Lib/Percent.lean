import Mathlib.Data.List.Basic

/-!
# `Gekko.Lib.Percent` — percent-encoding of byte strings

Encoding keeps a chosen set of bytes and writes every other byte as `%XX`. Of the two usual decoders,
`decode` refuses a `%` that no two hex digits follow, and `decodeLenient` leaves it as it stands.

The facts a client needs: a string without `%` decodes to itself, what an encoder wrote decodes back
whatever set it kept (as long as `%` is not in it), and a string that holds an escape comes out of the
lenient decoder strictly shorter.
-/

namespace Percent

/-- The byte `%`. -/
def percent : UInt8 := 0x25

/-- The upper-case hex digit of `n < 16`. -/
def hexDigit (n : Nat) : UInt8 := UInt8.ofNat (if n < 10 then 0x30 + n else 0x37 + n)

/-- The value of a hex digit of either case. -/
def hexValue? (b : UInt8) : Option Nat :=
  if 0x30 ≤ b ∧ b ≤ 0x39 then some (b.toNat - 0x30)
  else if 0x41 ≤ b ∧ b ≤ 0x46 then some (b.toNat - 0x37)
  else if 0x61 ≤ b ∧ b ≤ 0x66 then some (b.toNat - 0x57)
  else none

/-- `%XX` for the byte `b`. -/
def escape (b : UInt8) : List UInt8 := [percent, hexDigit (b.toNat / 16), hexDigit (b.toNat % 16)]

/-- Escape every byte outside `keep`. -/
def encode (keep : UInt8 → Bool) (bs : List UInt8) : List UInt8 :=
  bs.flatMap fun b => if keep b then [b] else escape b

/-- The byte that the two characters after a `%` stand for. -/
def unescape? (h l : UInt8) : Option UInt8 :=
  match hexValue? h, hexValue? l with
  | some x, some y => some (UInt8.ofNat (16 * x + y))
  | _, _ => none

/-- Strict decoding: `none` at a `%` that starts no escape. -/
def decode : List UInt8 → Option (List UInt8)
  | [] => some []
  | b :: rest =>
      if b = percent then
        match rest with
        | h :: l :: rest' =>
            match unescape? h l with
            | some c => (decode rest').map (c :: ·)
            | none => none
        | _ => none
      else (decode rest).map (b :: ·)

/-- Lenient decoding: a `%` that starts no escape stands for itself. -/
def decodeLenient : List UInt8 → List UInt8
  | [] => []
  | b :: rest =>
      if b = percent then
        match rest with
        | h :: l :: rest' =>
            match unescape? h l with
            | some c => c :: decodeLenient rest'
            | none => b :: decodeLenient (h :: l :: rest')
        | [h] => [b, h]
        | [] => [b]
      else b :: decodeLenient rest

/-! ## One escape -/

theorem hexValue?_hexDigit {n : Nat} (h : n < 16) : hexValue? (hexDigit n) = some n := by
  have key : ∀ m : Fin 16, hexValue? (hexDigit m.val) = some m.val := by decide
  exact key ⟨n, h⟩

theorem unescape?_hexDigit (b : UInt8) :
    unescape? (hexDigit (b.toNat / 16)) (hexDigit (b.toNat % 16)) = some b := by
  have hb : b.toNat < 256 := b.toNat_lt_size
  unfold unescape?
  rw [hexValue?_hexDigit (by omega), hexValue?_hexDigit (by omega)]
  simp only
  rw [show 16 * (b.toNat / 16) + b.toNat % 16 = b.toNat by omega, UInt8.ofNat_toNat]

theorem unescape?_of_left {h : UInt8} (hh : hexValue? h = none) (l : UInt8) : unescape? h l = none := by
  unfold unescape?
  rw [hh]

theorem unescape?_of_right {l : UInt8} (hl : hexValue? l = none) (h : UInt8) : unescape? h l = none := by
  unfold unescape?
  rw [hl]
  cases hexValue? h <;> rfl

theorem hexValue?_percent : hexValue? percent = none := by decide

theorem decode_escape_append (b : UInt8) (bs : List UInt8) :
    decode (escape b ++ bs) = (decode bs).map (b :: ·) := by
  unfold escape
  simp only [List.cons_append, List.nil_append]
  rw [decode, if_pos rfl]
  simp only [unescape?_hexDigit]

theorem decode_cons_of_ne {b : UInt8} (h : b ≠ percent) (bs : List UInt8) :
    decode (b :: bs) = (decode bs).map (b :: ·) := by
  rcases bs with _ | ⟨c, _ | ⟨d, bs⟩⟩ <;> simp only [decode, if_neg h]

/-! ## Whole strings -/

/-- A string without `%` decodes to itself. -/
theorem decode_of_not_mem {bs : List UInt8} (h : percent ∉ bs) : decode bs = some bs := by
  induction bs with
  | nil => rfl
  | cons b bs ih =>
      rw [List.mem_cons, not_or] at h
      rw [decode_cons_of_ne (Ne.symm h.1), ih h.2]
      rfl

/-- **Round trip.** What an encoder wrote decodes to its input, unless a `%` was kept as it stood. -/
theorem decode_encode {keep : UInt8 → Bool} {bs : List UInt8}
    (hkeep : ∀ b ∈ bs, keep b = true → b ≠ percent) :
    decode (encode keep bs) = some bs := by
  induction bs with
  | nil => rfl
  | cons b bs ih =>
      have hrest := ih fun c hc => hkeep c (List.mem_cons_of_mem _ hc)
      unfold encode at hrest ⊢
      rw [List.flatMap_cons]
      by_cases hb : keep b = true
      · have hne : b ≠ percent := hkeep b List.mem_cons_self hb
        rw [if_pos hb, List.singleton_append, decode_cons_of_ne hne, hrest]
        rfl
      · rw [if_neg hb, decode_escape_append, hrest]
        rfl

theorem ne_percent_of_keep {keep : UInt8 → Bool} (h : keep percent = false) {b : UInt8}
    (hb : keep b = true) : b ≠ percent := by
  intro he
  rw [he, h] at hb
  cases hb

/-- The bytes of an encoded string are `%`, hex digits, and bytes that were there and were kept. -/
theorem mem_encode {keep : UInt8 → Bool} {bs : List UInt8} {b : UInt8} (h : b ∈ encode keep bs) :
    (b ∈ bs ∧ keep b = true) ∨ b = percent ∨ (hexValue? b).isSome := by
  obtain ⟨c, hmem, hc⟩ := List.mem_flatMap.mp h
  have hbound : c.toNat < 256 := c.toNat_lt_size
  by_cases hk : keep c = true
  · rw [if_pos hk, List.mem_singleton] at hc
    exact Or.inl ⟨hc ▸ hmem, hc ▸ hk⟩
  · rw [if_neg hk] at hc
    simp only [escape, List.mem_cons, List.not_mem_nil, or_false] at hc
    refine Or.inr ?_
    rcases hc with h | h | h
    · exact Or.inl h
    · rw [h, hexValue?_hexDigit (by omega)]
      exact Or.inr rfl
    · rw [h, hexValue?_hexDigit (by omega)]
      exact Or.inr rfl

theorem encode_append (keep : UInt8 → Bool) (bs cs : List UInt8) :
    encode keep (bs ++ cs) = encode keep bs ++ encode keep cs := List.flatMap_append

theorem encode_of_all {keep : UInt8 → Bool} {bs : List UInt8} (h : ∀ b ∈ bs, keep b = true) :
    encode keep bs = bs := by
  induction bs with
  | nil => rfl
  | cons b bs ih =>
      unfold encode at ih ⊢
      rw [List.flatMap_cons, if_pos (h b List.mem_cons_self),
        ih fun c hc => h c (List.mem_cons_of_mem _ hc)]
      rfl

theorem encode_ne_nil {keep : UInt8 → Bool} {bs : List UInt8} (h : bs ≠ []) : encode keep bs ≠ [] := by
  obtain ⟨b, bs, rfl⟩ := List.exists_cons_of_ne_nil h
  unfold encode
  rw [List.flatMap_cons]
  split
  · exact List.cons_ne_nil _ _
  · exact List.cons_ne_nil _ _

/-- Where strict decoding succeeds, lenient decoding does the same. -/
theorem decodeLenient_of_decode {bs cs : List UInt8} (h : decode bs = some cs) : decodeLenient bs = cs := by
  induction bs using decode.induct generalizing cs with
  | case1 =>
      cases h
      rfl
  | case2 h l rest c hc ih =>
      rw [decode, if_pos rfl] at h
      simp only [hc] at h
      obtain ⟨ds, hds, rfl⟩ := Option.map_eq_some_iff.mp h
      rw [decodeLenient, if_pos rfl]
      simp only [hc, ih hds]
  | case3 h l rest hc =>
      rw [decode, if_pos rfl] at h
      simp only [hc, reduceCtorEq] at h
  | case4 rest hrest =>
      rcases rest with _ | ⟨x, _ | ⟨y, rest⟩⟩
      · simp [decode] at h
      · simp [decode] at h
      · exact absurd rfl (hrest x y rest)
  | case5 b rest hb ih =>
      rw [decode_cons_of_ne hb] at h
      obtain ⟨ds, hds, rfl⟩ := Option.map_eq_some_iff.mp h
      rw [← ih hds]
      rcases rest with _ | ⟨x, _ | ⟨y, rest⟩⟩ <;> simp only [decodeLenient, if_neg hb]

/-- Bytes without `%` in front stand apart. -/
theorem decode_append_of_not_mem {as : List UInt8} (h : percent ∉ as) (bs : List UInt8) :
    decode (as ++ bs) = (decode bs).map (as ++ ·) := by
  induction as with
  | nil => exact Option.map_id'.symm
  | cons a as ih =>
      rw [List.mem_cons, not_or] at h
      rw [List.cons_append, decode_cons_of_ne (Ne.symm h.1), ih h.2, Option.map_map]
      rfl

/-- Decoding makes a string no longer, and with a `%` in it shorter. -/
theorem length_decode {bs cs : List UInt8} (h : decode bs = some cs) :
    cs.length ≤ bs.length ∧ (percent ∈ bs → cs.length < bs.length) := by
  induction bs using decode.induct generalizing cs with
  | case1 =>
      cases h
      exact ⟨Nat.le_refl _, fun hmem => nomatch hmem⟩
  | case2 h l rest c hc ih =>
      rw [decode, if_pos rfl] at h
      simp only [hc] at h
      obtain ⟨ds, hds, rfl⟩ := Option.map_eq_some_iff.mp h
      obtain ⟨hle, -⟩ := ih hds
      simp only [List.length_cons]
      exact ⟨by omega, fun _ => by omega⟩
  | case3 h l rest hc =>
      rw [decode, if_pos rfl] at h
      simp only [hc, reduceCtorEq] at h
  | case4 rest hrest =>
      rcases rest with _ | ⟨x, _ | ⟨y, rest⟩⟩
      · simp [decode] at h
      · simp [decode] at h
      · exact absurd rfl (hrest x y rest)
  | case5 b rest hb ih =>
      rw [decode_cons_of_ne hb] at h
      obtain ⟨ds, hds, rfl⟩ := Option.map_eq_some_iff.mp h
      obtain ⟨hle, hlt⟩ := ih hds
      simp only [List.length_cons, List.mem_cons]
      refine ⟨by omega, ?_⟩
      rintro (hmem | hmem)
      · exact absurd hmem.symm hb
      · have hrest := hlt hmem
        omega

/-! ## Lenient decoding -/

/-- The escape behind a `%`: the byte it stands for and what follows it. -/
def headEscape : List UInt8 → Option (UInt8 × List UInt8)
  | h :: l :: rest => (unescape? h l).map fun c => (c, rest)
  | _ => none

/-- Some `%` is followed by two hex digits. -/
def hasEscape : List UInt8 → Bool
  | [] => false
  | b :: rest => (b == percent && (headEscape rest).isSome) || hasEscape rest

theorem decodeLenient_cons_of_ne {b : UInt8} (h : b ≠ percent) (bs : List UInt8) :
    decodeLenient (b :: bs) = b :: decodeLenient bs := by
  rcases bs with _ | ⟨c, _ | ⟨d, bs⟩⟩ <;> simp only [decodeLenient, if_neg h]

theorem decodeLenient_percent (bs : List UInt8) :
    decodeLenient (percent :: bs) =
      match headEscape bs with
      | some (c, rest) => c :: decodeLenient rest
      | none => percent :: decodeLenient bs := by
  rcases bs with _ | ⟨h, _ | ⟨l, rest⟩⟩
  · rfl
  · by_cases hh : h = percent
    · subst hh
      rfl
    · simp [decodeLenient, headEscape, hh]
  · rw [decodeLenient, if_pos rfl]
    cases hc : unescape? h l with
    | none => simp only [headEscape, hc, Option.map_none]
    | some c => simp only [headEscape, hc, Option.map_some]

theorem headEscape_length {bs rest : List UInt8} {c : UInt8} (h : headEscape bs = some (c, rest)) :
    bs.length = rest.length + 2 := by
  rcases bs with _ | ⟨x, _ | ⟨y, bs⟩⟩
  · cases h
  · cases h
  · obtain ⟨d, -, hd⟩ := Option.map_eq_some_iff.mp h
    cases hd
    rfl

/-- A byte that is no hex digit completes no escape, so decoding can be done on either side of it. -/
theorem headEscape_append {c : UInt8} (hc : hexValue? c = none) (as bs : List UInt8) :
    headEscape (as ++ c :: bs) = (headEscape as).map fun e => (e.1, e.2 ++ c :: bs) := by
  rcases as with _ | ⟨h, _ | ⟨l, as⟩⟩
  · cases bs with
    | nil => rfl
    | cons l bs => simp [headEscape, unescape?_of_left hc]
  · simp [headEscape, unescape?_of_right hc]
  · simp only [List.cons_append, headEscape]
    cases unescape? h l <;> rfl

theorem decodeLenient_append_cons {c : UInt8} (hne : c ≠ percent) (hc : hexValue? c = none)
    (as bs : List UInt8) : decodeLenient (as ++ c :: bs) = decodeLenient as ++ c :: decodeLenient bs := by
  -- The induction is on the length, because an escape takes three bytes at once.
  induction hlen : as.length using Nat.strongRecOn generalizing as with
  | ind n ih =>
      subst hlen
      cases as with
      | nil => exact decodeLenient_cons_of_ne hne bs
      | cons a as =>
          rw [List.cons_append]
          by_cases ha : a = percent
          · subst ha
            rw [decodeLenient_percent, decodeLenient_percent, headEscape_append hc]
            cases hescape : headEscape as with
            | none =>
                simp only [Option.map_none]
                rw [ih as.length (by simp) as rfl, List.cons_append]
            | some e =>
                obtain ⟨x, rest⟩ := e
                have hlen := headEscape_length hescape
                simp only [Option.map_some]
                rw [ih rest.length (by simp only [List.length_cons]; omega) rest rfl, List.cons_append]
          · rw [decodeLenient_cons_of_ne ha, decodeLenient_cons_of_ne ha,
              ih as.length (by simp) as rfl, List.cons_append]

/-- A set of bytes in which nothing that an escape is made of is escaped itself. -/
structure KeepsEscapes (keep : UInt8 → Bool) : Prop where
  percent : keep percent = true
  hex : ∀ b, (hexValue? b).isSome = true → keep b = true

theorem unescape?_hex {h l c : UInt8} (hc : unescape? h l = some c) :
    (hexValue? h).isSome = true ∧ (hexValue? l).isSome = true := by
  unfold unescape? at hc
  split at hc
  · rename_i hx hy
    rw [hx, hy]
    exact ⟨rfl, rfl⟩
  · cases hc

theorem headEscape_countP {p : UInt8 → Bool} (hp : KeepsEscapes p) {bs rest : List UInt8} {c : UInt8}
    (h : headEscape bs = some (c, rest)) : bs.countP p = rest.countP p + 2 := by
  rcases bs with _ | ⟨x, _ | ⟨y, bs⟩⟩
  · cases h
  · cases h
  · obtain ⟨d, hd, hrest⟩ := Option.map_eq_some_iff.mp h
    cases hrest
    obtain ⟨hx, hy⟩ := unescape?_hex hd
    rw [List.countP_cons_of_pos (hp.hex x hx), List.countP_cons_of_pos (hp.hex y hy)]

theorem decodeLenient_escape_append (b : UInt8) (bs : List UInt8) :
    decodeLenient (escape b ++ bs) = b :: decodeLenient bs := by
  unfold escape
  simp only [List.cons_append, List.nil_append]
  rw [decodeLenient_percent]
  simp only [headEscape, unescape?_hexDigit, Option.map_some]

section KeepsEscapes

variable {keep : UInt8 → Bool}

/-- Encoding makes no escape where there was none, and keeps those there were. -/
theorem headEscape_encode (hkeep : KeepsEscapes keep) (bs : List UInt8) :
    headEscape (encode keep bs) = (headEscape bs).map fun e => (e.1, encode keep e.2) := by
  have hnone : ∀ b, keep b = false → hexValue? b = none := by
    intro b hb
    by_contra hsome
    rw [hkeep.hex b (Option.isSome_iff_ne_none.mpr hsome)] at hb
    cases hb
  rcases bs with _ | ⟨h, _ | ⟨l, rest⟩⟩
  · rfl
  · by_cases hh : keep h = true
    · simp [encode, headEscape, hh]
    · simp [encode, headEscape, hh, escape, unescape?_of_left hexValue?_percent]
  · by_cases hh : keep h = true
    · by_cases hl : keep l = true
      · simp only [encode, List.flatMap_cons, hh, hl, if_true, List.singleton_append, headEscape]
        cases unescape? h l <;> rfl
      · have hl' : keep l = false := by simpa using hl
        simp [encode, headEscape, hh, hl', escape, unescape?_of_right hexValue?_percent,
          unescape?_of_right (hnone l hl')]
    · have hh' : keep h = false := by simpa using hh
      simp [encode, headEscape, hh', escape, unescape?_of_left hexValue?_percent,
        unescape?_of_left (hnone h hh')]

/-- **Encoding, then lenient decoding**: a string without an escape comes back. -/
theorem decodeLenient_encode (hkeep : KeepsEscapes keep) {bs : List UInt8} (hescape : hasEscape bs = false) :
    decodeLenient (encode keep bs) = bs := by
  induction bs with
  | nil => rfl
  | cons b bs ih =>
      obtain ⟨hhead, hrest⟩ := Bool.or_eq_false_iff.mp hescape
      by_cases hb : keep b = true
      · have hcons : encode keep (b :: bs) = b :: encode keep bs := by
          simp [encode, hb]
        rw [hcons]
        by_cases hp : b = Percent.percent
        · subst hp
          have hnone : headEscape bs = none := by simpa using hhead
          rw [decodeLenient_percent, headEscape_encode hkeep, hnone]
          simp only [Option.map_none, ih hrest]
        · rw [decodeLenient_cons_of_ne hp, ih hrest]
      · have hcons : encode keep (b :: bs) = escape b ++ encode keep bs := by
          simp [encode, hb]
        rw [hcons, decodeLenient_escape_append, ih hrest]

/-- The bytes of a set that an escape is made of: a string comes back with as many of them at most, and with
    fewer if it has an escape. -/
theorem countP_decodeLenient_encode (hkeep : KeepsEscapes keep) {p : UInt8 → Bool} (hp : KeepsEscapes p)
    (bs : List UInt8) :
    (decodeLenient (encode keep bs)).countP p ≤ bs.countP p ∧
      (hasEscape bs = true → (decodeLenient (encode keep bs)).countP p < bs.countP p) := by
  -- The induction is on the length, because an escape takes three bytes at once.
  induction hlen : bs.length using Nat.strongRecOn generalizing bs with
  | ind n ih =>
      subst hlen
      cases bs with
      | nil => exact ⟨Nat.le_refl _, fun h => by cases h⟩
      | cons b bs =>
          obtain ⟨hle, hlt⟩ := ih bs.length (by simp) bs rfl
          by_cases hb : b = percent ∧ (headEscape bs).isSome = true
          · obtain ⟨rfl, hsome⟩ := hb
            obtain ⟨⟨c, rest⟩, hhead⟩ := Option.isSome_iff_exists.mp hsome
            have hcount := headEscape_countP hp hhead
            have hlength := headEscape_length hhead
            obtain ⟨hrest, -⟩ := ih rest.length (by simp only [List.length_cons]; omega) rest rfl
            have hcons : encode keep (percent :: bs) = percent :: encode keep bs := by
              simp [encode, hkeep.percent]
            have hdecode : decodeLenient (encode keep (percent :: bs)) = c ::
                decodeLenient (encode keep rest) := by
              rw [hcons, decodeLenient_percent, headEscape_encode hkeep, hhead, Option.map_some]
            have hone : (if p c then 1 else 0) ≤ 1 := by
              split
              · exact Nat.le_refl 1
              · exact Nat.zero_le 1
            rw [hdecode, List.countP_cons, List.countP_cons_of_pos hp.percent]
            constructor
            · omega
            · intro _
              omega
          · -- The first byte comes back as it was.
            have hdecode : decodeLenient (encode keep (b :: bs)) = b :: decodeLenient (encode keep bs) := by
              by_cases hkb : keep b = true
              · have hcons : encode keep (b :: bs) = b :: encode keep bs := by
                  simp [encode, hkb]
                rw [hcons]
                by_cases hpercent : b = percent
                · subst hpercent
                  have hnone : headEscape bs = none := by simpa using hb
                  rw [decodeLenient_percent, headEscape_encode hkeep, hnone, Option.map_none]
                · exact decodeLenient_cons_of_ne hpercent _
              · have hcons : encode keep (b :: bs) = escape b ++ encode keep bs := by
                  simp [encode, hkb]
                rw [hcons, decodeLenient_escape_append]
            have hescape : hasEscape (b :: bs) = hasEscape bs := by
              rw [hasEscape, Bool.or_eq_right_iff_imp]
              intro h
              rw [Bool.and_eq_true, beq_iff_eq] at h
              exact absurd h hb
            rw [hdecode, hescape, List.countP_cons, List.countP_cons]
            constructor
            · omega
            · intro h
              have hbs := hlt h
              omega

end KeepsEscapes

/-- A string without an escape decodes to itself. -/
theorem decodeLenient_of_hasEscape {bs : List UInt8} (h : hasEscape bs = false) : decodeLenient bs = bs := by
  have hkeep : KeepsEscapes fun _ => true := ⟨rfl, fun _ _ => rfl⟩
  have hself := decodeLenient_encode hkeep h
  rwa [encode_of_all fun _ _ => rfl] at hself

/-- A string with an escape comes out shorter. -/
theorem length_decodeLenient_lt {bs : List UInt8} (h : hasEscape bs = true) :
    (decodeLenient bs).length < bs.length := by
  have hkeep : KeepsEscapes fun _ => true := ⟨rfl, fun _ _ => rfl⟩
  have hlt := (countP_decodeLenient_encode hkeep hkeep bs).2 h
  rwa [encode_of_all fun _ _ => rfl, List.countP_true] at hlt

end Percent
