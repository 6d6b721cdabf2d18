import Mathlib.Data.List.Basic

/-!
# `Gekko.Lib.Utf8` — UTF-8 on byte lists

The encoding of a string as a list of bytes, and the two ways back that web libraries use: `decode`, which
refuses an ill-formed sequence, and `decodeLossy`, which puts U+FFFD in its place. Single characters are
decoded by the core library; this module adds the loop over a byte list and the two round trips.

Both loops take fuel, one unit a byte, so that they compute by structural recursion.
-/

namespace Utf8

/-- The bytes of a string. -/
def encode (s : String) : List UInt8 := s.toList.flatMap String.utf8EncodeChar

/-- The character that a byte list starts with. -/
def decodeChar? (bs : List UInt8) : Option Char := bs.toByteArray.utf8DecodeChar? 0

def decodeLoop : Nat → List UInt8 → Option (List Char)
  | _, [] => some []
  | 0, _ :: _ => none
  | n + 1, b :: bs =>
      match decodeChar? (b :: bs) with
      | none => none
      | some c => (decodeLoop n ((b :: bs).drop c.utf8Size)).map (c :: ·)

/-- Strict decoding: `none` when the bytes are not well-formed UTF-8. -/
def decode (bs : List UInt8) : Option String := (decodeLoop bs.length bs).map String.ofList

/-- The bytes that may stand second after the lead byte `b`, as a closed range; `none` when `b` leads no
    multi-byte sequence. The third component is the number of bytes that follow the lead byte. -/
def leadByte (b : UInt8) : Option (UInt8 × UInt8 × Nat) :=
  if 0xC2 ≤ b ∧ b ≤ 0xDF then some (0x80, 0xBF, 1)
  else if b = 0xE0 then some (0xA0, 0xBF, 2)
  else if b = 0xED then some (0x80, 0x9F, 2)
  else if 0xE1 ≤ b ∧ b ≤ 0xEF then some (0x80, 0xBF, 2)
  else if b = 0xF0 then some (0x90, 0xBF, 3)
  else if b = 0xF4 then some (0x80, 0x8F, 3)
  else if 0xF1 ≤ b ∧ b ≤ 0xF3 then some (0x80, 0xBF, 3)
  else none

/-- How many bytes one U+FFFD stands for at the front of an ill-formed sequence: the longest prefix that
    still starts some well-formed character, and one byte at least. -/
def badPrefix : List UInt8 → Nat
  | [] => 1
  | b :: bs =>
      match leadByte b, bs with
      | some (lo, hi, k), c :: cs =>
          if lo ≤ c ∧ c ≤ hi then 2 + ((cs.take (k - 1)).takeWhile fun d => 0x80 ≤ d ∧ d ≤ 0xBF).length else 1
      | _, _ => 1

def decodeLossyLoop : Nat → List UInt8 → List Char
  | _, [] => []
  | 0, _ :: _ => []
  | n + 1, b :: bs =>
      match decodeChar? (b :: bs) with
      | none => '\uFFFD' :: decodeLossyLoop n ((b :: bs).drop (badPrefix (b :: bs)))
      | some c => c :: decodeLossyLoop n ((b :: bs).drop c.utf8Size)

/-- Decoding with replacement: each maximal ill-formed prefix becomes one U+FFFD. -/
def decodeLossy (bs : List UInt8) : String := String.ofList (decodeLossyLoop bs.length bs)

/-! ## Single characters -/

theorem encodeChar_ne_nil (c : Char) : String.utf8EncodeChar c ≠ [] := by
  intro h
  have hlen := String.length_utf8EncodeChar c
  rw [h] at hlen
  have hpos := c.utf8Size_pos
  simp only [List.length_nil] at hlen
  omega

theorem decodeChar?_encodeChar_append (c : Char) (bs : List UInt8) :
    decodeChar? (String.utf8EncodeChar c ++ bs) = some c := by
  unfold decodeChar?
  rw [List.toByteArray_append]
  exact ByteArray.utf8DecodeChar?_utf8EncodeChar_append

theorem drop_encodeChar_append (c : Char) (bs : List UInt8) :
    (String.utf8EncodeChar c ++ bs).drop c.utf8Size = bs := by
  rw [← String.length_utf8EncodeChar c]
  exact List.drop_left

/-- A byte below `0x80` of an encoded character is the whole character. -/
theorem mem_encodeChar_of_lt {c : Char} {b : UInt8} (hb : b ∈ String.utf8EncodeChar c) (hlt : b < 0x80) :
    c.toNat = b.toNat := by
  have hlt' : b.toNat < 128 := hlt
  have hc : c.val.toNat = c.toNat := rfl
  unfold String.utf8EncodeChar at hb
  simp only at hb
  split at hb
  · rename_i hle
    rw [List.mem_singleton] at hb
    rw [hb, UInt8.toNat_ofNat', Nat.mod_eq_of_lt (by omega), hc]
  · -- Every byte of a longer encoding has its top bit set.
    exfalso
    split at hb
    · simp only [List.mem_cons, List.not_mem_nil, or_false] at hb
      rcases hb with h | h <;> rw [h, UInt8.toNat_ofNat'] at hlt' <;> omega
    · split at hb
      · simp only [List.mem_cons, List.not_mem_nil, or_false] at hb
        rcases hb with h | h | h <;> rw [h, UInt8.toNat_ofNat'] at hlt' <;> omega
      · simp only [List.mem_cons, List.not_mem_nil, or_false] at hb
        rcases hb with h | h | h | h <;> rw [h, UInt8.toNat_ofNat'] at hlt' <;> omega

theorem encodeChar_of_ascii {c : Char} (h : c.toNat < 128) :
    String.utf8EncodeChar c = [UInt8.ofNat c.toNat] := by
  have hc : c.val.toNat = c.toNat := rfl
  unfold String.utf8EncodeChar
  simp only
  rw [if_pos (by omega), hc]

theorem toNat_ofNat_of_ascii {n : Nat} (h : n < 128) : (Char.ofNat n).toNat = n := by
  have hvalid : n.isValidChar := Or.inl (by omega)
  unfold Char.ofNat
  rw [dif_pos hvalid]
  exact UInt32.toNat_ofNatLT

/-! ## Whole strings -/

theorem encode_append (s t : String) : encode (s ++ t) = encode s ++ encode t := by
  unfold encode
  rw [String.toList_append, List.flatMap_append]

theorem encode_ne_nil {s : String} (h : s ≠ "") : encode s ≠ [] := by
  have hne : s.toList ≠ [] := fun hc => h (String.toList_eq_nil_iff.mp hc)
  obtain ⟨c, cs, hcs⟩ := List.exists_cons_of_ne_nil hne
  unfold encode
  rw [hcs, List.flatMap_cons]
  exact List.append_ne_nil_of_left_ne_nil (encodeChar_ne_nil c) _

/-- Every byte below `0x80` of an encoded string is one of its characters. -/
theorem exists_mem_of_mem_encode {s : String} {b : UInt8} (hb : b ∈ encode s) (hlt : b < 0x80) :
    ∃ c ∈ s.toList, c.toNat = b.toNat := by
  obtain ⟨c, hc, hmem⟩ := List.mem_flatMap.mp hb
  exact ⟨c, hc, mem_encodeChar_of_lt hmem hlt⟩

/-! ## The round trips -/

theorem decodeLoop_flatMap {n : Nat} {cs : List Char} (hn : (cs.flatMap String.utf8EncodeChar).length ≤ n) :
    decodeLoop n (cs.flatMap String.utf8EncodeChar) = some cs := by
  induction cs generalizing n with
  | nil =>
      simp only [List.flatMap_nil]
      cases n <;> rfl
  | cons c cs ih =>
      simp only [List.flatMap_cons, List.length_append, String.length_utf8EncodeChar] at hn ⊢
      have hpos := c.utf8Size_pos
      -- The first character has at least one byte, so the fuel is not used up.
      obtain ⟨n, rfl⟩ : ∃ m, n = m + 1 := ⟨n - 1, by omega⟩
      obtain ⟨b, bs, hbs⟩ := List.exists_cons_of_ne_nil (encodeChar_ne_nil c)
      rw [hbs, List.cons_append, decodeLoop, ← List.cons_append, ← hbs, decodeChar?_encodeChar_append]
      simp only [drop_encodeChar_append]
      rw [ih (by omega)]
      rfl

/-- **Strict round trip.** -/
theorem decode_encode (s : String) : decode (encode s) = some s := by
  unfold decode encode
  rw [decodeLoop_flatMap (Nat.le_refl _)]
  simp only [Option.map_some, String.ofList_toList]

theorem encode_injective {s t : String} (h : encode s = encode t) : s = t := by
  have hs := decode_encode s
  rw [h, decode_encode] at hs
  exact (Option.some.inj hs).symm

theorem decodeLossyLoop_flatMap {n : Nat} {cs : List Char}
    (hn : (cs.flatMap String.utf8EncodeChar).length ≤ n) :
    decodeLossyLoop n (cs.flatMap String.utf8EncodeChar) = cs := by
  induction cs generalizing n with
  | nil =>
      simp only [List.flatMap_nil]
      cases n <;> rfl
  | cons c cs ih =>
      simp only [List.flatMap_cons, List.length_append, String.length_utf8EncodeChar] at hn ⊢
      have hpos := c.utf8Size_pos
      obtain ⟨n, rfl⟩ : ∃ m, n = m + 1 := ⟨n - 1, by omega⟩
      obtain ⟨b, bs, hbs⟩ := List.exists_cons_of_ne_nil (encodeChar_ne_nil c)
      rw [hbs, List.cons_append, decodeLossyLoop, ← List.cons_append, ← hbs, decodeChar?_encodeChar_append]
      simp only [drop_encodeChar_append]
      rw [ih (by omega)]

/-- **Round trip through replacement**: a well-formed text is left alone. -/
theorem decodeLossy_encode (s : String) : decodeLossy (encode s) = s := by
  unfold decodeLossy encode
  rw [decodeLossyLoop_flatMap (Nat.le_refl _), String.ofList_toList]

/-! ## ASCII bytes as text -/

/-- Every byte is the number of a character. -/
theorem toNat_ofNat (b : UInt8) : (Char.ofNat b.toNat).toNat = b.toNat := by
  have hlt : b.toNat < 256 := b.toNat_lt_size
  have hvalid : b.toNat.isValidChar := Or.inl (by omega)
  unfold Char.ofNat
  rw [dif_pos hvalid]
  exact UInt32.toNat_ofNatLT

theorem ofNat_toNat_injective : Function.Injective fun b : UInt8 => Char.ofNat b.toNat := by
  intro a b h
  have hnat : a.toNat = b.toNat := by
    rw [← toNat_ofNat a, ← toNat_ofNat b]
    exact congrArg Char.toNat h
  exact UInt8.toNat_inj.mp hnat

theorem flatMap_encodeChar_ascii {bs : List UInt8} (h : ∀ b ∈ bs, b < 0x80) :
    (bs.map fun b => Char.ofNat b.toNat).flatMap String.utf8EncodeChar = bs := by
  induction bs with
  | nil => rfl
  | cons b bs ih =>
      have hb : b.toNat < 128 := h b List.mem_cons_self
      have hchar := toNat_ofNat_of_ascii hb
      rw [List.map_cons, List.flatMap_cons, ih fun c hc => h c (List.mem_cons_of_mem _ hc),
        encodeChar_of_ascii (by omega), hchar, UInt8.ofNat_toNat]
      rfl

/-- ASCII bytes are decoded one by one. -/
theorem decodeLossy_ascii {bs : List UInt8} (h : ∀ b ∈ bs, b < 0x80) :
    decodeLossy bs = String.ofList (bs.map fun b => Char.ofNat b.toNat) := by
  rw [← decodeLossy_encode (String.ofList (bs.map fun b => Char.ofNat b.toNat)), encode, String.toList_ofList,
    flatMap_encodeChar_ascii h]

/-! ## Counting ASCII -/

def asciiChar (c : Char) : Bool := c.toNat < 0x80

def asciiByte (b : UInt8) : Bool := b < 0x80

theorem countP_encodeChar (c : Char) :
    (String.utf8EncodeChar c).countP asciiByte = [c].countP asciiChar := by
  by_cases hc : c.toNat < 0x80
  · have hbyte : asciiByte (UInt8.ofNat c.toNat) = true := by
      have hnat : (UInt8.ofNat c.toNat).toNat = c.toNat := by
        rw [UInt8.toNat_ofNat', Nat.mod_eq_of_lt (by omega)]
      have hlt : (UInt8.ofNat c.toNat).toNat < 0x80 := by
        rw [hnat]
        exact hc
      exact decide_eq_true hlt
    have hchar : asciiChar c = true := decide_eq_true hc
    rw [encodeChar_of_ascii hc, List.countP_cons_of_pos hbyte, List.countP_cons_of_pos hchar]
    rfl
  · have hchar : ¬ asciiChar c = true := fun h => hc (of_decide_eq_true h)
    rw [List.countP_cons_of_neg hchar, List.countP_nil, List.countP_eq_zero]
    intro b hb hbyte
    have hlt : b < 0x80 := of_decide_eq_true hbyte
    have hnat := mem_encodeChar_of_lt hb hlt
    exact hc (hnat ▸ hlt)

/-- Encoding keeps the number of ASCII characters. -/
theorem countP_flatMap_encodeChar (cs : List Char) :
    (cs.flatMap String.utf8EncodeChar).countP asciiByte = cs.countP asciiChar := by
  induction cs with
  | nil => rfl
  | cons c cs ih =>
      rw [List.flatMap_cons, List.countP_append, ih, countP_encodeChar, ← List.countP_append]
      rfl

/-- A decoded character is what the bytes start with. -/
theorem eq_append_of_decodeChar? {bs : List UInt8} {c : Char} (h : decodeChar? bs = some c) :
    bs = String.utf8EncodeChar c ++ bs.drop c.utf8Size := by
  obtain ⟨rest, hrest⟩ := ByteArray.exists_of_utf8DecodeChar?_eq_some h
  have hbs : bs = String.utf8EncodeChar c ++ rest.data.toList := by
    have hlist := congrArg (fun bytes => bytes.data.toList) hrest
    simpa using hlist
  rw [hbs, drop_encodeChar_append]

theorem flatMap_of_decodeLoop {n : Nat} {bs : List UInt8} {cs : List Char} (h : decodeLoop n bs = some cs) :
    cs.flatMap String.utf8EncodeChar = bs := by
  induction n generalizing bs cs with
  | zero =>
      cases bs with
      | nil =>
          cases h
          rfl
      | cons b bs => cases h
  | succ n ih =>
      cases bs with
      | nil =>
          cases h
          rfl
      | cons b bs =>
          rw [decodeLoop] at h
          split at h
          · cases h
          · rename_i c hc
            obtain ⟨ds, hds, rfl⟩ := Option.map_eq_some_iff.mp h
            rw [List.flatMap_cons, ih hds]
            exact (eq_append_of_decodeChar? hc).symm

/-- Only one byte string decodes to a given string. -/
theorem encode_of_decode {bs : List UInt8} {s : String} (h : decode bs = some s) : encode s = bs := by
  obtain ⟨cs, hcs, rfl⟩ := Option.map_eq_some_iff.mp h
  rw [encode, String.toList_ofList]
  exact flatMap_of_decodeLoop hcs

/-- Decoding with replacement makes no ASCII characters. -/
theorem countP_decodeLossyLoop_le (n : Nat) (bs : List UInt8) :
    (decodeLossyLoop n bs).countP asciiChar ≤ bs.countP asciiByte := by
  induction n generalizing bs with
  | zero => cases bs <;> simp [decodeLossyLoop]
  | succ n ih =>
      cases bs with
      | nil => simp [decodeLossyLoop]
      | cons b bs =>
          rw [decodeLossyLoop]
          split
          -- The replacement character is not ASCII.
          · have hih := ih ((b :: bs).drop (badPrefix (b :: bs)))
            have hdrop : ((b :: bs).drop (badPrefix (b :: bs))).countP asciiByte ≤
                (b :: bs).countP asciiByte :=
              (List.drop_sublist _ _).countP_le
            rw [List.countP_cons_of_neg (by decide)]
            omega
          · rename_i c hc
            have hih := ih ((b :: bs).drop c.utf8Size)
            have hsplit := congrArg (List.countP asciiByte) (eq_append_of_decodeChar? hc)
            rw [List.countP_append, countP_encodeChar] at hsplit
            rw [hsplit, ← List.singleton_append, List.countP_append]
            omega

end Utf8
