import Gekko.Lib.Percent
import Gekko.Lib.Search
import Gekko.Lib.Utf8


/-! # `Gekko.Lib.Requote` — decoding a path and escaping it again

A server that hands out the percent-decoded path, and puts a URL together from it, may escape some
characters again: those that would end the path. What comes out is the path that was sent when decoding
and escaping lead back to it.

`cut_requote_iff` says that nothing else can make it so: neither the replacement of bytes that are no
UTF-8 nor a cut at the first `?` lets another path pass for the one that was sent. The set of characters
is arbitrary, as long as nothing that an escape is made of is in it (`Quotable`).
-/

namespace Requote

open Percent (decodeLenient encode KeepsEscapes)
open Utf8 (decodeLossy asciiChar asciiByte)

/-- ASCII bytes as characters. -/
def ascii (bs : List UInt8) : List Char := bs.map fun b => Char.ofNat b.toNat

/-- `%XX` for an ASCII character. -/
def escapeChar (c : Char) : List Char := ascii (Percent.escape (UInt8.ofNat c.toNat))

/-- Escape the characters of a set. -/
def requote (quoted : Char → Bool) (text : List Char) : List Char :=
  text.flatMap fun c => if quoted c then escapeChar c else [c]

/-- The same set, of the bytes that stay. -/
def keeps (quoted : Char → Bool) (b : UInt8) : Bool := !quoted (Char.ofNat b.toNat)

/-- Only ASCII characters are escaped, and none that an escape is made of. -/
structure Quotable (quoted : Char → Bool) : Prop where
  ascii : ∀ c, quoted c = true → c.toNat < 128
  percent : quoted '%' = false
  hex : ∀ b : UInt8, (Percent.hexValue? b).isSome = true → quoted (Char.ofNat b.toNat) = false

variable {quoted : Char → Bool} {bs : List UInt8} {text : List Char}

theorem Quotable.keepsEscapes (h : Quotable quoted) : KeepsEscapes (keeps quoted) where
  percent := by
    have hpercent : Char.ofNat Percent.percent.toNat = '%' := by decide
    rw [keeps, hpercent, h.percent]
    rfl
  hex := by
    intro b hb
    rw [keeps, h.hex b hb]
    rfl

theorem ascii_injective : Function.Injective ascii :=
  List.map_injective_iff.mpr Utf8.ofNat_toNat_injective

@[simp] theorem length_ascii (bs : List UInt8) : (ascii bs).length = bs.length := List.length_map _

@[simp] theorem requote_none (text : List Char) : requote (fun _ => false) text = text := by
  induction text with
  | nil => rfl
  | cons c text ih =>
      unfold requote at ih ⊢
      rw [List.flatMap_cons, ih]
      rfl

/-- On ASCII text, escaping characters is escaping bytes. -/
theorem requote_ascii (h : ∀ b ∈ bs, b < 0x80) :
    requote quoted (ascii bs) = ascii (encode (keeps quoted) bs) := by
  induction bs with
  | nil => rfl
  | cons b bs ih =>
      have hb : b.toNat < 128 := h b List.mem_cons_self
      have hrest := ih fun c hc => h c (List.mem_cons_of_mem _ hc)
      unfold requote ascii encode at hrest ⊢
      rw [List.map_cons, List.flatMap_cons, List.flatMap_cons, List.map_append, hrest]
      unfold keeps escapeChar ascii
      rw [Utf8.toNat_ofNat_of_ascii hb, UInt8.ofNat_toNat]
      cases quoted (Char.ofNat b.toNat) <;> rfl

/-- An escape has no `?` in it. -/
theorem question_not_mem_escapeChar (c : Char) : '?' ∉ escapeChar c := by
  have hhex : ∀ n : Fin 16, Char.ofNat (Percent.hexDigit n.val).toNat ≠ '?' := by decide
  have hlt : (UInt8.ofNat c.toNat).toNat < 256 := UInt8.toNat_lt_size _
  unfold escapeChar ascii Percent.escape
  simp only [List.map_cons, List.map_nil, List.mem_cons, List.not_mem_nil, or_false, not_or]
  refine ⟨by decide, ?_, ?_⟩
  · exact fun h => hhex ⟨_, by omega⟩ h.symm
  · exact fun h => hhex ⟨_, by omega⟩ h.symm

/-- A cut at the first `?` cuts at the first one that was not escaped. -/
theorem takeWhile_requote (text : List Char) :
    (requote quoted text).takeWhile (· ≠ '?') =
      requote quoted (text.takeWhile fun c => c ≠ '?' || quoted c) := by
  induction text with
  | nil => rfl
  | cons c text ih =>
      unfold requote at ih ⊢
      rw [List.flatMap_cons]
      by_cases hquoted : quoted c = true
      · rw [if_pos hquoted, Search.takeWhile_ne_append (question_not_mem_escapeChar c), ih,
          List.takeWhile_cons_of_pos (by rw [hquoted, Bool.or_true]), List.flatMap_cons, if_pos hquoted]
      · rw [if_neg hquoted, List.singleton_append]
        by_cases hc : c = '?'
        · subst hc
          rw [List.takeWhile_cons_of_neg (by simp), List.takeWhile_cons_of_neg (by simpa using hquoted)]
          rfl
        · rw [List.takeWhile_cons_of_pos (by simpa using hc), ih, List.takeWhile_cons_of_pos (by simp [hc]),
            List.flatMap_cons, if_neg hquoted]
          rfl

theorem eq_ascii (h : ∀ c ∈ text, c.toNat < 128) : ∃ bs : List UInt8, (∀ b ∈ bs, b < 0x80) ∧
    text = ascii bs := by
  have hbyte : ∀ c ∈ text, (UInt8.ofNat c.toNat).toNat = c.toNat := by
    intro c hc
    have hlt := h c hc
    rw [UInt8.toNat_ofNat', Nat.mod_eq_of_lt (by omega)]
  refine ⟨text.map fun c => UInt8.ofNat c.toNat, ?_, ?_⟩
  · intro b hb
    obtain ⟨c, hc, rfl⟩ := List.mem_map.mp hb
    show (UInt8.ofNat c.toNat).toNat < 128
    rw [hbyte c hc]
    exact h c hc
  · unfold ascii
    rw [List.map_map]
    refine (List.map_id'' (fun _ => rfl) text).symm.trans (List.map_congr_left fun c hc => ?_)
    rw [Function.comp_apply, hbyte c hc, Char.ofNat_toNat]

theorem lt_of_mem_encode (hquoted : Quotable quoted) (hbs : ∀ b ∈ encode (keeps quoted) bs, b < 0x80) :
    ∀ b ∈ bs, b < 0x80 := by
  intro b hb
  by_cases hkeep : keeps quoted b = true
  · apply hbs
    exact List.mem_flatMap.mpr ⟨b, hb, by rw [if_pos hkeep]; exact List.mem_singleton_self b⟩
  · have hq : quoted (Char.ofNat b.toNat) = true := by simpa [keeps] using hkeep
    have hlt := hquoted.ascii _ hq
    have hnat := Utf8.toNat_ofNat b
    show b.toNat < 128
    omega

/-- **Which paths come back**: those that decoding and escaping lead back to, byte by byte. -/
theorem cut_requote_iff (hquoted : Quotable quoted) (hbs : ∀ b ∈ bs, b < 0x80 ∧ b ≠ 0x3F) :
    (requote quoted (decodeLossy (decodeLenient bs)).toList).takeWhile (· ≠ '?') = ascii bs ↔
      encode (keeps quoted) (decodeLenient bs) = bs := by
  have hascii : ∀ b ∈ bs, b < 0x80 := fun b hb => (hbs b hb).1
  have hquestion : '?' ∉ ascii bs := by
    intro hmem
    obtain ⟨b, hb, hchar⟩ := List.mem_map.mp hmem
    exact (hbs b hb).2 (Utf8.ofNat_toNat_injective hchar)
  constructor
  · intro h
    rw [takeWhile_requote] at h
    have hcut : ∀ c ∈ (decodeLossy (decodeLenient bs)).toList.takeWhile (fun c => c ≠ '?' || quoted c),
        c.toNat < 128 := by
      intro c hc
      by_cases hq : quoted c = true
      · exact hquoted.ascii c hq
      · -- It stands in the path as it is.
        have hmem : c ∈ ascii bs := by
          rw [← h]
          exact List.mem_flatMap.mpr ⟨c, hc, by rw [if_neg hq]; exact List.mem_singleton_self c⟩
        obtain ⟨b, hb, rfl⟩ := List.mem_map.mp hmem
        have hlt : b.toNat < 128 := hascii b hb
        rw [Utf8.toNat_ofNat_of_ascii hlt]
        exact hlt
    obtain ⟨cs, hcs, heq⟩ := eq_ascii hcut
    rw [heq, requote_ascii hcs] at h
    have hencode : encode (keeps quoted) cs = bs := ascii_injective h
    -- Decoding what the escaping gave makes nothing longer than it was, so nothing was cut off or replaced.
    have hall : KeepsEscapes fun _ : UInt8 => true := ⟨rfl, fun _ _ => rfl⟩
    have hshort : (decodeLenient bs).length ≤ cs.length := by
      have hle := (Percent.countP_decodeLenient_encode hquoted.keepsEscapes hall cs).1
      rwa [hencode, List.countP_true] at hle
    have hsub := List.takeWhile_sublist (fun c => c ≠ '?' || quoted c)
      (l := (decodeLossy (decodeLenient bs)).toList)
    have hcount : cs.length ≤ (decodeLenient bs).countP asciiByte := by
      have hcs' : (ascii cs).countP asciiChar = cs.length := by
        rw [List.countP_eq_length.mpr, length_ascii]
        intro c hc
        exact decide_eq_true (hcut c (heq ▸ hc))
      have hprefix := hsub.countP_le (p := asciiChar)
      have hlossy := Utf8.countP_decodeLossyLoop_le (decodeLenient bs).length (decodeLenient bs)
      rw [heq, hcs', decodeLossy, String.toList_ofList] at hprefix
      exact Nat.le_trans hprefix hlossy
    have hdecoded : ∀ b ∈ decodeLenient bs, b < 0x80 := by
      have hle := List.countP_le_length (p := asciiByte) (l := decodeLenient bs)
      have hlength : (decodeLenient bs).countP asciiByte = (decodeLenient bs).length := by omega
      intro b hb
      exact of_decide_eq_true (List.countP_eq_length.mp hlength b hb)
    have hlossy : (decodeLossy (decodeLenient bs)).toList = ascii (decodeLenient bs) := by
      rw [Utf8.decodeLossy_ascii hdecoded, String.toList_ofList]
      rfl
    rw [heq, hlossy] at hsub
    have hlength : (ascii (decodeLenient bs)).length ≤ (ascii cs).length := by
      rw [length_ascii, length_ascii]
      exact hshort
    rw [← ascii_injective (hsub.eq_of_length_le hlength), hencode]
  · intro h
    have hdecoded : ∀ b ∈ decodeLenient bs, b < 0x80 := lt_of_mem_encode hquoted (by rwa [h])
    rw [Utf8.decodeLossy_ascii hdecoded, String.toList_ofList]
    show (requote quoted (ascii (decodeLenient bs))).takeWhile (· ≠ '?') = ascii bs
    rw [requote_ascii hdecoded, h]
    exact Search.takeWhile_ne_eq_self_iff.mpr hquestion

/-- A path without an escape comes back when nothing in it is escaped. -/
theorem encode_decodeLenient_of_hasEscape (hescape : Percent.hasEscape bs = false)
    (hkeep : ∀ b ∈ bs, keeps quoted b = true) : encode (keeps quoted) (decodeLenient bs) = bs := by
  rw [Percent.decodeLenient_of_hasEscape hescape, Percent.encode_of_all hkeep]

/-- Where nothing is escaped again, exactly the paths without an escape come back. -/
theorem encode_decodeLenient_none_iff :
    encode (keeps fun _ => false) (decodeLenient bs) = bs ↔ Percent.hasEscape bs = false := by
  have hkeep : ∀ cs : List UInt8, ∀ b ∈ cs, keeps (fun _ => false) b = true := fun _ _ _ => rfl
  rw [Percent.encode_of_all (hkeep _)]
  constructor
  · intro h
    by_contra hescape
    have hlt := Percent.length_decodeLenient_lt (by simpa using hescape)
    rw [h] at hlt
    exact Nat.lt_irrefl _ hlt
  · exact Percent.decodeLenient_of_hasEscape

end Requote
