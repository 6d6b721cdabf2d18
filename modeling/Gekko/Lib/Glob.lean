import Mathlib.Data.List.Infix
import Gekko.Lib.Utf8


/-! # `Gekko.Lib.Glob` — glob patterns on bytes

Patterns as the `KEYS` command of Redis has them: `*` for any bytes, `?` for one, `[…]` for one of a
class, which can have ranges and be negated by `^`, and a backslash that takes the byte after it for
itself. A class that is not closed goes on to the end of the pattern.

`matches_self` — a text without `[` and backslash matches itself, as it does behind a star
(`matches_star_append`).
-/

namespace Glob

/-- A member of a class. -/
inductive Item where
  | byte (b : UInt8)
  | range (lo hi : UInt8)
  deriving DecidableEq, Repr

inductive Token where
  | star
  | any
  | oneOf (negated : Bool) (items : List Item)
  | byte (b : UInt8)
  deriving DecidableEq, Repr

/-- The class that a text begins with, up to its bracket, and what comes after it. -/
def parseClass : List UInt8 → List Item × List UInt8
  | [] => ([], [])
  | 92 :: b :: rest => (.byte b :: (parseClass rest).1, (parseClass rest).2)
  | 93 :: rest => ([], rest)
  | lo :: 45 :: hi :: rest => (.range lo hi :: (parseClass rest).1, (parseClass rest).2)
  | b :: rest => (.byte b :: (parseClass rest).1, (parseClass rest).2)

/-- The tokens of a pattern. The fuel is a bound on its length. -/
def tokens : Nat → List UInt8 → List Token
  | 0, _ => []
  | _, [] => []
  | n + 1, 42 :: rest => .star :: tokens n rest
  | n + 1, 63 :: rest => .any :: tokens n rest
  | n + 1, 91 :: 94 :: rest => .oneOf true (parseClass rest).1 :: tokens n (parseClass rest).2
  | n + 1, 91 :: rest => .oneOf false (parseClass rest).1 :: tokens n (parseClass rest).2
  | n + 1, 92 :: b :: rest => .byte b :: tokens n rest
  | n + 1, b :: rest => .byte b :: tokens n rest

def Item.admits (b : UInt8) : Item → Bool
  | .byte c => c = b
  | .range lo hi => min lo hi ≤ b && b ≤ max lo hi

/-- The byte stands for the token, where that is one for a single byte. -/
def Token.admits (b : UInt8) : Token → Bool
  | .star => false
  | .any => true
  | .oneOf negated items => (items.any (Item.admits b)) != negated
  | .byte c => c = b

def matchTokens : List Token → List UInt8 → Bool
  | [], text => text.isEmpty
  | .star :: ts, text => text.tails.any (matchTokens ts)
  | t :: ts, b :: text => t.admits b && matchTokens ts text
  | _ :: _, [] => false

def matchBytes (pattern text : List UInt8) : Bool := matchTokens (tokens pattern.length pattern) text

/-- The pattern accepts the text, byte by byte. -/
def accepts (pattern text : String) : Bool := matchBytes (Utf8.encode pattern) (Utf8.encode text)

/-! ## Texts that match themselves -/

/-- The byte has a meaning of its own in patterns. -/
def special (b : UInt8) : Bool := b = 42 || b = 63 || b = 91 || b = 92

theorem tokens_cons_of_plain {b : UInt8} (h : special b = false) (n : Nat) (rest : List UInt8) :
    tokens (n + 1) (b :: rest) = .byte b :: tokens n rest := by
  simp only [special, Bool.or_eq_false_iff, decide_eq_false_iff_not] at h
  obtain ⟨⟨⟨hstar, hany⟩, hclass⟩, hescape⟩ := h
  rw [tokens.eq_def]
  split <;> simp_all

/-- A part of the pattern without special bytes stands for itself. -/
theorem matchTokens_literal {lit : List UInt8} (h : ∀ b ∈ lit, special b = false)
    (n : Nat) (rest text : List UInt8) :
    matchTokens (tokens (lit.length + n) (lit ++ rest)) (lit ++ text) = matchTokens (tokens n rest) text := by
  induction lit with
  | nil =>
      rw [List.length_nil, Nat.zero_add]
      rfl
  | cons b lit ih =>
      have hlength : (b :: lit).length + n = (lit.length + n) + 1 := by
        rw [List.length_cons]
        omega
      rw [hlength, List.cons_append, List.cons_append, tokens_cons_of_plain (h b List.mem_cons_self)]
      simp only [matchTokens, Token.admits, decide_true, Bool.true_and]
      exact ih fun c hc => h c (List.mem_cons_of_mem _ hc)

theorem matchTokens_star_append {ts : List Token} {text : List UInt8} (h : matchTokens ts text = true)
    (pre : List UInt8) : matchTokens (.star :: ts) (pre ++ text) = true := by
  rw [matchTokens, List.any_eq_true]
  exact ⟨text, (List.mem_tails _ _).mpr (List.suffix_append _ _), h⟩

/-- **A text without brackets and backslashes matches itself**: what is special in it stands for itself
among others. -/
theorem matchTokens_self {text : List UInt8} (hclass : 91 ∉ text) (hescape : 92 ∉ text) {n : Nat}
    (hn : text.length ≤ n) : matchTokens (tokens n text) text = true := by
  induction text generalizing n with
  | nil => cases n <;> rfl
  | cons b rest ih =>
      obtain ⟨n, rfl⟩ : ∃ m, n = m + 1 := Nat.exists_eq_succ_of_ne_zero (by
        rintro rfl
        cases hn)
      rw [List.mem_cons, not_or] at hclass hescape
      have hrest : matchTokens (tokens n rest) rest = true :=
        ih hclass.2 hescape.2 (Nat.le_of_succ_le_succ hn)
      by_cases hstar : b = 42
      · subst hstar
        exact matchTokens_star_append hrest [42]
      · by_cases hany : b = 63
        · subst hany
          exact hrest
        · have hplain : special b = false := by
            simp only [special, hstar, hany, Ne.symm hclass.1, Ne.symm hescape.1, decide_false, Bool.or_self]
          rw [tokens_cons_of_plain hplain]
          simp only [matchTokens, Token.admits, decide_true, Bool.true_and]
          exact hrest

/-- **One star between two texts**: whatever stands between them is accepted. -/
theorem accepts_star {lit rest : String} (hlit : ∀ b ∈ Utf8.encode lit, special b = false)
    (hclass : '[' ∉ rest.toList) (hescape : '\\' ∉ rest.toList) (mid : String) :
    accepts (lit ++ "*" ++ rest) (lit ++ mid ++ rest) = true := by
  have hbracket : 91 ∉ Utf8.encode rest := by
    intro h
    obtain ⟨c, hc, hcode⟩ := Utf8.exists_mem_of_mem_encode h (by decide)
    have hchar : c = '[' := Char.toNat_inj.mp hcode
    exact hclass (hchar ▸ hc)
  have hbackslash : 92 ∉ Utf8.encode rest := by
    intro h
    obtain ⟨c, hc, hcode⟩ := Utf8.exists_mem_of_mem_encode h (by decide)
    have hchar : c = '\\' := Char.toNat_inj.mp hcode
    exact hescape (hchar ▸ hc)
  have hstar : Utf8.encode "*" = [42] := by decide +kernel
  unfold accepts matchBytes
  simp only [Utf8.encode_append, hstar, List.append_assoc, List.length_append]
  rw [matchTokens_literal hlit]
  have hlength : [(42 : UInt8)].length + (Utf8.encode rest).length = (Utf8.encode rest).length + 1 :=
    Nat.add_comm _ _
  rw [hlength]
  exact matchTokens_star_append (matchTokens_self hbracket hbackslash (Nat.le_refl _)) _

example : accepts "stock:*:product-[ab]?" "stock:tokyo:product-b2" = true := by decide +kernel

end Glob
