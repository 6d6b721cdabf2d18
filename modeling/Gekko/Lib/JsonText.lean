import Mathlib.Algebra.Order.Field.Rat
import Mathlib.Data.List.DropRight
import Mathlib.Data.Nat.Digits.Lemmas
import Gekko.Lib.Json


/-! # `Gekko.Lib.JsonText` — JSON values as text

`loads` reads a text as a JSON value. It is strict about control characters, and pairs of escaped
surrogates are one character.

Writers differ in what they escape, in how, and in the blanks behind commas and colons. `Style` has
these as parameters, and `Style.Readable` is what is asked of the escapes: each is read as its
character. `loads_object` is the round trip for a flat object: whatever the strings in it contain, the
text is read as the members that were written, and nothing in it ends the line.

## Contents
- `char?`, `string`, `number`, `value` — the reader, by what it reads next.
- `escapeUnicode`, `letter` — the escapes of which the writers make their choice.
- `Field`, `Style.object` — the writer.
-/

namespace JsonText

/-! ## Reading -/

def isSpace (c : Char) : Bool := c == ' ' || c == '\t' || c == '\n' || c == '\r'

def skip (cs : List Char) : List Char := cs.dropWhile isSpace

/-- The value of a hexadecimal digit of either case. -/
def hexValue? (c : Char) : Option Nat :=
  if '0' ≤ c ∧ c ≤ '9' then some (c.toNat - 48)
  else if 'a' ≤ c ∧ c ≤ 'f' then some (c.toNat - 87)
  else if 'A' ≤ c ∧ c ≤ 'F' then some (c.toNat - 55)
  else none

/-- Four hexadecimal digits. -/
def unit? : List Char → Option (Nat × List Char)
  | a :: b :: c :: d :: rest =>
      match hexValue? a, hexValue? b, hexValue? c, hexValue? d with
      | some a, some b, some c, some d => some (((a * 16 + b) * 16 + c) * 16 + d, rest)
      | _, _, _, _ => none
  | _ => none

/-- The second half of a surrogate pair. -/
def lowHalf? : List Char → Option (Nat × List Char)
  | '\\' :: 'u' :: rest => (unit? rest).filter fun m => 0xDC00 ≤ m.1 ∧ m.1 < 0xE000
  | _ => none

/-- Behind `\u`. A lone surrogate is no character. -/
def unicode? (cs : List Char) : Option (Char × List Char) :=
  (unit? cs).bind fun n =>
    if n.1 < 0xD800 ∨ 0xE000 ≤ n.1 then some (Char.ofNat n.1, n.2)
    else if n.1 < 0xDC00 then
      (lowHalf? n.2).map fun m => (Char.ofNat (0x10000 + (n.1 - 0xD800) * 0x400 + (m.1 - 0xDC00)), m.2)
    else none

/-- The letter behind a backslash. -/
def short? (e : Char) : Option Char :=
  match e with
  | '"' => some '"'
  | '\\' => some '\\'
  | '/' => some '/'
  | 'b' => some (Char.ofNat 8)
  | 'f' => some (Char.ofNat 12)
  | 'n' => some '\n'
  | 'r' => some '\r'
  | 't' => some '\t'
  | _ => none

/-- One character of a string, which may be escaped. -/
def char? : List Char → Option (Char × List Char)
  | [] => none
  | '\\' :: 'u' :: rest => unicode? rest
  | '\\' :: e :: rest => (short? e).map fun c => (c, rest)
  | c :: rest => if c = '"' ∨ c = '\\' ∨ c.toNat < 32 then none else some (c, rest)

/-- The rest of a string, behind its opening quote. -/
def string : Nat → List Char → Option (List Char × List Char)
  | 0, _ => none
  | n + 1, cs =>
      if cs.head? = some '"' then some ([], cs.tail)
      else (char? cs).bind fun c => (string n c.2).map fun s => (c.1 :: s.1, s.2)

def isDigit (c : Char) : Bool := '0' ≤ c && c ≤ '9'

/-- The number that a run of digits stands for. -/
def natValue (ds : List Char) : Nat := ds.foldl (fun n d => n * 10 + (d.toNat - 48)) 0

/-- `(\.\d+)?` -/
def fraction (cs : List Char) : Rat × List Char :=
  let ds := cs.tail.takeWhile isDigit
  if cs.head? = some '.' ∧ ds ≠ [] then
    (natValue ds / (10 : Rat) ^ ds.length, cs.tail.drop ds.length)
  else (0, cs)

/-- `([eE][-+]?\d+)?` -/
def exponent (cs : List Char) : Rat × List Char :=
  let signed := cs.tail
  let unsigned := if signed.head? = some '-' ∨ signed.head? = some '+' then signed.tail else signed
  let ds := unsigned.takeWhile isDigit
  if (cs.head? = some 'e' ∨ cs.head? = some 'E') ∧ ds ≠ [] then
    let power := (10 : Rat) ^ natValue ds
    (if signed.head? = some '-' then power⁻¹ else power, unsigned.drop ds.length)
  else (1, cs)

/-- `-?(0|[1-9]\d*)` and the two above. -/
def number (cs : List Char) : Option (Rat × List Char) :=
  let unsigned := if cs.head? = some '-' then cs.tail else cs
  let ds := unsigned.takeWhile isDigit
  if ds = [] ∨ (ds.head? = some '0' ∧ ds ≠ ['0']) then none
  else
    let f := fraction (unsigned.drop ds.length)
    let e := exponent f.2
    let magnitude := (natValue ds + f.1) * e.1
    some (if cs.head? = some '-' then -magnitude else magnitude, e.2)

/-- The words of the grammar. -/
def word? (cs : List Char) : Option (Json × List Char) :=
  match cs with
  | 'n' :: 'u' :: 'l' :: 'l' :: rest => some (.null, rest)
  | 't' :: 'r' :: 'u' :: 'e' :: rest => some (.bool true, rest)
  | 'f' :: 'a' :: 'l' :: 's' :: 'e' :: rest => some (.bool false, rest)
  | _ => none

mutual

/-- A value; blanks in front of it are skipped. The first argument bounds the depth. -/
def value : Nat → List Char → Option (Json × List Char)
  | 0, _ => none
  | n + 1, cs =>
      let cs := skip cs
      if cs.head? = some '"' then
        (string cs.length cs.tail).map fun s => (.str (String.ofList s.1), s.2)
      else if cs.head? = some '{' then
        let rest := skip cs.tail
        if rest.head? = some '}' then some (.obj [], rest.tail)
        else (members n rest).map fun m => (.obj m.1, m.2)
      else if cs.head? = some '[' then
        let rest := skip cs.tail
        if rest.head? = some ']' then some (.arr [], rest.tail)
        else (elements n rest).map fun e => (.arr e.1, e.2)
      else (word? cs).or ((number cs).map fun m => (.num m.1, m.2))

/-- Members up to the closing brace; there is at least one. -/
def members : Nat → List Char → Option (List (String × Json) × List Char)
  | 0, _ => none
  | n + 1, cs =>
      let cs := skip cs
      if cs.head? = some '"' then
        (string cs.length cs.tail).bind fun name =>
          let rest := skip name.2
          if rest.head? = some ':' then
            (value n rest.tail).bind fun v =>
              let rest := skip v.2
              if rest.head? = some ',' then
                (members n rest.tail).map fun m => ((String.ofList name.1, v.1) :: m.1, m.2)
              else if rest.head? = some '}' then some ([(String.ofList name.1, v.1)], rest.tail)
              else none
          else none
      else none

/-- Elements up to the closing bracket; there is at least one. -/
def elements : Nat → List Char → Option (List Json × List Char)
  | 0, _ => none
  | n + 1, cs =>
      (value n cs).bind fun v =>
        let rest := skip v.2
        if rest.head? = some ',' then (elements n rest.tail).map fun e => (v.1 :: e.1, e.2)
        else if rest.head? = some ']' then some ([v.1], rest.tail)
        else none

end

/-- The value that a text stands for. -/
def loads (text : List Char) : Option Json :=
  (value (text.length + 1) text).bind fun v => if skip v.2 = [] then some v.1 else none

/-! ## Escapes -/

/-- A hexadecimal digit, in lower case. -/
def hexDigit (n : Nat) : Char := Char.ofNat (if n < 10 then 48 + n else 87 + n)

/-- `\uXXXX`. -/
def escapeUnit (digit : Nat → Char) (n : Nat) : List Char :=
  ['\\', 'u', digit (n / 4096 % 16), digit (n / 256 % 16), digit (n / 16 % 16), digit (n % 16)]

/-- A character by its UTF-16 units. -/
def escapeUnicode (digit : Nat → Char) (c : Char) : List Char :=
  if c.toNat < 0x10000 then escapeUnit digit c.toNat
  else
    escapeUnit digit (0xD800 + (c.toNat - 0x10000) / 0x400) ++
      escapeUnit digit (0xDC00 + (c.toNat - 0x10000) % 0x400)

/-- The letter of a short escape. -/
def letter (c : Char) : Char :=
  if c = '\n' then 'n' else if c = '\r' then 'r' else if c = '\t' then 't' else if c.toNat = 8 then 'b'
  else if c.toNat = 12 then 'f' else c

section Escapes

variable {c : Char} {rest : List Char} {n : Nat} {digit : Nat → Char}

theorem hexValue?_hexDigit : ∀ n < 16, hexValue? (hexDigit n) = some n := by decide

theorem unit?_escapeUnit (hdigit : ∀ n < 16, hexValue? (digit n) = some n) (h : n < 65536) :
    unit? ((escapeUnit digit n).drop 2 ++ rest) = some (n, rest) := by
  have hmod : ∀ m : Nat, hexValue? (digit (m % 16)) = some (m % 16) :=
    fun m => hdigit _ (Nat.mod_lt m (by decide))
  have hsum : ((n / 4096 % 16 * 16 + n / 256 % 16) * 16 + n / 16 % 16) * 16 + n % 16 = n := by omega
  show unit? (digit (n / 4096 % 16) :: digit (n / 256 % 16) :: digit (n / 16 % 16) ::
               digit (n % 16) :: rest) = _
  unfold unit?
  simp only [hmod, hsum]

/-- A character is no surrogate. -/
theorem toNat_bounds (c : Char) : (c.toNat < 0xD800 ∨ 0xE000 ≤ c.toNat) ∧ c.toNat < 0x110000 := by
  have hvalid : c.toNat.isValidChar := c.valid
  unfold Nat.isValidChar at hvalid
  omega

theorem char?_escapeUnit (digit : Nat → Char) (n : Nat) (rest : List Char) :
    char? (escapeUnit digit n ++ rest) = unicode? ((escapeUnit digit n).drop 2 ++ rest) := rfl

theorem lowHalf?_escapeUnit (hdigit : ∀ n < 16, hexValue? (digit n) = some n) (h : n < 65536)
    (hlow : 0xDC00 ≤ n ∧ n < 0xE000) : lowHalf? (escapeUnit digit n ++ rest) = some (n, rest) := by
  have hunfold : lowHalf? (escapeUnit digit n ++ rest) =
      (unit? ((escapeUnit digit n).drop 2 ++ rest)).filter fun m => 0xDC00 ≤ m.1 ∧ m.1 < 0xE000 := rfl
  rw [hunfold, unit?_escapeUnit hdigit h, Option.filter_some, if_pos (decide_eq_true hlow)]

/-- **An escaped character is read as itself.** -/
theorem char?_escapeUnicode (hdigit : ∀ n < 16, hexValue? (digit n) = some n) (c : Char) (rest : List Char) :
    char? (escapeUnicode digit c ++ rest) = some (c, rest) := by
  obtain ⟨hsurrogate, hmax⟩ := toNat_bounds c
  unfold escapeUnicode
  split
  · rename_i hbmp
    rw [char?_escapeUnit]
    unfold unicode?
    rw [unit?_escapeUnit hdigit hbmp, Option.bind_some, if_pos hsurrogate, Char.ofNat_toNat]
  · -- Two units, of which the first is a high surrogate and the second a low one.
    have hhigh : 0xD800 + (c.toNat - 0x10000) / 0x400 < 65536 := by omega
    have hlow : 0xDC00 + (c.toNat - 0x10000) % 0x400 < 65536 := by omega
    have hpair : 0xDC00 ≤ 0xDC00 + (c.toNat - 0x10000) % 0x400 ∧
        0xDC00 + (c.toNat - 0x10000) % 0x400 < 0xE000 := by omega
    rw [List.append_assoc, char?_escapeUnit]
    unfold unicode?
    rw [unit?_escapeUnit hdigit hhigh, Option.bind_some, if_neg (by omega), if_pos (by omega)]
    have hsum : 0x10000 + (0xD800 + (c.toNat - 0x10000) / 0x400 - 0xD800) * 0x400 +
        (0xDC00 + (c.toNat - 0x10000) % 0x400 - 0xDC00) = c.toNat := by omega
    rw [lowHalf?_escapeUnit hdigit hlow hpair, Option.map_some, hsum, Char.ofNat_toNat]

/-- A character that stands for itself. -/
theorem char?_plain (hquote : c ≠ '"') (hbackslash : c ≠ '\\') (hcontrol : 32 ≤ c.toNat) :
    char? (c :: rest) = some (c, rest) := by
  unfold char?
  split
  · rename_i heq
    cases heq
  · rename_i heq
    cases heq
    exact absurd rfl hbackslash
  · rename_i heq
    cases heq
    exact absurd rfl hbackslash
  · rename_i heq
    cases heq
    rw [if_neg]
    rintro (h | h | h)
    · exact hquote h
    · exact hbackslash h
    · omega

theorem char?_short {e : Char} (h : short? e = some c) : char? ('\\' :: e :: rest) = some (c, rest) := by
  have hne : e ≠ 'u' := by
    rintro rfl
    cases h
  unfold char?
  split
  · rename_i heq
    cases heq
  · rename_i heq
    cases heq
    exact absurd rfl hne
  · rename_i heq
    cases heq
    rw [h, Option.map_some]
  · rename_i hno heq
    cases heq
    exact absurd rfl (hno e rest rfl)

end Escapes

/-! ## Writing -/

/-- How a writer spells JSON. -/
structure Style where
  /-- The characters with a short escape. -/
  short : Char → Bool
  /-- The other ones that are escaped by their units. -/
  unit : Char → Bool
  digit : Nat → Char
  afterComma : List Char
  afterColon : List Char

/-- The members of a flat object. -/
inductive Field where
  | text (s : String)
  | int (n : Int)
  | null
  | texts (ss : List String)
  deriving DecidableEq, Repr

def Field.toJson : Field → Json
  | .text s => .str s
  | .int n => .num n
  | .null => .null
  | .texts ss => .arr (ss.map .str)

/-- Decimal digits. -/
def digits (n : Nat) : List Char :=
  if n = 0 then ['0'] else (Nat.digits 10 n).reverse.map fun d => Char.ofNat (48 + d)

def integer (n : Int) : List Char := if n < 0 then '-' :: digits n.natAbs else digits n.natAbs

namespace Style

variable (p : Style)

def escape (c : Char) : List Char :=
  if p.short c then ['\\', letter c] else if p.unit c then escapeUnicode p.digit c else [c]

def quote (s : String) : List Char := '"' :: (s.toList.flatMap p.escape ++ ['"'])

/-- Items with commas between them. -/
def commas : List (List Char) → List Char
  | [] => []
  | [item] => item
  | item :: items => item ++ ',' :: (p.afterComma ++ commas items)

def field : Field → List Char
  | .text s => p.quote s
  | .int n => integer n
  | .null => ['n', 'u', 'l', 'l']
  | .texts ss => '[' :: (p.commas (ss.map p.quote) ++ [']'])

def member (m : String × Field) : List Char := p.quote m.1 ++ ':' :: (p.afterColon ++ p.field m.2)

def object (ms : List (String × Field)) : List Char := '{' :: (p.commas (ms.map p.member) ++ ['}'])

/-- The escapes are read as their characters, nothing that must be escaped is left, and blanks are blanks. -/
structure Readable : Prop where
  quotes : p.short '"' = true ∧ p.short '\\' = true
  letters : ∀ c, p.short c = true → short? (letter c) = some c
  controls : ∀ c : Char, c.toNat < 32 → p.short c = true ∨ p.unit c = true
  digits : ∀ n < 16, hexValue? (p.digit n) = some n
  blanks : ∀ c ∈ p.afterComma ++ p.afterColon, c = ' '

end Style

/-! ## The round trip -/

section Numbers

variable {n : Nat} {rest : List Char}

theorem isDigit_ofNat {d : Nat} (h : d < 10) :
    isDigit (Char.ofNat (48 + d)) = true ∧ (Char.ofNat (48 + d)).toNat - 48 = d ∧
    (Char.ofNat (48 + d) = '0' → d = 0) := by
  have hall : ∀ d < 10, isDigit (Char.ofNat (48 + d)) = true ∧ (Char.ofNat (48 + d)).toNat - 48 = d ∧
      (Char.ofNat (48 + d) = '0' → d = 0) := by decide
  exact hall d h

theorem natValue_append (ds : List Char) (d : Char) :
    natValue (ds ++ [d]) = natValue ds * 10 + (d.toNat - 48) := by
  unfold natValue
  rw [List.foldl_append]
  rfl

/-- Digits, the least significant one first. -/
theorem natValue_reverse {ds : List Nat} (h : ∀ d ∈ ds, d < 10) :
    natValue (ds.reverse.map fun d => Char.ofNat (48 + d)) = Nat.ofDigits 10 ds := by
  induction ds with
  | nil => rfl
  | cons d ds ih =>
      have hd := (isDigit_ofNat (h d List.mem_cons_self)).2.1
      rw [List.reverse_cons, List.map_append, List.map_singleton, natValue_append,
        ih fun e he => h e (List.mem_cons_of_mem _ he), hd, Nat.ofDigits_cons]
      omega

theorem natValue_digits (n : Nat) : natValue (digits n) = n := by
  unfold digits
  split
  · rename_i hn
    rw [hn]
    rfl
  · rw [natValue_reverse fun d hd => Nat.digits_lt_base (by decide) hd, Nat.ofDigits_digits]

theorem isDigit_of_mem_digits {c : Char} (h : c ∈ digits n) : isDigit c = true := by
  unfold digits at h
  split at h
  · rw [List.mem_singleton.mp h]
    rfl
  · obtain ⟨d, hd, rfl⟩ := List.mem_map.mp h
    exact (isDigit_ofNat (Nat.digits_lt_base (by decide) (List.mem_reverse.mp hd))).1

/-- No number has a zero in front of other digits. -/
theorem head_digits (n : Nat) : digits n ≠ [] ∧ ((digits n).head? = some '0' → digits n = ['0']) := by
  unfold digits
  split
  · exact ⟨by simp, fun _ => rfl⟩
  · rename_i hn
    have hne : Nat.digits 10 n ≠ [] := Nat.digits_ne_nil_iff_ne_zero.mpr hn
    refine ⟨by simpa using hne, fun hhead => ?_⟩
    rw [List.head?_map, List.head?_reverse, List.getLast?_eq_some_getLast hne,
      Option.map_some, Option.some.injEq] at hhead
    have hlt : (Nat.digits 10 n).getLast hne < 10 := Nat.digits_lt_base (by decide) (List.getLast_mem hne)
    exact absurd ((isDigit_ofNat hlt).2.2 hhead) (Nat.getLast_digit_ne_zero 10 hn)

/-- What can stand behind a value: nothing of a number. -/
def Stops (rest : List Char) : Prop :=
  ∀ c, rest.head? = some c → isDigit c = false ∧ c ≠ '.' ∧ c ≠ 'e' ∧ c ≠ 'E'

theorem takeWhile_digits (hrest : Stops rest) : (digits n ++ rest).takeWhile isDigit = digits n := by
  rw [List.takeWhile_append_of_pos fun c hc => isDigit_of_mem_digits hc]
  cases rest with
  | nil => rw [List.takeWhile_nil, List.append_nil]
  | cons c rest =>
      rw [List.takeWhile_cons_of_neg, List.append_nil]
      rw [(hrest c rfl).1]
      exact Bool.false_ne_true

theorem fraction_of_stops (hrest : Stops rest) : fraction rest = (0, rest) := by
  unfold fraction
  rw [if_neg]
  rintro ⟨hhead, -⟩
  exact (hrest _ hhead).2.1 rfl

theorem exponent_of_stops (hrest : Stops rest) : exponent rest = (1, rest) := by
  unfold exponent
  simp only
  rw [if_neg]
  rintro ⟨hhead | hhead, -⟩
  · exact (hrest _ hhead).2.2.1 rfl
  · exact (hrest _ hhead).2.2.2 rfl

theorem head_digits_ne_minus (n : Nat) (rest : List Char) : (digits n ++ rest).head? ≠ some '-' := by
  have hne := (head_digits n).1
  intro hhead
  cases hds : digits n with
  | nil => exact hne hds
  | cons d ds =>
      rw [hds, List.cons_append, List.head?_cons, Option.some.injEq] at hhead
      have hdigit : isDigit d = true := isDigit_of_mem_digits (hds ▸ List.mem_cons_self)
      rw [hhead] at hdigit
      revert hdigit
      decide

/-- **An integer is read as it was written.** -/
theorem number_integer (n : Int) (hrest : Stops rest) :
    number (integer n ++ rest) = some ((n : Rat), rest) := by
  have hzero : ∀ m : Nat, ¬ (digits m = [] ∨ ((digits m).head? = some '0' ∧ digits m ≠ ['0'])) := by
    intro m h
    obtain ⟨hne, hhead⟩ := head_digits m
    rcases h with h | ⟨h, h'⟩
    · exact hne h
    · exact h' (hhead h)
  unfold number integer
  by_cases hneg : n < 0
  · have habs : ((n.natAbs : Nat) : Rat) = -(n : Rat) := by
      rw [← Int.cast_natCast, show (n.natAbs : Int) = -n by omega, Int.cast_neg]
    simp only [if_pos hneg, List.cons_append, List.head?_cons, if_true, List.tail_cons,
      takeWhile_digits hrest, if_neg (hzero _), List.drop_left, fraction_of_stops hrest,
      exponent_of_stops hrest, natValue_digits, habs]
    rw [add_zero, mul_one, neg_neg]
  · have habs : ((n.natAbs : Nat) : Rat) = (n : Rat) := by
      rw [← Int.cast_natCast, show (n.natAbs : Int) = n by omega]
    simp only [if_neg hneg, if_neg (head_digits_ne_minus _ _), takeWhile_digits hrest, if_neg (hzero _),
      List.drop_left, fraction_of_stops hrest, exponent_of_stops hrest, natValue_digits, habs]
    rw [add_zero, mul_one]

end Numbers

/-! ### Blanks -/

theorem skip_blanks {blanks : List Char} (h : ∀ c ∈ blanks, c = ' ') (cs : List Char) :
    skip (blanks ++ cs) = skip cs := by
  unfold skip
  apply List.dropWhile_append_of_pos
  intro c hc
  rw [h c hc]
  rfl

theorem skip_of_head {cs : List Char} (h : ∀ c, cs.head? = some c → isSpace c = false) : skip cs = cs := by
  cases cs with
  | nil => rfl
  | cons c cs =>
      apply List.dropWhile_cons_of_neg
      rw [h c rfl]
      exact Bool.false_ne_true

theorem skip_skip (cs : List Char) : skip (skip cs) = skip cs := List.dropWhile_idempotent isSpace cs

theorem value_skip (n : Nat) (cs : List Char) : value n (skip cs) = value n cs := by
  cases n with
  | zero => rfl
  | succ n => simp only [value, skip_skip]

theorem members_skip (n : Nat) (cs : List Char) : members n (skip cs) = members n cs := by
  cases n with
  | zero => rfl
  | succ n => simp only [members, skip_skip]

theorem elements_skip (n : Nat) (cs : List Char) : elements n (skip cs) = elements n cs := by
  cases n with
  | zero => rfl
  | succ n => simp only [elements, value_skip]

section Blanks

variable {blanks : List Char} (h : ∀ c ∈ blanks, c = ' ') (n : Nat) (cs : List Char)

include h

theorem value_blanks : value n (blanks ++ cs) = value n cs := by
  rw [← value_skip, skip_blanks h, value_skip]

theorem members_blanks : members n (blanks ++ cs) = members n cs := by
  rw [← members_skip, skip_blanks h, members_skip]

theorem elements_blanks : elements n (blanks ++ cs) = elements n cs := by
  rw [← elements_skip, skip_blanks h, elements_skip]

end Blanks

/-! ### Strings -/

namespace Style

variable {p : Style} {rest : List Char} {n : Nat}

theorem char?_escape (hp : p.Readable) (c : Char) (rest : List Char) :
    char? (p.escape c ++ rest) = some (c, rest) := by
  unfold escape
  split
  · rename_i hshort
    exact char?_short (hp.letters c hshort)
  · rename_i hshort
    split
    · exact char?_escapeUnicode hp.digits c rest
    · rename_i hunit
      apply char?_plain
      · rintro rfl
        exact hshort hp.quotes.1
      · rintro rfl
        exact hshort hp.quotes.2
      · by_contra hlt
        rcases hp.controls c (by omega) with h | h
        · exact hshort h
        · exact hunit h

theorem head_escapeUnicode (digit : Nat → Char) (c : Char) (rest : List Char) :
    (escapeUnicode digit c ++ rest).head? = some '\\' := by
  unfold escapeUnicode
  split <;> rfl

/-- No escape begins with the quote that would end the string. -/
theorem head_escape (hp : p.Readable) (c : Char) (rest : List Char) :
    (p.escape c ++ rest).head? ≠ some '"' := by
  unfold escape
  split
  · show some '\\' ≠ some '"'
    decide
  · rename_i hshort
    split
    · rw [head_escapeUnicode]
      decide
    · intro h
      cases h
      exact hshort hp.quotes.1

theorem string_quote (hp : p.Readable) (cs rest : List Char) (hn : cs.length < n) :
    string n (cs.flatMap p.escape ++ '"' :: rest) = some (cs, rest) := by
  induction cs generalizing n with
  | nil =>
      cases n with
      | zero => exact absurd hn (Nat.not_lt_zero _)
      | succ n => rfl
  | cons c cs ih =>
      cases n with
      | zero => exact absurd hn (Nat.not_lt_zero _)
      | succ n =>
          rw [List.flatMap_cons, List.append_assoc, string, if_neg (head_escape hp c _), char?_escape hp,
            Option.bind_some, ih (Nat.lt_of_succ_lt_succ hn), Option.map_some]

theorem length_escape_pos (p : Style) (c : Char) : 1 ≤ (p.escape c).length := by
  unfold escape escapeUnicode escapeUnit
  split
  · exact Nat.le_add_left 1 1
  · split
    · split <;> simp
    · exact Nat.le_refl 1

theorem length_le_flatMap (p : Style) (cs : List Char) : cs.length ≤ (cs.flatMap p.escape).length := by
  induction cs with
  | nil => exact Nat.le_refl _
  | cons c cs ih =>
      have hc := length_escape_pos p c
      rw [List.flatMap_cons, List.length_append, List.length_cons]
      omega

/-- **A quoted string is read as itself, whatever it contains.** -/
theorem string_of_quote (hp : p.Readable) (s : String) (rest : List Char) :
    string (p.quote s ++ rest).length (p.quote s ++ rest).tail = some (s.toList, rest) := by
  have hshape : (p.quote s ++ rest).tail = s.toList.flatMap p.escape ++ '"' :: rest := by
    show (s.toList.flatMap p.escape ++ ['"']) ++ rest = _
    rw [List.append_assoc]
    rfl
  have hlength : s.toList.length < (p.quote s ++ rest).length := by
    have h := length_le_flatMap p s.toList
    show _ < (s.toList.flatMap p.escape ++ ['"'] ++ rest).length + 1
    simp only [List.length_append]
    omega
  rw [hshape]
  exact string_quote hp s.toList rest hlength

/-! ### Values -/

/-- What the reader needs for a value. -/
def cost : Field → Nat
  | .texts ss => ss.length + 2
  | _ => 1

theorem cost_pos (f : Field) : 1 ≤ cost f := by
  cases f <;> exact Nat.le_add_left 1 _

theorem value_text (hp : p.Readable) (s : String) (n : Nat) (rest : List Char) :
    value (n + 1) (p.quote s ++ rest) = some (.str s, rest) := by
  have hskip : skip (p.quote s ++ rest) = p.quote s ++ rest := rfl
  have hhead : (p.quote s ++ rest).head? = some '"' := rfl
  simp only [value, hskip, hhead, if_true, string_of_quote hp, Option.map_some, String.ofList_toList]

theorem Readable.comma (hp : p.Readable) : ∀ c ∈ p.afterComma, c = ' ' := fun c hc =>
  hp.blanks c (List.mem_append_left _ hc)

theorem Readable.colon (hp : p.Readable) : ∀ c ∈ p.afterColon, c = ' ' := fun c hc =>
  hp.blanks c (List.mem_append_right _ hc)

theorem elements_texts (hp : p.Readable) (s : String) (ss : List String) (hn : ss.length + 2 ≤ n)
    (rest : List Char) :
    elements n (p.commas ((s :: ss).map p.quote) ++ ']' :: rest) = some ((s :: ss).map Json.str, rest) := by
  obtain ⟨n, rfl⟩ : ∃ m, n = m + 2 := ⟨n - 2, by omega⟩
  induction ss generalizing s n with
  | nil =>
      have hskip : skip (']' :: rest) = ']' :: rest := rfl
      show elements (n + 2) (p.quote s ++ ']' :: rest) = _
      simp only [elements, value_text hp, Option.bind_some, hskip]
      rfl
  | cons s' ss ih =>
      obtain ⟨n, rfl⟩ : ∃ m, n = m + 1 := ⟨n - 1, by rw [List.length_cons] at hn; omega⟩
      have hshape : p.commas ((s :: s' :: ss).map p.quote) ++ ']' :: rest =
          p.quote s ++ ',' :: (p.afterComma ++ (p.commas ((s' :: ss).map p.quote) ++ ']' :: rest)) := by
        show (p.quote s ++ ',' :: (p.afterComma ++ p.commas ((s' :: ss).map p.quote))) ++ ']' :: rest = _
        simp only [List.append_assoc, List.cons_append]
      have hskip : ∀ cs, skip (',' :: cs) = ',' :: cs := fun _ => rfl
      rw [hshape, elements, value_text hp, Option.bind_some]
      simp only [hskip, List.head?_cons, if_true, List.tail_cons]
      rw [elements_blanks hp.comma, ih s' n (by rw [List.length_cons] at hn; omega), Option.map_some]
      rfl

/-- An integer begins with its sign or a digit. -/
theorem integer_cons (m : Int) : ∃ c cs, integer m = c :: cs ∧ (c = '-' ∨ isDigit c = true) := by
  have hdigits : ∀ k : Nat, ∃ c cs, digits k = c :: cs ∧ isDigit c = true := by
    intro k
    cases h : digits k with
    | nil => exact absurd h (head_digits k).1
    | cons c cs => exact ⟨c, cs, rfl, isDigit_of_mem_digits (h ▸ List.mem_cons_self)⟩
  unfold integer
  split
  · exact ⟨'-', _, rfl, .inl rfl⟩
  · obtain ⟨c, cs, h, hc⟩ := hdigits m.natAbs
    exact ⟨c, cs, h, .inr hc⟩

theorem value_integer (m : Int) (hrest : Stops rest) :
    value (n + 1) (integer m ++ rest) = some (.num m, rest) := by
  obtain ⟨c, cs, hcons, hc⟩ := integer_cons m
  have hnumber := number_integer m hrest
  rw [hcons, List.cons_append] at hnumber ⊢
  have hother : ∀ c' : Char, (c' = '-' ∨ isDigit c' = true → False) → c ≠ c' := by
    rintro c' hno rfl
    exact hno hc
  have hspace : isSpace c = false := by
    unfold isSpace
    simp only [Bool.or_eq_false_iff, beq_eq_false_iff_ne]
    exact ⟨⟨⟨hother _ (by decide), hother _ (by decide)⟩, hother _ (by decide)⟩, hother _ (by decide)⟩
  have hskip : skip (c :: (cs ++ rest)) = c :: (cs ++ rest) := by
    apply skip_of_head
    rintro _ ⟨⟩
    exact hspace
  have hword : word? (c :: (cs ++ rest)) = none := by
    unfold word?
    split
    · rename_i heq
      exact absurd (List.cons.inj heq).1 (hother _ (by decide))
    · rename_i heq
      exact absurd (List.cons.inj heq).1 (hother _ (by decide))
    · rename_i heq
      exact absurd (List.cons.inj heq).1 (hother _ (by decide))
    · rfl
  have hhead : ∀ c' : Char, (c' = '-' ∨ isDigit c' = true → False) →
      ¬ (c :: (cs ++ rest)).head? = some c' := by
    intro c' hno h
    exact hother c' hno (Option.some.inj h)
  simp only [value, hskip, if_neg (hhead '"' (by decide)), if_neg (hhead '{' (by decide)),
    if_neg (hhead '[' (by decide)), hword, hnumber, Option.map_some, Option.none_or]

/-- **Every value is read as itself.** -/
theorem value_field (hp : p.Readable) (f : Field) (hrest : Stops rest) (hn : cost f ≤ n) :
    value n (p.field f ++ rest) = some (f.toJson, rest) := by
  obtain ⟨n, rfl⟩ : ∃ m, n = m + 1 := ⟨n - 1, by have := cost_pos f; omega⟩
  cases f with
  | text s => exact value_text hp s n rest
  | int m => exact value_integer m hrest
  | null => rfl
  | texts ss =>
      cases ss with
      | nil => rfl
      | cons s ss =>
          have hshape : p.field (.texts (s :: ss)) ++ rest =
              '[' :: (p.commas ((s :: ss).map p.quote) ++ ']' :: rest) := by
            show '[' :: (p.commas ((s :: ss).map p.quote) ++ [']'] ++ rest) = _
            rw [List.append_assoc]
            rfl
          have hquote : ∃ cs, p.commas ((s :: ss).map p.quote) ++ ']' :: rest = '"' :: cs := by
            cases ss with
            | nil => exact ⟨_, rfl⟩
            | cons s' ss => exact ⟨_, rfl⟩
          have hlength : ss.length + 1 + 2 ≤ n + 1 := hn
          have helements := elements_texts hp s ss (Nat.le_of_succ_le_succ hlength) rest
          obtain ⟨cs, hcs⟩ := hquote
          rw [hcs] at helements hshape
          have hskip : skip ('[' :: '"' :: cs) = '[' :: '"' :: cs := rfl
          have hskip' : skip ('"' :: cs) = '"' :: cs := rfl
          rw [hshape, value]
          simp only [hskip, hskip', List.head?_cons, List.tail_cons, helements, Option.map_some]
          rfl

theorem length_commas_le {a : Type} (item : a → List Char) (xs : List a) (h : ∀ x, 1 ≤ (item x).length) :
    xs.length ≤ (p.commas (xs.map item)).length := by
  induction xs with
  | nil => exact Nat.le_refl _
  | cons x xs ih =>
      have hx := h x
      cases xs with
      | nil => exact hx
      | cons x' xs =>
          show xs.length + 1 + 1 ≤ (item x ++ ',' :: (p.afterComma ++ p.commas ((x' :: xs).map item))).length
          rw [List.length_cons] at ih
          simp only [List.length_append, List.length_cons]
          omega

theorem two_le_length_quote (p : Style) (s : String) : 2 ≤ (p.quote s).length := by
  show 2 ≤ (s.toList.flatMap p.escape ++ ['"']).length + 1
  rw [List.length_append, List.length_singleton]
  omega

theorem cost_le_length (p : Style) (f : Field) : cost f ≤ (p.field f).length := by
  cases f with
  | text s =>
      show 1 ≤ (p.quote s).length
      exact Nat.le_trans (by decide) (two_le_length_quote p s)
  | int m =>
      obtain ⟨c, cs, hcons, -⟩ := integer_cons m
      show 1 ≤ (integer m).length
      rw [hcons]
      exact Nat.le_add_left 1 _
  | null => exact Nat.le_add_left 1 3
  | texts ss =>
      have h := length_commas_le (p := p) p.quote ss fun s =>
        Nat.le_trans (by decide) (two_le_length_quote p s)
      show ss.length + 2 ≤ (p.commas (ss.map p.quote) ++ [']']).length + 1
      rw [List.length_append, List.length_singleton]
      omega

/-! ### Objects -/

theorem stops_of_head {cs : List Char} {c : Char} (h : c = ',' ∨ c = '}') : Stops (c :: cs) := by
  rintro _ ⟨⟩
  rcases h with rfl | rfl <;> decide

/-- A member, and what is left of the object. -/
theorem members_member (hp : p.Readable) (m : String × Field) (hrest : Stops rest) (hn : cost m.2 ≤ n) :
    members (n + 1) (p.member m ++ rest) =
      if (skip rest).head? = some ',' then
        (members n (skip rest).tail).map fun ms => ((m.1, m.2.toJson) :: ms.1, ms.2)
      else if (skip rest).head? = some '}' then some ([(m.1, m.2.toJson)], (skip rest).tail)
      else none := by
  have hshape : p.member m ++ rest = p.quote m.1 ++ ':' :: (p.afterColon ++ (p.field m.2 ++ rest)) := by
    unfold member
    simp only [List.append_assoc, List.cons_append]
  have hskip : ∀ cs, skip (p.quote m.1 ++ cs) = p.quote m.1 ++ cs := fun _ => rfl
  have hhead : ∀ cs, (p.quote m.1 ++ cs).head? = some '"' := fun _ => rfl
  have hcolon : ∀ cs, skip (':' :: cs) = ':' :: cs := fun _ => rfl
  rw [hshape, members]
  simp only [hskip, hhead, if_true, string_of_quote hp, Option.bind_some, hcolon, List.head?_cons,
    List.tail_cons, String.ofList_toList]
  rw [value_blanks hp.colon, value_field hp m.2 hrest hn, Option.bind_some]

theorem members_commas (hp : p.Readable) (m : String × Field) (ms : List (String × Field))
    (hn : (p.commas ((m :: ms).map p.member)).length ≤ n) (rest : List Char) :
    members n (p.commas ((m :: ms).map p.member) ++ '}' :: rest) =
      some ((m :: ms).map fun m => (m.1, m.2.toJson), rest) := by
  induction ms generalizing m n with
  | nil =>
      have hlength : (p.quote m.1).length + ((p.afterColon ++ p.field m.2).length + 1) ≤ n := by
        rw [← List.length_cons, ← List.length_append]
        exact hn
      have hcost := cost_le_length p m.2
      rw [List.length_append] at hlength
      obtain ⟨n, rfl⟩ : ∃ k, n = k + 1 := ⟨n - 1, by omega⟩
      have hskip : skip ('}' :: rest) = '}' :: rest := rfl
      show members (n + 1) (p.member m ++ '}' :: rest) = _
      rw [members_member hp m (stops_of_head (.inr rfl)) (by omega), hskip]
      rfl
  | cons m' ms ih =>
      have hcommas : p.commas ((m :: m' :: ms).map p.member) =
          p.member m ++ ',' :: (p.afterComma ++ p.commas ((m' :: ms).map p.member)) := rfl
      have hlength : (p.member m).length = (p.quote m.1).length +
          ((p.afterColon ++ p.field m.2).length + 1) := by
        rw [← List.length_cons, ← List.length_append]
        rfl
      have hcost := cost_le_length p m.2
      rw [hcommas, List.length_append, List.length_cons, List.length_append,
        hlength, List.length_append] at hn
      obtain ⟨n, rfl⟩ : ∃ k, n = k + 1 := ⟨n - 1, by omega⟩
      have hskip : ∀ cs, skip (',' :: cs) = ',' :: cs := fun _ => rfl
      rw [hcommas, List.append_assoc, List.cons_append, List.append_assoc,
        members_member hp m (stops_of_head (.inl rfl)) (by omega), hskip, List.head?_cons, if_pos rfl,
        List.tail_cons, members_blanks hp.comma, ih m' (by omega), Option.map_some]
      rfl

/-- **An object is read as its members.** -/
theorem loads_object (hp : p.Readable) (ms : List (String × Field)) :
    loads (p.object ms) = some (.obj (ms.map fun m => (m.1, m.2.toJson))) := by
  have hvalue : value ((p.object ms).length + 1) (p.object ms) =
      some (.obj (ms.map fun m => (m.1, m.2.toJson)), []) := by
    cases ms with
    | nil => rfl
    | cons m ms =>
        have hquote : ∃ cs, p.commas ((m :: ms).map p.member) ++ ['}'] = '"' :: cs := by
          cases ms with
          | nil => exact ⟨_, rfl⟩
          | cons m' ms => exact ⟨_, rfl⟩
        obtain ⟨cs, hcs⟩ := hquote
        have hlength : (p.commas ((m :: ms).map p.member)).length ≤ (p.object (m :: ms)).length := by
          show _ ≤ (p.commas ((m :: ms).map p.member) ++ ['}']).length + 1
          rw [List.length_append]
          omega
        have hmembers := members_commas hp m ms hlength []
        have hshape : p.object (m :: ms) = '{' :: '"' :: cs := by
          rw [← hcs]
          rfl
        rw [hcs] at hmembers
        have hskip : skip ('{' :: '"' :: cs) = '{' :: '"' :: cs := rfl
        have hskip' : skip ('"' :: cs) = '"' :: cs := rfl
        rw [value]
        rw [hshape] at hmembers ⊢
        simp only [hskip, hskip', List.head?_cons, List.tail_cons, hmembers, Option.map_some]
        rfl
  unfold loads
  rw [hvalue]
  rfl

/-! ### One line -/

/-- No control character. -/
def OneLine (cs : List Char) : Prop := ∀ c ∈ cs, 32 ≤ c.toNat

theorem oneLine_append {as bs : List Char} (ha : OneLine as) (hb : OneLine bs) : OneLine (as ++ bs) := by
  intro c hc
  rcases List.mem_append.mp hc with h | h
  · exact ha c h
  · exact hb c h

theorem oneLine_cons {c : Char} {cs : List Char} (hc : 32 ≤ c.toNat) (h : OneLine cs) : OneLine (c :: cs) :=
  List.forall_mem_cons.mpr ⟨hc, h⟩

theorem oneLine_blanks {cs : List Char} (h : ∀ c ∈ cs, c = ' ') : OneLine cs := by
  intro c hc
  rw [h c hc]
  decide

theorem oneLine_escapeUnit (hp : p.Readable) (m : Nat) : OneLine (escapeUnit p.digit m) := by
  have hdigit : ∀ k, 32 ≤ (p.digit (k % 16)).toNat := by
    intro k
    by_contra hlt
    have hall : ∀ d < 32, hexValue? (Char.ofNat d) = none := by decide
    have hnone := hall (p.digit (k % 16)).toNat (by omega)
    rw [Char.ofNat_toNat, hp.digits _ (Nat.mod_lt k (by decide))] at hnone
    cases hnone
  intro c hc
  unfold escapeUnit at hc
  simp only [List.mem_cons, List.not_mem_nil, or_false] at hc
  rcases hc with rfl | rfl | rfl | rfl | rfl | rfl
  · decide
  · decide
  · exact hdigit _
  · exact hdigit _
  · exact hdigit _
  · exact hdigit _

theorem oneLine_escape (hp : p.Readable) (c : Char) : OneLine (p.escape c) := by
  have hletter : ∀ e c', short? e = some c' → 32 ≤ e.toNat := by
    intro e c' h
    by_contra hlt
    have hall : ∀ m < 32, short? (Char.ofNat m) = none := by decide
    have hnone := hall e.toNat (by omega)
    rw [Char.ofNat_toNat] at hnone
    rw [hnone] at h
    cases h
  unfold escape
  split
  · rename_i hshort
    exact oneLine_cons (by decide) (oneLine_cons (hletter _ c (hp.letters c hshort)) fun c hc => by cases hc)
  · rename_i hshort
    split
    · unfold escapeUnicode
      split
      · exact oneLine_escapeUnit hp _
      · exact oneLine_append (oneLine_escapeUnit hp _) (oneLine_escapeUnit hp _)
    · rename_i hunit
      intro c' hc'
      rw [List.mem_singleton.mp hc']
      by_contra hlt
      rcases hp.controls c (by omega) with h | h
      · exact hshort h
      · exact hunit h

theorem oneLine_quote (hp : p.Readable) (s : String) : OneLine (p.quote s) := by
  refine oneLine_cons (by decide) (oneLine_append ?_ (oneLine_cons (by decide) fun c hc => by cases hc))
  intro c hc
  obtain ⟨c', -, hc'⟩ := List.mem_flatMap.mp hc
  exact oneLine_escape hp c' c hc'

theorem oneLine_commas (hp : p.Readable) {items : List (List Char)} (h : ∀ item ∈ items, OneLine item) :
    OneLine (p.commas items) := by
  induction items with
  | nil => exact fun c hc => by cases hc
  | cons item items ih =>
      have hitem := h item List.mem_cons_self
      have hitems := ih fun i hi => h i (List.mem_cons_of_mem _ hi)
      cases items with
      | nil => exact hitem
      | cons item' items =>
          exact oneLine_append hitem (oneLine_cons (by decide)
            (oneLine_append (oneLine_blanks hp.comma) hitems))

theorem oneLine_integer (m : Int) : OneLine (integer m) := by
  have hdigit : ∀ c, isDigit c = true → 32 ≤ c.toNat := by
    intro c hc
    by_contra hlt
    have hall : ∀ k < 32, isDigit (Char.ofNat k) = false := by decide
    have hnone := hall c.toNat (by omega)
    rw [Char.ofNat_toNat, hc] at hnone
    cases hnone
  have hdigits : ∀ k, OneLine (digits k) := fun k c hc => hdigit c (isDigit_of_mem_digits hc)
  unfold integer
  split
  · exact oneLine_cons (by decide) (hdigits _)
  · exact hdigits _

theorem oneLine_field (hp : p.Readable) (f : Field) : OneLine (p.field f) := by
  cases f with
  | text s => exact oneLine_quote hp s
  | int m => exact oneLine_integer m
  | null =>
      show ∀ c ∈ ['n', 'u', 'l', 'l'], 32 ≤ c.toNat
      simp
  | texts ss =>
      refine oneLine_cons (by decide) (oneLine_append (oneLine_commas hp ?_)
        (oneLine_cons (by decide) fun c hc => by cases hc))
      intro item hitem
      obtain ⟨s, -, rfl⟩ := List.mem_map.mp hitem
      exact oneLine_quote hp s

/-- **An object is one line, whatever the strings in it contain.** -/
theorem oneLine_object (hp : p.Readable) (ms : List (String × Field)) : OneLine (p.object ms) := by
  refine oneLine_cons (by decide) (oneLine_append (oneLine_commas hp ?_)
    (oneLine_cons (by decide) fun c hc => by cases hc))
  intro item hitem
  obtain ⟨m, -, rfl⟩ := List.mem_map.mp hitem
  exact oneLine_append (oneLine_quote hp m.1)
    (oneLine_cons (by decide) (oneLine_append (oneLine_blanks hp.colon) (oneLine_field hp m.2)))

end Style

end JsonText
