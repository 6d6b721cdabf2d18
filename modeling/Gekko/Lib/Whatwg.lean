import Mathlib.Data.Bool.AllAny
import Mathlib.Data.List.TakeWhile
import Gekko.Lib.Utf8
import Gekko.Lib.Percent

/-!
# `Gekko.Lib.Whatwg` — the path that a WHATWG URL parser sends

`fetch` and most HTTP clients parse the URL they are given with the algorithm of the URL standard, so the
path on the wire is a normal form of the text of the URL. `path` computes it for a URL with a special scheme
and a non-empty host, from the text that follows the host:

* trailing C0 controls and spaces are dropped, tabs and newlines are dropped everywhere;
* the path ends at the first `?` or `#`;
* `/` and `\` both end a segment;
* a dot segment (`%2e` counting as a dot) is resolved;
* every character of the path percent-encode set is escaped, and `%` is not in that set.
-/

namespace Whatwg

def isTabOrNewline (c : Char) : Bool := c == '\t' || c == '\n' || c == '\r'

def isC0OrSpace (c : Char) : Bool := c.toNat ≤ 32

/-- The text with the trailing C0 controls and spaces and all tabs and newlines removed. -/
def clean (text : List Char) : List Char :=
  (text.reverse.dropWhile isC0OrSpace).reverse.filter fun c => !isTabOrNewline c

/-- The text of the path, in front of a query or a fragment. -/
def pathText (text : List Char) : List Char := (clean text).takeWhile fun c => c != '?' && c != '#'

def isSeparator (c : Char) : Bool := c == '/' || c == '\\'

/-- The bytes outside the path percent-encode set. -/
def pathKeep (b : UInt8) : Bool :=
  0x21 ≤ b && b ≤ 0x7E && !([0x22, 0x23, 0x3C, 0x3E, 0x3F, 0x5E, 0x60, 0x7B, 0x7D] : List UInt8).contains b

def encodeSegment (segment : List Char) : List UInt8 :=
  Percent.encode pathKeep (segment.flatMap String.utf8EncodeChar)

def isSingleDot (segment : List Char) : Bool :=
  ["." , "%2e"].contains (String.ofList (segment.map Char.toLower))

def isDoubleDot (segment : List Char) : Bool :=
  ["..", ".%2e", "%2e.", "%2e%2e"].contains (String.ofList (segment.map Char.toLower))

/-- Resolve the dot segments. The segments so far are kept in reverse; a dot segment at the end leaves an
    empty segment behind. -/
def resolve : List (List UInt8) → List (List Char) → List (List UInt8)
  | done, [] => done.reverse
  | done, segment :: rest =>
      if isDoubleDot segment then
        if rest = [] then ([] :: done.tail).reverse else resolve done.tail rest
      else if isSingleDot segment then
        if rest = [] then ([] :: done).reverse else resolve done rest
      else resolve (encodeSegment segment :: done) rest

/-- The path sent for the text that follows the host, which starts with a separator. -/
def path (text : List Char) : List UInt8 :=
  match (pathText text).splitOnP isSeparator with
  | [] => []
  | _ :: segments => (resolve [] segments).flatMap fun segment => (0x2F : UInt8) :: segment

/-! ## Segments that are only escaped -/

/-- A segment that the parser neither cuts, drops nor resolves: it is only escaped. -/
structure Ordinary (segment : List Char) : Prop where
  ne_nil : segment ≠ []
  chars : ∀ c ∈ segment, 32 < c.toNat ∧ c ≠ '/' ∧ c ≠ '\\' ∧ c ≠ '?' ∧ c ≠ '#'
  singleDot : isSingleDot segment = false
  doubleDot : isDoubleDot segment = false

/-- The characters are checked one by one, not the alphabet. -/
instance (segment : List Char) : Decidable (Ordinary segment) :=
  decidable_of_iff
    (segment ≠ [] ∧
      (segment.all fun c => decide (32 < c.toNat ∧ c ≠ '/' ∧ c ≠ '\\' ∧ c ≠ '?' ∧ c ≠ '#')) = true ∧
      isSingleDot segment = false ∧ isDoubleDot segment = false)
    ⟨fun h => ⟨h.1, List.all_iff_forall_prop.mp h.2.1, h.2.2.1, h.2.2.2⟩,
      fun h => ⟨h.ne_nil, List.all_iff_forall_prop.mpr h.chars, h.singleDot, h.doubleDot⟩⟩

/-- The text of a path with the given segments. -/
def joinText (segments : List (List Char)) : List Char := segments.flatMap fun s => '/' :: s

/-- The bytes of a path with the given segments. -/
def joinBytes (segments : List (List UInt8)) : List UInt8 := segments.flatMap fun s => (0x2F : UInt8) :: s

theorem not_isSeparator_of_ordinary {segment : List Char} (h : Ordinary segment) :
    ∀ c ∈ segment, isSeparator c = false := by
  intro c hc
  obtain ⟨-, hslash, hback, -, -⟩ := h.chars c hc
  unfold isSeparator
  simp [hslash, hback]

theorem mem_joinText {segments : List (List Char)} (h : ∀ s ∈ segments, Ordinary s) {c : Char}
    (hc : c ∈ joinText segments) : 32 < c.toNat ∧ c ≠ '?' ∧ c ≠ '#' := by
  obtain ⟨s, hs, hcs⟩ := List.mem_flatMap.mp hc
  rcases List.mem_cons.mp hcs with rfl | hcs
  · decide
  · obtain ⟨hlt, -, -, hquery, hhash⟩ := (h s hs).chars c hcs
    exact ⟨hlt, hquery, hhash⟩

theorem clean_of_forall {text : List Char} (h : ∀ c ∈ text, 32 < c.toNat) : clean text = text := by
  have hdrop : text.reverse.dropWhile isC0OrSpace = text.reverse := by
    cases hr : text.reverse with
    | nil => rfl
    | cons c cs =>
        have hc : c ∈ text := List.mem_reverse.mp (hr ▸ List.mem_cons_self)
        have hlt := h c hc
        refine List.dropWhile_cons_of_neg ?_
        unfold isC0OrSpace
        simp only [decide_eq_true_eq]
        omega
  unfold clean
  rw [hdrop, List.reverse_reverse, List.filter_eq_self]
  intro c hc
  have hlt := h c hc
  unfold isTabOrNewline
  have htab : c ≠ '\t' := fun he => absurd (he ▸ hlt) (by decide)
  have hnl : c ≠ '\n' := fun he => absurd (he ▸ hlt) (by decide)
  have hcr : c ≠ '\r' := fun he => absurd (he ▸ hlt) (by decide)
  simp [htab, hnl, hcr]

theorem pathText_joinText {segments : List (List Char)} (h : ∀ s ∈ segments, Ordinary s) :
    pathText (joinText segments) = joinText segments := by
  unfold pathText
  rw [clean_of_forall fun c hc => (mem_joinText h hc).1, List.takeWhile_eq_self_iff]
  intro c hc
  obtain ⟨-, hquery, hhash⟩ := mem_joinText h hc
  simp [hquery, hhash]

theorem splitOnP_joinText {segments : List (List Char)} (h : ∀ s ∈ segments, Ordinary s)
    (segment : List Char) (hs : ∀ c ∈ segment, isSeparator c = false) :
    (segment ++ joinText segments).splitOnP isSeparator = segment :: segments := by
  induction segments generalizing segment with
  | nil =>
      simp only [joinText, List.flatMap_nil, List.append_nil]
      exact List.splitOnP_eq_singleton hs
  | cons s segments ih =>
      have hrest := ih (fun x hx => h x (List.mem_cons_of_mem _ hx)) s
        (not_isSeparator_of_ordinary (h s List.mem_cons_self))
      unfold joinText at hrest ⊢
      rw [List.flatMap_cons, List.cons_append,
        List.splitOnP_append_cons_of_forall_mem hs '/' (by decide), hrest]

/-- Without a dot segment there is nothing to resolve. -/
theorem resolve_of_forall {segments : List (List Char)}
    (h : ∀ s ∈ segments, isDoubleDot s = false ∧ isSingleDot s = false) (done : List (List UInt8)) :
    resolve done segments = done.reverse ++ segments.map encodeSegment := by
  induction segments generalizing done with
  | nil => simp [resolve]
  | cons s segments ih =>
      obtain ⟨hdouble, hsingle⟩ := h s List.mem_cons_self
      rw [resolve, hdouble, hsingle]
      simp only [Bool.false_eq_true, if_false]
      rw [ih fun x hx => h x (List.mem_cons_of_mem _ hx)]
      simp

/-- **A path of ordinary segments keeps its segments**, each of them escaped. -/
theorem path_joinText {segments : List (List Char)} (h : ∀ s ∈ segments, Ordinary s) :
    path (joinText segments) = joinBytes (segments.map encodeSegment) := by
  have hsplit := splitOnP_joinText h [] (by simp)
  rw [List.nil_append] at hsplit
  unfold path
  rw [pathText_joinText h, hsplit]
  simp only [resolve_of_forall fun s hs => ⟨(h s hs).doubleDot, (h s hs).singleDot⟩, List.reverse_nil,
    List.nil_append]
  rfl

/-- The bytes of such a path are the escaped bytes of its text. -/
theorem joinBytes_map_encodeSegment (segments : List (List Char)) :
    joinBytes (segments.map encodeSegment)
      = Percent.encode pathKeep ((joinText segments).flatMap String.utf8EncodeChar) := by
  induction segments with
  | nil => rfl
  | cons s segments ih =>
      unfold joinBytes joinText at ih ⊢
      have hslash : Percent.encode pathKeep (String.utf8EncodeChar '/') = [0x2F] := by decide
      rw [List.map_cons, List.flatMap_cons, List.flatMap_cons, List.flatMap_append, List.flatMap_cons,
        Percent.encode_append, Percent.encode_append, hslash, ih]
      rfl

/-- **Nothing is lost on the way**: without a `%` in it, the text of such a path is what the path decodes
    to. -/
theorem decode_path_joinText {segments : List (List Char)} (h : ∀ s ∈ segments, Ordinary s)
    (hpercent : '%' ∉ joinText segments) :
    Percent.decode (path (joinText segments)) = some ((joinText segments).flatMap String.utf8EncodeChar) := by
  rw [path_joinText h, joinBytes_map_encodeSegment]
  apply Percent.decode_encode
  intro b hb _ hbp
  obtain ⟨c, hc, hbc⟩ := List.mem_flatMap.mp hb
  have hnat := Utf8.mem_encodeChar_of_lt hbc (hbp ▸ (by decide : Percent.percent < 0x80))
  rw [hbp] at hnat
  exact hpercent ((Char.toNat_inj.mp (hnat.trans (by decide : _ = '%'.toNat))) ▸ hc)

/-! ## Dot segments -/

theorem eq_of_toLower_eq {c d : Char} (hd : d.toNat < 97) (h : c.toLower = d) : c = d := by
  unfold Char.toLower at h
  split at h
  · rename_i hc
    exfalso
    obtain ⟨hge, hle⟩ := hc
    have hge' : 65 ≤ c.val.toNat := hge
    have hle' : c.val.toNat ≤ 90 := hle
    have hnat : d.toNat = (c.val + ('a'.val - 'A'.val)).toNat := congrArg Char.toNat h.symm
    rw [UInt32.toNat_add, show ('a'.val - 'A'.val).toNat = 32 from rfl] at hnat
    omega
  · exact h

/-- Lower-casing makes no dots and no percent signs, so it takes a text without `%` to a text of dots only
    if it is that text. -/
theorem eq_of_map_toLower_eq {segment dots : List Char} (hdots : ∀ c ∈ dots, c = '.')
    (h : segment.map Char.toLower = dots) : segment = dots := by
  induction dots generalizing segment with
  | nil => exact List.map_eq_nil_iff.mp h
  | cons d dots ih =>
      obtain ⟨c, cs, rfl, hc, hcs⟩ := List.map_eq_cons_iff.mp h
      have hd : d.toNat < 97 := by
        rw [hdots d List.mem_cons_self]
        decide
      rw [eq_of_toLower_eq hd hc, ih (fun x hx => hdots x (List.mem_cons_of_mem _ hx)) hcs]

theorem percent_mem_of_map_toLower {segment t : List Char} (h : segment.map Char.toLower = t)
    (ht : '%' ∈ t) : '%' ∈ segment := by
  rw [← h] at ht
  obtain ⟨c, hc, hlower⟩ := List.mem_map.mp ht
  exact eq_of_toLower_eq (by decide) hlower ▸ hc

theorem isSingleDot_eq_false {segment : List Char} (hdot : segment ≠ ['.']) (hpercent : '%' ∉ segment) :
    isSingleDot segment = false := by
  unfold isSingleDot
  rw [← Bool.not_eq_true, List.contains_iff_mem]
  simp only [List.mem_cons, List.not_mem_nil, or_false, ← String.toList_inj, String.toList_ofList]
  rintro (h | h)
  · exact hdot (eq_of_map_toLower_eq (by simp) h)
  · exact hpercent (percent_mem_of_map_toLower h (by decide))

theorem isDoubleDot_eq_false {segment : List Char} (hdots : segment ≠ ['.', '.']) (hpercent : '%' ∉ segment) :
    isDoubleDot segment = false := by
  unfold isDoubleDot
  rw [← Bool.not_eq_true, List.contains_iff_mem]
  simp only [List.mem_cons, List.not_mem_nil, or_false, ← String.toList_inj, String.toList_ofList]
  rintro (h | h | h | h)
  · exact hdots (eq_of_map_toLower_eq (by simp) h)
  · exact hpercent (percent_mem_of_map_toLower h (by decide))
  · exact hpercent (percent_mem_of_map_toLower h (by decide))
  · exact hpercent (percent_mem_of_map_toLower h (by decide))

/-! ## Plain names -/

/-- A name that is one path segment of every URL it is put into: not empty, no dot segment, and without
    control characters, spaces and the characters that structure a URL. -/
structure PlainName (s : String) : Prop where
  ne_empty : s ≠ ""
  ne_dot : s ≠ "."
  ne_dots : s ≠ ".."
  chars : ∀ c ∈ s.toList, 32 < c.toNat ∧ c.toNat ≠ 127 ∧ c ≠ '/' ∧ c ≠ '\\' ∧ c ≠ '?' ∧ c ≠ '#' ∧ c ≠ '%'

instance (s : String) : Decidable (PlainName s) :=
  decidable_of_iff
    (s ≠ "" ∧ s ≠ "." ∧ s ≠ ".." ∧
      (s.toList.all fun c =>
        decide (32 < c.toNat ∧ c.toNat ≠ 127 ∧ c ≠ '/' ∧ c ≠ '\\' ∧ c ≠ '?' ∧ c ≠ '#' ∧ c ≠ '%')) = true)
    ⟨fun h => ⟨h.1, h.2.1, h.2.2.1, List.all_iff_forall_prop.mp h.2.2.2⟩,
      fun h => ⟨h.ne_empty, h.ne_dot, h.ne_dots, List.all_iff_forall_prop.mpr h.chars⟩⟩

namespace PlainName

variable {s : String}

theorem percent (h : PlainName s) : '%' ∉ s.toList := by
  intro hmem
  obtain ⟨-, -, -, -, -, -, hne⟩ := h.chars _ hmem
  exact hne rfl

theorem ordinary (h : PlainName s) : Ordinary s.toList where
  ne_nil := fun hnil => h.ne_empty (String.toList_eq_nil_iff.mp hnil)
  chars := by
    intro c hc
    obtain ⟨hlt, -, hslash, hback, hquery, hhash, -⟩ := h.chars c hc
    exact ⟨hlt, hslash, hback, hquery, hhash⟩
  singleDot := by
    refine isSingleDot_eq_false ?_ h.percent
    intro hdot
    exact h.ne_dot (String.toList_inj.mp hdot)
  doubleDot := by
    refine isDoubleDot_eq_false ?_ h.percent
    intro hdots
    exact h.ne_dots (String.toList_inj.mp hdots)

end PlainName

end Whatwg
