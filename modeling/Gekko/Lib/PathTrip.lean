import Mathlib.Algebra.BigOperators.Fin
import Gekko.Lib.Search
import Gekko.Lib.Whatwg


/-! # `Gekko.Lib.PathTrip` — the texts whose path comes back

A client writes the path of a URL, the parser sends `Whatwg.path` of it, and a server reads the text off
the bytes again. `path_eq_encode_iff` says which texts are sent as they stand, `decode_path_iff` which
ones a server reads back that decodes what it got, leniently and with replacement, and cuts it at the
first `?`.

What fails to come back is found by counting ASCII characters: everything that the parser drops, every
dot segment and every escape has some, and nothing on the way makes new ones.
-/

namespace Whatwg

open Utf8 (asciiChar asciiByte)
open Percent (KeepsEscapes decodeLenient hasEscape)

/-! ## The segments of a path -/

/-- The segments of the text that follows the host. -/
def segments (text : List Char) : List (List Char) := ((pathText text).splitOnP isSeparator).tail

theorem path_eq (text : List Char) : path text = joinBytes (resolve [] (segments text)) := by
  unfold path segments
  cases hsplit : (pathText text).splitOnP isSeparator with
  | nil => exact absurd hsplit (List.splitOnP_ne_nil _ _)
  | cons first rest => rfl

/-- A piece of a text holds characters of the text, and no separator. -/
theorem mem_of_mem_splitOnP {p : Char → Bool} {text piece : List Char} (h : piece ∈ text.splitOnP p) :
    ∀ c ∈ piece, c ∈ text ∧ p c = false := by
  induction text generalizing piece with
  | nil =>
      rw [List.splitOnP_nil, List.mem_singleton] at h
      subst h
      exact nofun
  | cons d text ih =>
      rw [List.splitOnP_cons_eq_if_modifyHead] at h
      split at h
      · rcases List.mem_cons.mp h with rfl | h
        · exact nofun
        · intro c hc
          obtain ⟨hmem, hsep⟩ := ih h c hc
          exact ⟨List.mem_cons_of_mem _ hmem, hsep⟩
      · rename_i hd
        -- `d` is no separator: it joins the first piece of the rest.
        obtain ⟨first, rest, hsplit⟩ := List.exists_cons_of_ne_nil (List.splitOnP_ne_nil p text)
        rw [hsplit, List.modifyHead_cons] at h
        intro c hc
        rcases List.mem_cons.mp h with rfl | h
        · rcases List.mem_cons.mp hc with rfl | hc
          · exact ⟨List.mem_cons_self, by simpa using hd⟩
          · obtain ⟨hmem, hsep⟩ := ih (hsplit ▸ List.mem_cons_self) c hc
            exact ⟨List.mem_cons_of_mem _ hmem, hsep⟩
        · obtain ⟨hmem, hsep⟩ := ih (hsplit ▸ List.mem_cons_of_mem _ h) c hc
          exact ⟨List.mem_cons_of_mem _ hmem, hsep⟩

theorem mem_segments {text s : List Char} (h : s ∈ segments text) :
    ∀ c ∈ s, c ∈ pathText text ∧ isSeparator c = false :=
  mem_of_mem_splitOnP (List.mem_of_mem_tail h)

/-- The resolved segments are empty or come from segments of the text. -/
theorem mem_resolve {done : List (List UInt8)} {rest : List (List Char)} {s : List UInt8}
    (h : s ∈ resolve done rest) : s ∈ done ∨ s = [] ∨ ∃ t ∈ rest, s = encodeSegment t := by
  induction rest generalizing done with
  | nil => exact Or.inl (List.mem_reverse.mp h)
  | cons t rest ih =>
      -- The branches that go on do so with a `done'` that has at most this segment more.
      have hrest : ∀ done', (∀ x ∈ done', x ∈ done ∨ x = encodeSegment t) → s ∈ resolve done' rest →
          s ∈ done ∨ s = [] ∨ ∃ t' ∈ t :: rest, s = encodeSegment t' := by
        intro done' hdone hs
        rcases ih hs with hs | hs | ⟨t', ht', rfl⟩
        · rcases hdone s hs with hs | rfl
          · exact Or.inl hs
          · exact Or.inr (Or.inr ⟨t, List.mem_cons_self, rfl⟩)
        · exact Or.inr (Or.inl hs)
        · exact Or.inr (Or.inr ⟨t', List.mem_cons_of_mem _ ht', rfl⟩)
      rw [resolve] at h
      split at h
      · split at h
        · rcases List.mem_cons.mp (List.mem_reverse.mp h) with h | h
          · exact Or.inr (Or.inl h)
          · exact Or.inl (List.mem_of_mem_tail h)
        · exact hrest _ (fun x hx => Or.inl (List.mem_of_mem_tail hx)) h
      · split at h
        · split at h
          · rcases List.mem_cons.mp (List.mem_reverse.mp h) with h | h
            · exact Or.inr (Or.inl h)
            · exact Or.inl h
          · exact hrest _ (fun x hx => Or.inl hx) h
        · refine hrest _ (fun x hx => ?_) h
          rcases List.mem_cons.mp hx with rfl | hx
          · exact Or.inr rfl
          · exact Or.inl hx

/-! ## The bytes of a path -/

theorem lt_of_hexValue? {b : UInt8} (h : (Percent.hexValue? b).isSome = true) : b < 0x80 := by
  unfold Percent.hexValue? at h
  split at h
  · rename_i hb
    exact UInt8.lt_of_le_of_lt hb.2 (by decide)
  · split at h
    · rename_i hb
      exact UInt8.lt_of_le_of_lt hb.2 (by decide)
    · split at h
      · rename_i hb
        exact UInt8.lt_of_le_of_lt hb.2 (by decide)
      · cases h

theorem keepsEscapes_asciiByte : KeepsEscapes asciiByte where
  percent := by decide
  hex := fun _ h => decide_eq_true (lt_of_hexValue? h)

theorem keepsEscapes_pathKeep : KeepsEscapes pathKeep where
  percent := by decide
  hex := by
    have key : ∀ n : Fin 128, (Percent.hexValue? (UInt8.ofNat n.val)).isSome = true →
        pathKeep (UInt8.ofNat n.val) = true := by decide +kernel
    intro b h
    have hlt : b.toNat < 128 := lt_of_hexValue? h
    have hb := key ⟨b.toNat, hlt⟩
    simp only [UInt8.ofNat_toNat] at hb
    exact hb h

theorem mem_encodeSegment {s : List Char} {b : UInt8} (h : b ∈ encodeSegment s) : pathKeep b = true := by
  rcases Percent.mem_encode h with ⟨-, hkeep⟩ | rfl | hhex
  · exact hkeep
  · exact keepsEscapes_pathKeep.percent
  · exact keepsEscapes_pathKeep.hex b hhex

/-- **What is sent**: bytes outside the percent-encode set, and no backslash. -/
theorem mem_path {text : List Char} {b : UInt8} (h : b ∈ path text) : pathKeep b = true ∧ b ≠ 0x5C := by
  rw [path_eq] at h
  obtain ⟨s, hs, hb⟩ := List.mem_flatMap.mp h
  rcases List.mem_cons.mp hb with rfl | hb
  · decide
  rcases mem_resolve hs with hs | rfl | ⟨t, ht, rfl⟩
  · cases hs
  · cases hb
  · refine ⟨mem_encodeSegment hb, ?_⟩
    rintro rfl
    -- A backslash ends a segment, and no escape is written with one.
    rcases Percent.mem_encode hb with ⟨hmem, -⟩ | hpercent | hhex
    · obtain ⟨c, hc, hbc⟩ := List.mem_flatMap.mp hmem
      have hnat := Utf8.mem_encodeChar_of_lt hbc (by decide)
      have heq : c = '\\' := Char.toNat_inj.mp hnat
      obtain ⟨-, hsep⟩ := mem_segments ht c hc
      rw [heq] at hsep
      cases hsep
    · exact absurd hpercent (by decide)
    · exact absurd hhex (by decide)

theorem path_visible (text : List Char) : ∀ b ∈ path text, 0x21 ≤ b ∧ b ≤ 0x7E ∧ b ≠ 0x3F := by
  intro b hb
  obtain ⟨hkeep, -⟩ := mem_path hb
  unfold pathKeep at hkeep
  simp only [Bool.and_eq_true, decide_eq_true_eq, Bool.not_eq_true'] at hkeep
  obtain ⟨⟨hlo, hhi⟩, hset⟩ := hkeep
  refine ⟨hlo, hhi, ?_⟩
  rintro rfl
  exact absurd hset (by decide)

/-! ## Counting what the parser drops -/

theorem countP_splitOnP {p q : Char → Bool} (h : ∀ c, p c = true → q c = true) (text : List Char) :
    ((text.splitOnP p).map fun s => s.countP q + 1).sum = text.countP q + 1 := by
  induction text with
  | nil => rfl
  | cons c text ih =>
      rw [List.splitOnP_cons_eq_if_modifyHead]
      split
      · rename_i hc
        rw [List.map_cons, List.sum_cons, ih, List.countP_cons_of_pos (h c hc), List.countP_nil]
        omega
      · obtain ⟨first, rest, hsplit⟩ := List.exists_cons_of_ne_nil (List.splitOnP_ne_nil p text)
        rw [hsplit, List.map_cons, List.sum_cons] at ih
        rw [hsplit, List.modifyHead_cons, List.map_cons, List.sum_cons, List.countP_cons, List.countP_cons]
        omega

theorem asciiChar_of_isSeparator {c : Char} (h : isSeparator c = true) : asciiChar c = true := by
  unfold isSeparator at h
  rw [Bool.or_eq_true, beq_iff_eq, beq_iff_eq] at h
  rcases h with rfl | rfl
  · decide
  · decide

/-- The segments count for no more than the text that they are cut from. -/
theorem countP_segments_le (text : List Char) :
    ((segments text).map fun s => s.countP asciiChar + 1).sum ≤ (pathText text).countP asciiChar := by
  have hsep : ∀ c, isSeparator c = true → asciiChar c = true := fun _ hc => asciiChar_of_isSeparator hc
  have hsum := countP_splitOnP hsep (pathText text)
  unfold segments
  obtain ⟨first, rest, hsplit⟩ :=
    List.exists_cons_of_ne_nil (List.splitOnP_ne_nil isSeparator (pathText text))
  rw [hsplit, List.map_cons, List.sum_cons] at hsum
  rw [hsplit, List.tail_cons]
  omega

section Counting

variable {f q : Char → Bool} {l : List Char}

theorem takeWhile_eq_of_countP_le (hq : ∀ c, f c = false → q c = true)
    (h : l.countP q ≤ (l.takeWhile f).countP q) : l.takeWhile f = l := by
  rw [List.takeWhile_eq_self_iff]
  by_contra hsome
  have hne : l.dropWhile f ≠ [] := fun hnil => hsome (List.dropWhile_eq_nil_iff.mp hnil)
  have hpos := List.countP_pos_iff.mpr ⟨_, List.head_mem hne, hq _ (List.head_dropWhile_not f hne)⟩
  have hsplit := congrArg (List.countP q) (List.takeWhile_append_dropWhile (p := f) (l := l))
  rw [List.countP_append] at hsplit
  omega

theorem dropWhile_eq_of_countP_le (hq : ∀ c, f c = true → q c = true)
    (h : l.countP q ≤ (l.dropWhile f).countP q) : l.dropWhile f = l := by
  have hnone : l.takeWhile f = [] := by
    by_contra hne
    have hmem := List.head_mem hne
    have hpos := List.countP_pos_iff.mpr ⟨_, hmem, hq _ (List.mem_takeWhile_imp hmem)⟩
    have hsplit := congrArg (List.countP q) (List.takeWhile_append_dropWhile (p := f) (l := l))
    rw [List.countP_append] at hsplit
    omega
  have hsplit := List.takeWhile_append_dropWhile (p := f) (l := l)
  rwa [hnone, List.nil_append] at hsplit

theorem filter_eq_of_countP_le (hq : ∀ c, f c = false → q c = true)
    (h : l.countP q ≤ (l.filter f).countP q) : l.filter f = l := by
  rw [List.filter_eq_self]
  intro c hc
  by_contra hf
  have hmem : c ∈ l.filter fun x => !f x := List.mem_filter.mpr ⟨hc, by simpa using hf⟩
  have hpos := List.countP_pos_iff.mpr ⟨c, hmem, hq c (by simpa using hf)⟩
  have hsplit := List.countP_eq_countP_filter_add l q f
  omega

end Counting

theorem asciiChar_of_isTabOrNewline {c : Char} (h : isTabOrNewline c = true) : asciiChar c = true := by
  unfold isTabOrNewline at h
  rw [Bool.or_eq_true, Bool.or_eq_true, beq_iff_eq, beq_iff_eq, beq_iff_eq] at h
  rcases h with (rfl | rfl) | rfl
  · decide
  · decide
  · decide

theorem asciiChar_of_isC0OrSpace {c : Char} (h : isC0OrSpace c = true) : asciiChar c = true := by
  have hle : c.toNat ≤ 32 := of_decide_eq_true h
  have hlt : c.toNat < 0x80 := by omega
  exact decide_eq_true hlt

theorem pathText_sublist (text : List Char) : List.Sublist (pathText text) (clean text) :=
  List.takeWhile_sublist _

theorem clean_sublist (text : List Char) :
    List.Sublist (clean text) (text.reverse.dropWhile isC0OrSpace).reverse := List.filter_sublist

theorem trimmed_sublist (text : List Char) :
    List.Sublist (text.reverse.dropWhile isC0OrSpace).reverse text := by
  have h := (List.dropWhile_sublist (l := text.reverse) isC0OrSpace).reverse
  rwa [List.reverse_reverse] at h

theorem countP_pathText_le (text : List Char) :
    (pathText text).countP asciiChar ≤ text.countP asciiChar :=
  (((pathText_sublist text).trans (clean_sublist text)).trans (trimmed_sublist text)).countP_le

/-- A text whose path text has as many ASCII characters is its own path text. -/
theorem pathText_eq_of_countP_le {text : List Char}
    (h : text.countP asciiChar ≤ (pathText text).countP asciiChar) : pathText text = text := by
  have hpath := (pathText_sublist text).countP_le (p := asciiChar)
  have hclean := (clean_sublist text).countP_le (p := asciiChar)
  have htrim : (text.reverse.dropWhile isC0OrSpace).reverse = text := by
    have hq : ∀ c, isC0OrSpace c = true → asciiChar c = true := fun _ hc => asciiChar_of_isC0OrSpace hc
    have hcount : text.reverse.countP asciiChar ≤ (text.reverse.dropWhile isC0OrSpace).countP asciiChar := by
      rw [List.countP_reverse] at hclean ⊢
      omega
    rw [dropWhile_eq_of_countP_le hq hcount, List.reverse_reverse]
  have hfilter : clean text = text := by
    unfold clean at hpath ⊢
    rw [htrim] at hpath ⊢
    apply filter_eq_of_countP_le
    · intro c hc
      exact asciiChar_of_isTabOrNewline (by simpa using hc)
    · exact h.trans hpath
  unfold pathText at h ⊢
  rw [hfilter] at h ⊢
  apply takeWhile_eq_of_countP_le _ h
  intro c hc
  rw [Bool.and_eq_false_iff, bne_eq_false_iff_eq, bne_eq_false_iff_eq] at hc
  rcases hc with rfl | rfl
  · decide
  · decide

/-! ## Counting what the dot segments take away -/

def isDots (s : List Char) : Bool := isDoubleDot s || isSingleDot s

/-- A dot segment is written with dots and percent signs. -/
theorem countP_pos_of_isDots {s : List Char} (h : isDots s = true) : 0 < s.countP asciiChar := by
  have hsome : '.' ∈ s ∨ '%' ∈ s := by
    by_contra hnot
    obtain ⟨hdot, hpercent⟩ := not_or.mp hnot
    have hsingle : isSingleDot s = false := by
      refine isSingleDot_eq_false ?_ hpercent
      rintro rfl
      exact hdot List.mem_cons_self
    have hdouble : isDoubleDot s = false := by
      refine isDoubleDot_eq_false ?_ hpercent
      rintro rfl
      exact hdot List.mem_cons_self
    rw [isDots, hsingle, hdouble] at h
    cases h
  rcases hsome with hmem | hmem
  · exact List.countP_pos_iff.mpr ⟨_, hmem, by decide⟩
  · exact List.countP_pos_iff.mpr ⟨_, hmem, by decide⟩

section Weight

variable (w : List UInt8 → Nat)

/-- The weight of some segments, each with the separator in front of it. -/
def weight (segments : List (List UInt8)) : Nat := (segments.map fun s => w s + 1).sum

@[simp] theorem weight_nil : weight w [] = 0 := rfl

@[simp] theorem weight_cons (s : List UInt8) (segments : List (List UInt8)) :
    weight w (s :: segments) = w s + 1 + weight w segments := by
  unfold weight
  rw [List.map_cons, List.sum_cons]

@[simp] theorem weight_reverse (segments : List (List UInt8)) :
    weight w segments.reverse = weight w segments := by
  unfold weight
  rw [List.map_reverse, List.sum_reverse]

theorem weight_tail_le (segments : List (List UInt8)) : weight w segments.tail ≤ weight w segments := by
  cases segments with
  | nil => exact Nat.le_refl _
  | cons s segments =>
      rw [List.tail_cons, weight_cons]
      omega

variable {w}

/-- A segment that comes out lighter than its text: a dot segment, or one that is lighter once escaped. -/
def Lighter (w : List UInt8 → Nat) (s : List Char) : Prop :=
  isDots s = true ∨ w (encodeSegment s) < s.countP asciiChar

/-- **Resolving adds no weight**, and takes some away where a segment comes out lighter. -/
theorem weight_resolve {rest : List (List Char)} (hnil : w [] = 0)
    (hrest : ∀ s ∈ rest, w (encodeSegment s) ≤ s.countP asciiChar) (done : List (List UInt8)) :
    weight w (resolve done rest) ≤ weight w done + (rest.map fun s => s.countP asciiChar + 1).sum ∧
      ((∃ s ∈ rest, Lighter w s) →
        weight w (resolve done rest) < weight w done + (rest.map fun s => s.countP asciiChar + 1).sum) := by
  induction rest generalizing done with
  | nil => simp [resolve]
  | cons s rest ih =>
      have hs := hrest s List.mem_cons_self
      have ih := ih fun t ht => hrest t (List.mem_cons_of_mem _ ht)
      rw [List.map_cons, List.sum_cons]
      by_cases hdots : isDots s = true
      · -- Both kinds of dot segment leave nothing, or an empty segment at the end.
        have hpos := countP_pos_of_isDots hdots
        have hlt : weight w (resolve done (s :: rest))
            < weight w done + (s.countP asciiChar + 1 + (rest.map fun s => s.countP asciiChar + 1).sum) := by
          have htail := weight_tail_le w done
          obtain ⟨hleDone, -⟩ := ih done
          obtain ⟨hleTail, -⟩ := ih done.tail
          rw [resolve]
          split
          · split
            · rw [weight_reverse, weight_cons]
              omega
            · omega
          · rename_i hdouble
            have hsingle : isSingleDot s = true := by
              rw [isDots, Bool.or_eq_true] at hdots
              exact hdots.resolve_left hdouble
            rw [if_pos hsingle]
            split
            · rw [weight_reverse, weight_cons]
              omega
            · omega
        exact ⟨Nat.le_of_lt hlt, fun _ => hlt⟩
      -- Any other segment is pushed, and `done` gets heavier by its weight.
      · have hneither : isDoubleDot s = false ∧ isSingleDot s = false := by
          rw [Bool.not_eq_true, isDots, Bool.or_eq_false_iff] at hdots
          exact hdots
        obtain ⟨hle, hlt⟩ := ih (encodeSegment s :: done)
        rw [weight_cons] at hle hlt
        rw [resolve, hneither.1, hneither.2]
        simp only [Bool.false_eq_true, if_false]
        constructor
        · omega
        · rintro ⟨t, ht, hlighter⟩
          rcases List.mem_cons.mp ht with rfl | ht
          · have hstrict := hlighter.resolve_left hdots
            omega
          · have hstrict := hlt ⟨t, ht, hlighter⟩
            omega

/-- A path whose weight is the number of ASCII characters of its text: the text is sent as far as the
    segments go, and no segment comes out lighter. -/
theorem of_countP_le_weight {text : List Char} (hnil : w [] = 0)
    (hsegments : ∀ s ∈ segments text, w (encodeSegment s) ≤ s.countP asciiChar)
    (h : text.countP asciiChar ≤ weight w (resolve [] (segments text))) :
    pathText text = text ∧ ∀ s ∈ segments text, ¬ Lighter w s := by
  obtain ⟨hle, hlt⟩ := weight_resolve hnil hsegments []
  have hsum := countP_segments_le text
  have hpath := countP_pathText_le text
  rw [weight_nil, Nat.zero_add] at hle hlt
  -- The weight is squeezed between the two counts, so nothing is lost anywhere.
  constructor
  · apply pathText_eq_of_countP_le
    omega
  · intro s hs hlighter
    have hstrict := hlt ⟨s, hs, hlighter⟩
    omega

end Weight

/-! ## The texts that come back -/

/-- A text of which the parser drops, exchanges and resolves nothing. -/
structure Untouched (text : List Char) : Prop where
  pathText : pathText text = text
  backslash : '\\' ∉ text
  dots : ∀ s ∈ segments text, isDots s = false

theorem joinText_splitOnP {text : List Char} (h : '\\' ∉ text) :
    joinText (text.splitOnP isSeparator) = '/' :: text := by
  induction text with
  | nil => rfl
  | cons c text ih =>
      obtain ⟨hc, htext⟩ := not_or.mp fun hor => h (List.mem_cons.mpr hor)
      have ih := ih htext
      unfold joinText at ih ⊢
      rw [List.splitOnP_cons_eq_if_modifyHead]
      split
      · rename_i hsep
        unfold isSeparator at hsep
        rw [Bool.or_eq_true, beq_iff_eq, beq_iff_eq] at hsep
        rw [List.flatMap_cons, ih, hsep.resolve_right (Ne.symm hc)]
        rfl
      · obtain ⟨first, rest, hsplit⟩ := List.exists_cons_of_ne_nil (List.splitOnP_ne_nil isSeparator text)
        rw [hsplit, List.flatMap_cons, List.cons_append] at ih
        rw [hsplit, List.modifyHead_cons, List.flatMap_cons, List.cons_append, List.cons_append,
          List.tail_eq_of_cons_eq ih]

variable {rest : List Char}

theorem segments_eq (h : pathText ('/' :: rest) = '/' :: rest) :
    segments ('/' :: rest) = rest.splitOnP isSeparator := by
  unfold segments
  rw [h, List.splitOnP_cons_eq_if_modifyHead, if_pos (by decide), List.tail_cons]

theorem joinText_segments (h : Untouched ('/' :: rest)) :
    joinText (segments ('/' :: rest)) = '/' :: rest := by
  rw [segments_eq h.pathText]
  exact joinText_splitOnP fun hmem => h.backslash (List.mem_cons_of_mem _ hmem)

theorem path_of_dots {text : List Char} (h : ∀ s ∈ segments text, isDots s = false) :
    path text = joinBytes ((segments text).map encodeSegment) := by
  rw [path_eq, resolve_of_forall, List.reverse_nil, List.nil_append]
  intro s hs
  exact Bool.or_eq_false_iff.mp (h s hs)

theorem countP_joinBytes (segments : List (List UInt8)) :
    (joinBytes segments).countP asciiByte = weight (List.countP asciiByte) segments := by
  induction segments with
  | nil => rfl
  | cons s segments ih =>
      unfold joinBytes at ih ⊢
      rw [List.flatMap_cons, List.countP_append, List.countP_cons_of_pos (by decide), ih, weight_cons]

/-- **The texts that are sent as they stand.** -/
theorem path_eq_encode_iff :
    path ('/' :: rest) = ('/' :: rest).flatMap String.utf8EncodeChar ↔
      Untouched ('/' :: rest) ∧ ∀ b ∈ ('/' :: rest).flatMap String.utf8EncodeChar, pathKeep b = true := by
  constructor
  · intro h
    have hkeep : ∀ b ∈ ('/' :: rest).flatMap String.utf8EncodeChar, pathKeep b = true := by
      intro b hb
      exact (mem_path (h ▸ hb)).1
    have hsub : List.Sublist (pathText ('/' :: rest)) ('/' :: rest) :=
      ((pathText_sublist _).trans (clean_sublist _)).trans (trimmed_sublist _)
    -- No segment is escaped, so each weighs as much as its text.
    have hsegments : ∀ s ∈ segments ('/' :: rest), (encodeSegment s).countP asciiByte ≤
        s.countP asciiChar := by
      intro s hs
      have hbytes : ∀ b ∈ s.flatMap String.utf8EncodeChar, pathKeep b = true := by
        intro b hb
        obtain ⟨c, hc, hbc⟩ := List.mem_flatMap.mp hb
        exact hkeep b (List.mem_flatMap.mpr ⟨c, hsub.subset (mem_segments hs c hc).1, hbc⟩)
      rw [encodeSegment, Percent.encode_of_all hbytes, Utf8.countP_flatMap_encodeChar]
    have hcount := congrArg (List.countP asciiByte) h
    rw [path_eq, countP_joinBytes, Utf8.countP_flatMap_encodeChar] at hcount
    obtain ⟨hpath, hlighter⟩ := of_countP_le_weight List.countP_nil hsegments (Nat.le_of_eq hcount.symm)
    refine ⟨⟨hpath, ?_, ?_⟩, hkeep⟩
    · intro hmem
      have hbyte : (0x5C : UInt8) ∈ path ('/' :: rest) := by
        rw [h]
        exact List.mem_flatMap.mpr ⟨_, hmem, by decide⟩
      exact (mem_path hbyte).2 rfl
    · intro s hs
      exact Bool.eq_false_iff.mpr fun hdots => hlighter s hs (Or.inl hdots)
  · rintro ⟨h, hkeep⟩
    rw [path_of_dots h.dots, joinBytes_map_encodeSegment, joinText_segments h, Percent.encode_of_all hkeep]

/-! ### Decoding -/

theorem decodeLenient_joinBytes (segments : List (List UInt8)) :
    decodeLenient (joinBytes segments) = joinBytes (segments.map decodeLenient) := by
  -- The induction needs the bytes in front: an escape may start in them, but it does not reach over a slash.
  have happend : ∀ (segments : List (List UInt8)) (bs : List UInt8),
      decodeLenient (bs ++ joinBytes segments) = decodeLenient bs ++
        joinBytes (segments.map decodeLenient) := by
    intro segments
    induction segments with
    | nil =>
        intro bs
        simp [joinBytes]
    | cons s segments ih =>
        intro bs
        have hs := ih s
        unfold joinBytes at hs ⊢
        rw [List.flatMap_cons, List.cons_append,
          Percent.decodeLenient_append_cons (by decide) (by decide), hs, List.map_cons,
          List.flatMap_cons]
        rfl
  exact happend segments []

theorem joinBytes_map_flatMap (segments : List (List Char)) :
    joinBytes (segments.map fun s => s.flatMap String.utf8EncodeChar)
      = (joinText segments).flatMap String.utf8EncodeChar := by
  induction segments with
  | nil => rfl
  | cons s segments ih =>
      have hslash : String.utf8EncodeChar '/' = [0x2F] := by decide
      unfold joinBytes joinText at ih ⊢
      rw [List.map_cons, List.flatMap_cons, List.flatMap_cons, List.flatMap_append,
        List.flatMap_cons, hslash, ih]
      rfl

/-- Without dot segments and escapes, the segments come back, each behind a slash. -/
theorem decode_path_of_dots {text : List Char} (hdots : ∀ s ∈ segments text, isDots s = false)
    (hescape : ∀ s ∈ segments text, hasEscape (s.flatMap String.utf8EncodeChar) = false) :
    Utf8.decodeLossy (decodeLenient (path text)) = String.ofList (joinText (segments text)) := by
  have hmap : ((segments text).map encodeSegment).map decodeLenient
      = (segments text).map fun s => s.flatMap String.utf8EncodeChar := by
    rw [List.map_map, List.map_inj_left]
    intro s hs
    exact Percent.decodeLenient_encode keepsEscapes_pathKeep (hescape s hs)
  have hbytes : Utf8.encode (String.ofList (joinText (segments text)))
      = (joinText (segments text)).flatMap String.utf8EncodeChar := by
    rw [Utf8.encode, String.toList_ofList]
  rw [path_of_dots hdots, decodeLenient_joinBytes, hmap, joinBytes_map_flatMap, ← hbytes,
    Utf8.decodeLossy_encode]

/-- **The texts that a decoding server reads back.** -/
theorem decode_path_iff :
    (Utf8.decodeLossy (decodeLenient (path ('/' :: rest)))).toList.takeWhile (· ≠ '?') = '/' :: rest ↔
      Untouched ('/' :: rest) ∧
        ∀ s ∈ segments ('/' :: rest), hasEscape (s.flatMap String.utf8EncodeChar) = false := by
  have hquestion : ∀ c ∈ pathText ('/' :: rest), c ≠ '?' := by
    intro c hc
    have hkept := List.mem_takeWhile_imp hc
    rw [Bool.and_eq_true, bne_iff_ne] at hkept
    exact hkept.1
  have hmem : ∀ c ∈ joinText (segments ('/' :: rest)), c ≠ '?' ∧ c ≠ '\\' := by
    intro c hc
    obtain ⟨s, hs, hcs⟩ := List.mem_flatMap.mp hc
    rcases List.mem_cons.mp hcs with rfl | hcs
    · decide
    · obtain ⟨hpath, hsep⟩ := mem_segments hs c hcs
      refine ⟨hquestion c hpath, ?_⟩
      rintro rfl
      cases hsep
  have htake : (joinText (segments ('/' :: rest))).takeWhile (· ≠ '?') = joinText (segments ('/' :: rest)) :=
    Search.takeWhile_ne_eq_self_iff.mpr fun hc => (hmem _ hc).1 rfl
  constructor
  · intro h
    have hsegments : ∀ s ∈ segments ('/' :: rest),
        (decodeLenient (encodeSegment s)).countP asciiByte ≤ s.countP asciiChar := by
      intro s _
      rw [← Utf8.countP_flatMap_encodeChar]
      exact (Percent.countP_decodeLenient_encode keepsEscapes_pathKeep keepsEscapes_asciiByte _).1
    have hcount : ('/' :: rest).countP asciiChar
        ≤ weight (fun s => (decodeLenient s).countP asciiByte) (resolve [] (segments ('/' :: rest))) := by
      have hbytes : (decodeLenient (path ('/' :: rest))).countP asciiByte
          = weight (fun s => (decodeLenient s).countP asciiByte) (resolve [] (segments ('/' :: rest))) := by
        rw [path_eq, decodeLenient_joinBytes, countP_joinBytes]
        unfold weight
        rw [List.map_map]
        rfl
      -- No stage on the way back makes an ASCII character, so none can be missing before it.
      calc ('/' :: rest).countP asciiChar
          = ((Utf8.decodeLossy (decodeLenient (path ('/' :: rest)))).toList.takeWhile (· ≠ '?')).countP
              asciiChar := by rw [h]
        _ ≤ (Utf8.decodeLossy (decodeLenient (path ('/' :: rest)))).toList.countP asciiChar :=
            (List.takeWhile_sublist _).countP_le
        _ ≤ (decodeLenient (path ('/' :: rest))).countP asciiByte := by
            rw [Utf8.decodeLossy, String.toList_ofList]
            exact Utf8.countP_decodeLossyLoop_le _ _
        _ = _ := hbytes
    obtain ⟨hpath, hlighter⟩ := of_countP_le_weight rfl hsegments hcount
    have hdots : ∀ s ∈ segments ('/' :: rest), isDots s = false := fun s hs =>
      Bool.eq_false_iff.mpr fun hdots => hlighter s hs (Or.inl hdots)
    have hescape : ∀ s ∈ segments ('/' :: rest), hasEscape (s.flatMap String.utf8EncodeChar) = false := by
      intro s hs
      rw [Bool.eq_false_iff]
      intro hescape
      have hlt :=
        (Percent.countP_decodeLenient_encode keepsEscapes_pathKeep keepsEscapes_asciiByte _).2 hescape
      rw [Utf8.countP_flatMap_encodeChar] at hlt
      exact hlighter s hs (Or.inr hlt)
    refine ⟨⟨hpath, ?_, hdots⟩, hescape⟩
    -- What comes back is joined with slashes only.
    rw [decode_path_of_dots hdots hescape, String.toList_ofList, htake] at h
    intro hback
    rw [← h] at hback
    exact (hmem _ hback).2 rfl
  · rintro ⟨h, hescape⟩
    rw [decode_path_of_dots h.dots hescape, String.toList_ofList, htake, joinText_segments h]

/-- Decoding makes no ASCII characters. -/
theorem countP_decode_path_le (text : List Char) :
    (Utf8.decodeLossy (decodeLenient (path text))).toList.countP asciiChar
      ≤ weight (fun s => (decodeLenient s).countP asciiByte) (resolve [] (segments text)) := by
  have hbytes : (decodeLenient (path text)).countP asciiByte
      = weight (fun s => (decodeLenient s).countP asciiByte) (resolve [] (segments text)) := by
    rw [path_eq, decodeLenient_joinBytes, countP_joinBytes]
    unfold weight
    rw [List.map_map]
    rfl
  rw [← hbytes, Utf8.decodeLossy, String.toList_ofList]
  exact Utf8.countP_decodeLossyLoop_le _ _

/-- The same without the cut: a text with a `?` is not read back either way. -/
theorem decode_path_eq_iff :
    Utf8.decodeLossy (decodeLenient (path ('/' :: rest))) = String.ofList ('/' :: rest) ↔
      Untouched ('/' :: rest) ∧
        ∀ s ∈ segments ('/' :: rest), hasEscape (s.flatMap String.utf8EncodeChar) = false := by
  constructor
  · intro h
    have hlist : (Utf8.decodeLossy (decodeLenient (path ('/' :: rest)))).toList = '/' :: rest := by
      rw [h, String.toList_ofList]
    have hsegments : ∀ s ∈ segments ('/' :: rest),
        (decodeLenient (encodeSegment s)).countP asciiByte ≤ s.countP asciiChar := by
      intro s _
      rw [← Utf8.countP_flatMap_encodeChar]
      exact (Percent.countP_decodeLenient_encode keepsEscapes_pathKeep keepsEscapes_asciiByte _).1
    have hcount := countP_decode_path_le ('/' :: rest)
    rw [hlist] at hcount
    obtain ⟨hpath, -⟩ := of_countP_le_weight rfl hsegments hcount
    -- The path ends before a `?`, so there is none.
    have hquestion : '?' ∉ '/' :: rest := by
      intro hmem
      rw [← hpath] at hmem
      have hkept := List.mem_takeWhile_imp hmem
      exact absurd hkept (by decide)
    apply decode_path_iff.mp
    rw [hlist]
    exact Search.takeWhile_ne_eq_self_iff.mpr hquestion
  · rintro ⟨h, hescape⟩
    rw [decode_path_of_dots h.dots hescape, joinText_segments h]

/-! ## The last segment of a path -/

/-- A segment that the parser leaves whole at the end of a path: nothing in it ends a segment or the
    path, nothing is dropped, and it is no dot segment. -/
structure Whole (u : List Char) : Prop where
  chars : ∀ c ∈ u, isSeparator c = false ∧ isTabOrNewline c = false ∧ c ≠ '?' ∧ c ≠ '#'
  last : ∀ c, u.getLast? = some c → isC0OrSpace c = false
  dots : isDots u = false

theorem pathText_eq_iff {text : List Char} :
    pathText text = text ↔ (∀ c ∈ text, isTabOrNewline c = false ∧ c ≠ '?' ∧ c ≠ '#') ∧
      ∀ c, text.getLast? = some c → isC0OrSpace c = false := by
  constructor
  · intro h
    have hclean : clean text = text := by
      have hsub := (clean_sublist text).trans (trimmed_sublist text)
      refine hsub.antisymm ?_
      have hpath := pathText_sublist text
      rwa [h] at hpath
    have htrim : (text.reverse.dropWhile isC0OrSpace).reverse = text := by
      refine (trimmed_sublist text).antisymm ?_
      have hsub := clean_sublist text
      rwa [hclean] at hsub
    constructor
    · intro c hc
      have hfilter : c ∈ clean text := by rwa [hclean]
      have htake : c ∈ pathText text := by rwa [h]
      have htabs := (List.mem_filter.mp hfilter).2
      have hcut := List.mem_takeWhile_imp htake
      rw [Bool.and_eq_true, bne_iff_ne, bne_iff_ne] at hcut
      exact ⟨by simpa using htabs, hcut⟩
    · intro c hc
      have hhead := List.head?_dropWhile_not isC0OrSpace text.reverse
      rw [← List.head?_reverse, ← htrim, List.reverse_reverse] at hc
      rw [hc] at hhead
      exact hhead
  · rintro ⟨hchars, hlast⟩
    have htrim : (text.reverse.dropWhile isC0OrSpace).reverse = text := by
      rw [← List.head?_reverse] at hlast
      cases hreverse : text.reverse with
      | nil => exact (List.reverse_eq_nil_iff.mp hreverse).symm
      | cons c cs =>
          have hc : isC0OrSpace c = false := hlast c (by rw [hreverse]; rfl)
          rw [List.dropWhile_cons_of_neg (by rw [hc]; exact nofun), ← hreverse, List.reverse_reverse]
    have hclean : clean text = text := by
      unfold clean
      rw [htrim, List.filter_eq_self]
      intro c hc
      rw [(hchars c hc).1]
      rfl
    unfold pathText
    rw [hclean, List.takeWhile_eq_self_iff]
    intro c hc
    obtain ⟨-, hquestion, hhash⟩ := hchars c hc
    rw [Bool.and_eq_true, bne_iff_ne, bne_iff_ne]
    exact ⟨hquestion, hhash⟩

variable {name u : List Char}

theorem isSeparator_eq_false_iff {c : Char} : isSeparator c = false ↔ c ≠ '/' ∧ c ≠ '\\' := by
  unfold isSeparator
  rw [Bool.or_eq_false_iff, beq_eq_false_iff_ne, beq_eq_false_iff_ne]

/-- Two segments, without a backslash in the second. -/
theorem segments_child (hname : Ordinary name) (hslash : '/' ∉ u) (hback : '\\' ∉ u)
    (h : pathText ('/' :: (name ++ '/' :: u)) = '/' :: (name ++ '/' :: u)) :
    segments ('/' :: (name ++ '/' :: u)) = [name, u] := by
  have hu : ∀ c ∈ u, isSeparator c = false := by
    intro c hc
    apply isSeparator_eq_false_iff.mpr
    constructor
    · rintro rfl
      exact hslash hc
    · rintro rfl
      exact hback hc
  rw [segments_eq h,
    List.splitOnP_append_cons_of_forall_mem (not_isSeparator_of_ordinary hname) '/' (by decide),
    List.splitOnP_eq_singleton hu]

theorem mem_child {c : Char} : c ∈ '/' :: (name ++ '/' :: u) ↔ c = '/' ∨ c ∈ name ∨ c ∈ u := by
  rw [List.mem_cons, List.mem_append, List.mem_cons]
  constructor
  · rintro (h | h | h | h)
    · exact Or.inl h
    · exact Or.inr (Or.inl h)
    · exact Or.inl h
    · exact Or.inr (Or.inr h)
  · rintro (h | h | h)
    · exact Or.inl h
    · exact Or.inr (Or.inl h)
    · exact Or.inr (Or.inr (Or.inr h))

theorem getLast?_child : ('/' :: (name ++ '/' :: u)).getLast? = some (u.getLast?.getD '/') := by
  rw [← List.cons_append, List.getLast?_append, List.getLast?_cons]
  rfl

theorem isTabOrNewline_of_ordinary (hname : Ordinary name) : ∀ c ∈ name, isTabOrNewline c = false := by
  intro c hc
  obtain ⟨hlt, -⟩ := hname.chars c hc
  rw [Bool.eq_false_iff]
  intro htab
  unfold isTabOrNewline at htab
  rw [Bool.or_eq_true, Bool.or_eq_true, beq_iff_eq, beq_iff_eq, beq_iff_eq] at htab
  rcases htab with (rfl | rfl) | rfl
  all_goals exact absurd hlt (by decide)

/-- Below an ordinary segment, only the last one can lose something. -/
theorem pathText_child_iff (hname : Ordinary name) :
    pathText ('/' :: (name ++ '/' :: u)) = '/' :: (name ++ '/' :: u) ↔
      (∀ c ∈ u, isTabOrNewline c = false ∧ c ≠ '?' ∧ c ≠ '#') ∧
        ∀ c, u.getLast? = some c → isC0OrSpace c = false := by
  rw [pathText_eq_iff, getLast?_child]
  constructor
  · rintro ⟨hchars, hlast⟩
    constructor
    · intro c hc
      exact hchars c (mem_child.mpr (Or.inr (Or.inr hc)))
    · intro c hc
      apply hlast
      rw [hc, Option.getD_some]
  · rintro ⟨hchars, hlast⟩
    constructor
    · intro c hc
      rcases mem_child.mp hc with rfl | hc | hc
      · decide
      · obtain ⟨-, -, -, hquestion, hhash⟩ := hname.chars c hc
        exact ⟨isTabOrNewline_of_ordinary hname c hc, hquestion, hhash⟩
      · exact hchars c hc
    · intro c hc
      cases hu : u.getLast? with
      | none =>
          rw [hu] at hc
          cases hc
          decide
      | some d =>
          rw [hu] at hc
          cases hc
          exact hlast _ hu

theorem Whole.backslash (h : Whole u) : '\\' ∉ u := by
  intro hc
  exact (isSeparator_eq_false_iff.mp (h.chars _ hc).1).2 rfl

/-- Below an ordinary segment, a text comes through untouched exactly when its last segment is whole. -/
theorem untouched_child_iff (hname : Ordinary name) (hslash : '/' ∉ u) :
    Untouched ('/' :: (name ++ '/' :: u)) ↔ Whole u := by
  constructor
  · intro h
    obtain ⟨hchars, hlast⟩ := (pathText_child_iff hname).mp h.pathText
    have hback : '\\' ∉ u := fun hc => h.backslash (mem_child.mpr (Or.inr (Or.inr hc)))
    refine ⟨?_, hlast, ?_⟩
    · intro c hc
      refine ⟨isSeparator_eq_false_iff.mpr ⟨?_, ?_⟩, hchars c hc⟩
      · rintro rfl
        exact hslash hc
      · rintro rfl
        exact hback hc
    · apply h.dots
      rw [segments_child hname hslash hback h.pathText]
      exact List.mem_cons_of_mem _ (List.mem_singleton_self u)
  · intro h
    have hpath := (pathText_child_iff hname).mpr ⟨fun c hc => (h.chars c hc).2, h.last⟩
    refine ⟨hpath, ?_, ?_⟩
    · intro hc
      rcases mem_child.mp hc with hc | hc | hc
      · cases hc
      · obtain ⟨-, -, hback, -⟩ := hname.chars _ hc
        exact hback rfl
      · exact h.backslash hc
    · rw [segments_child hname hslash h.backslash hpath]
      intro s hs
      rcases List.mem_cons.mp hs with rfl | hs
      · rw [isDots, hname.doubleDot, hname.singleDot]
        rfl
      · rw [List.mem_singleton.mp hs]
        exact h.dots

theorem Ordinary.whole (h : Ordinary u) : Whole u where
  chars := by
    intro c hc
    obtain ⟨-, -, -, hquestion, hhash⟩ := h.chars c hc
    exact ⟨not_isSeparator_of_ordinary h c hc, isTabOrNewline_of_ordinary h c hc, hquestion, hhash⟩
  last := by
    intro c hc
    obtain ⟨hlt, -⟩ := h.chars c (List.mem_of_getLast? hc)
    unfold isC0OrSpace
    rw [decide_eq_false_iff_not]
    omega
  dots := by
    rw [isDots, h.doubleDot, h.singleDot]
    rfl

/-- **Which last segments are sent as they stand.** -/
theorem path_child_iff (hname : Ordinary name)
    (hkeep : ∀ b ∈ name.flatMap String.utf8EncodeChar, pathKeep b = true) (hslash : '/' ∉ u) :
    path ('/' :: (name ++ '/' :: u)) = ('/' :: (name ++ '/' :: u)).flatMap String.utf8EncodeChar ↔
      Whole u ∧ ∀ b ∈ u.flatMap String.utf8EncodeChar, pathKeep b = true := by
  have hslashBytes : String.utf8EncodeChar '/' = [0x2F] := by decide
  rw [path_eq_encode_iff, untouched_child_iff hname hslash]
  refine and_congr_right fun _ => ?_
  simp only [List.flatMap_cons, List.flatMap_append, List.forall_mem_append, hslashBytes,
    List.forall_mem_singleton]
  constructor
  · rintro ⟨-, -, -, hu⟩
    exact hu
  · intro hu
    exact ⟨by decide, hkeep, by decide, hu⟩

/-- **Which last segments a decoding server reads back.** -/
theorem decode_path_child_iff (hname : Ordinary name)
    (hescape : hasEscape (name.flatMap String.utf8EncodeChar) = false) (hslash : '/' ∉ u) :
    (Utf8.decodeLossy (decodeLenient (path ('/' :: (name ++ '/' :: u))))).toList.takeWhile (· ≠ '?')
        = '/' :: (name ++ '/' :: u) ↔
      Whole u ∧ hasEscape (u.flatMap String.utf8EncodeChar) = false := by
  rw [decode_path_iff, untouched_child_iff hname hslash]
  refine and_congr_right fun h => ?_
  rw [segments_child hname hslash h.backslash ((untouched_child_iff hname hslash).mpr h).pathText]
  simp only [List.forall_mem_cons, hescape, true_and, List.not_mem_nil, false_implies, implies_true, and_true]

/-- The same for a server that does not cut what it has decoded. -/
theorem decode_path_child_eq_iff (hname : Ordinary name)
    (hescape : hasEscape (name.flatMap String.utf8EncodeChar) = false) (hslash : '/' ∉ u) :
    Utf8.decodeLossy (decodeLenient (path ('/' :: (name ++ '/' :: u)))) =
      String.ofList ('/' :: (name ++ '/' :: u)) ↔
      Whole u ∧ hasEscape (u.flatMap String.utf8EncodeChar) = false := by
  rw [decode_path_eq_iff, ← decode_path_iff]
  exact decode_path_child_iff hname hescape hslash

end Whatwg
