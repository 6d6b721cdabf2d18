import Mathlib.Data.Nat.Basic


/-! # `Gekko.Lib.Versions` — a copy of a document that is exchanged for newer ones

A publisher serves one document at a time and exchanges it now and then; the documents are numbered in
the order in which they are served. Somebody keeps a copy. To renew it takes two steps with time in
between: a document is read, and later what was read is stored.

A `Ticket` is what goes from the first step to the second: the number of the document, and how often the
copy had been renewed when it was read. A ticket that is still `Fresh` when it is stored never takes the
copy back to an older document (`installed_le_install`); one that is not can.

The rules say how tickets fare while others act: a `Valid` ticket stays valid whatever is published and
stored.
-/

namespace Versions

structure Store where
  /-- The number of the document that is served. -/
  current : Nat
  /-- The number of the document that was copied last. -/
  installed : Nat
  /-- How often the copy has been renewed. -/
  installs : Nat
  deriving DecidableEq, Repr

structure Ticket where
  version : Nat
  installs : Nat
  deriving DecidableEq, Repr

namespace Store

/-- The next document takes the place of the one that is served. -/
def publish (s : Store) : Store := { s with current := s.current + 1 }

/-- The document that is served now. -/
def read (s : Store) : Ticket := ⟨s.current, s.installs⟩

/-- The copy is exchanged for the document that was read. -/
def install (s : Store) (t : Ticket) : Store := { s with installed := t.version, installs := s.installs + 1 }

/-- The copy has not been renewed since the document was read. -/
def Fresh (s : Store) (t : Ticket) : Prop := t.installs = s.installs

instance (s : Store) (t : Ticket) : Decidable (s.Fresh t) := inferInstanceAs (Decidable (_ = _))

/-- The copy is one of a document that has been served. -/
def Sound (s : Store) : Prop := s.installed ≤ s.current

/-- What holds of a ticket from the reading on. -/
structure Valid (s : Store) (t : Ticket) : Prop where
  version : t.version ≤ s.current
  installs : t.installs ≤ s.installs
  newer : s.Fresh t → s.installed ≤ t.version

variable {s : Store} {t u : Ticket}

theorem Sound.publish (h : s.Sound) : s.publish.Sound := Nat.le_succ_of_le h

theorem Sound.install (h : s.Valid t) : (s.install t).Sound := h.version

theorem Sound.read (h : s.Sound) : s.Valid s.read := ⟨Nat.le_refl _, Nat.le_refl _, fun _ => h⟩

theorem fresh_read (s : Store) : s.Fresh s.read := rfl

theorem Valid.publish (h : s.Valid t) : s.publish.Valid t :=
  ⟨Nat.le_succ_of_le h.version, h.installs, h.newer⟩

/-- A ticket outlives the storing of another one, but is not fresh any more. -/
theorem Valid.install (h : s.Valid t) : (s.install u).Valid t where
  version := h.version
  installs := Nat.le_succ_of_le h.installs
  newer := by
    intro hfresh
    have hcount : t.installs = s.installs + 1 := hfresh
    have hle := h.installs
    omega

/-- **A fresh ticket does not take the copy back.** -/
theorem installed_le_install (h : s.Valid t) (hfresh : s.Fresh t) : s.installed ≤ (s.install t).installed :=
  h.newer hfresh

end Store

end Versions
