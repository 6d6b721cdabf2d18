import Mathlib.Logic.Basic


/-! # `Gekko.Lib.Checks` — sequences of checks that may fail

A validator is a sequence of steps in `Except`: each either yields what the next one needs or ends the
sequence with an error. The first set of rules takes apart when such a sequence succeeds, step by step,
so that no proof about a validator has to follow its error paths. The second is about those paths:
`Within P x` says that whatever `x` fails with is in `P`, and a sequence is within `P` when each of its
steps is, as far as it is reached.
-/

namespace Checks

universe u v

variable {ε : Type u} {α β : Type v}

/-- Fail with `e` unless `p`. -/
def check (p : Prop) [Decidable p] (e : ε) : Except ε Unit := if p then .ok () else .error e

/-- Fail with `e` where there is nothing. -/
def orFail (e : ε) : Option α → Except ε α
  | some a => .ok a
  | none => .error e

/-- Fail with the error where there is one. -/
def failOn : Option ε → Except ε Unit
  | some e => .error e
  | none => .ok ()

@[simp] theorem failOn_eq_ok {o : Option ε} {u : Unit} : failOn o = .ok u ↔ o = none := by
  cases o with
  | none => simp [failOn]
  | some e => simp [failOn]

@[simp] theorem check_eq_ok {p : Prop} [Decidable p] {e : ε} {u : Unit} : check p e = .ok u ↔ p := by
  unfold check
  split
  · rename_i hp
    simp [hp]
  · rename_i hp
    simp [hp]

@[simp] theorem orFail_eq_ok {e : ε} {o : Option α} {a : α} : orFail e o = .ok a ↔ o = some a := by
  cases o with
  | none => simp [orFail]
  | some b => simp [orFail]

/-- A sequence succeeds when its first step does and the rest does on what that yields. -/
theorem bind_eq_ok {x : Except ε α} {f : α → Except ε β} {b : β} :
    (x >>= f) = .ok b ↔ ∃ a, x = .ok a ∧ f a = .ok b := by
  cases x with
  | error e => simp [bind, Except.bind]
  | ok a => simp [bind, Except.bind]

/-- The same where the first step yields nothing. -/
theorem bind_unit_eq_ok {β : Type} {x : Except ε Unit} {f : Unit → Except ε β} {b : β} :
    (x >>= f) = .ok b ↔ x = .ok () ∧ f () = .ok b := by
  rw [bind_eq_ok]
  exact ⟨fun ⟨_, hx, hf⟩ => ⟨hx, hf⟩, fun ⟨hx, hf⟩ => ⟨(), hx, hf⟩⟩

/-! ## Which errors there can be -/

/-- Whatever `x` fails with satisfies `P`. -/
def Within (P : ε → Prop) (x : Except ε α) : Prop := ∀ e, x = .error e → P e

variable {P : ε → Prop}

@[simp] theorem within_ok {a : α} : Within P (.ok a : Except ε α) := fun _ h => nomatch h

@[simp] theorem within_error {e : ε} : Within P (.error e : Except ε α) ↔ P e := by
  constructor
  · exact fun h => h e rfl
  · rintro he _ ⟨⟩
    exact he

@[simp] theorem within_check {p : Prop} [Decidable p] {e : ε} : Within P (check p e) ↔ ¬ p → P e := by
  unfold check
  split
  · rename_i hp
    simp [hp]
  · rename_i hp
    simp [hp]

@[simp] theorem within_orFail {e : ε} {o : Option α} : Within P (orFail e o) ↔ (o = none → P e) := by
  cases o with
  | none => simp [orFail]
  | some a => simp [orFail]

@[simp] theorem within_failOn {o : Option ε} : Within P (failOn o) ↔ ∀ e, o = some e → P e := by
  cases o with
  | none => simp [failOn]
  | some e => simp [failOn]

/-- A sequence stays within `P` when its first step does, and the rest on whatever that yields. -/
theorem within_bind {x : Except ε α} {f : α → Except ε β} :
    Within P (x >>= f) ↔ Within P x ∧ ∀ a, x = .ok a → Within P (f a) := by
  cases x with
  | error e => simp [bind, Except.bind]
  | ok a => simp [bind, Except.bind]

theorem within_bind_unit {β : Type} {x : Except ε Unit} {f : Unit → Except ε β} :
    Within P (x >>= f) ↔ Within P x ∧ (x = .ok () → Within P (f ())) := by
  rw [within_bind]
  exact ⟨fun h => ⟨h.1, h.2 ()⟩, fun h => ⟨h.1, fun _ => h.2⟩⟩

/-- A sequence whose first step fails outside `P` stays within `P` only when that step succeeds. -/
theorem within_bind_of_outside {x : Except ε α} {f : α → Except ε β} (hx : Within (fun e => ¬ P e) x) :
    Within P (x >>= f) ↔ ∃ a, x = .ok a ∧ Within P (f a) := by
  rw [within_bind]
  cases x with
  | error e => simp [within_error.mp hx]
  | ok a => simp

end Checks
