import Mathlib.Logic.Basic
import Mathlib.Tactic.Common

/-!
# What a computation raises

`RaisesOnly P x` says that the error of `x`, if there is one, satisfies `P`.  The rules follow the
shape of a computation: a value, a `throw`, a bind, a change of the errors.
-/

namespace Ghos

universe u v

variable {ε δ : Type u} {α β : Type v}

/-- Nothing but `P` is raised. -/
def RaisesOnly (P : ε → Prop) (x : Except ε α) : Prop := ∀ e, x = .error e → P e

variable {P : ε → Prop} {x : Except ε α} {f : α → Except ε β}

@[simp] theorem raisesOnly_ok {a : α} : RaisesOnly P (.ok a : Except ε α) := by
  intro e h
  cases h

@[simp] theorem raisesOnly_pure {a : α} : RaisesOnly P (pure a : Except ε α) := raisesOnly_ok

@[simp] theorem raisesOnly_error {e : ε} : RaisesOnly P (.error e : Except ε α) ↔ P e := by
  constructor
  · intro h
    exact h e rfl
  · rintro h _ ⟨⟩
    exact h

@[simp] theorem raisesOnly_throw {e : ε} : RaisesOnly P (throw e : Except ε α) ↔ P e :=
  raisesOnly_error

/-- The second computation counts where the first one returns. -/
theorem raisesOnly_bind :
    RaisesOnly P (x >>= f) ↔ RaisesOnly P x ∧ ∀ a, x = .ok a → RaisesOnly P (f a) := by
  cases x with
  | error e =>
    show RaisesOnly P (.error e) ↔ _
    simp
  | ok a =>
    show RaisesOnly P (f a) ↔ _
    simp

@[simp] theorem raisesOnly_map {g : α → β} : RaisesOnly P (g <$> x) ↔ RaisesOnly P x := by
  cases x with
  | error e =>
    show RaisesOnly P (.error e) ↔ _
    simp
  | ok a =>
    show RaisesOnly P (.ok (g a)) ↔ _
    simp

theorem RaisesOnly.bind (hx : RaisesOnly P x) (hf : ∀ a, RaisesOnly P (f a)) :
    RaisesOnly P (x >>= f) :=
  raisesOnly_bind.2 ⟨hx, fun a _ => hf a⟩

theorem raisesOnly_mapError {Q : δ → Prop} {g : ε → δ} :
    RaisesOnly Q (x.mapError g) ↔ RaisesOnly (fun e => Q (g e)) x := by
  cases x <;> simp [Except.mapError]

/-- Where no error is allowed, the computation returns. -/
theorem raisesOnly_iff_exists (hP : ∀ e, ¬ P e) : RaisesOnly P x ↔ ∃ a, x = .ok a := by
  cases x <;> simp [hP]

/-- A change of the errors passes a bind. -/
theorem mapError_bind {g : ε → δ} :
    (x >>= f).mapError g = x.mapError g >>= fun a => (f a).mapError g := by
  cases x <;> rfl

end Ghos
