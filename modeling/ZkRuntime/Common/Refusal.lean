import Mathlib.Data.Nat.Notation
/-!
# Computations that may refuse

A computation in `Except` is `Legal` for a postcondition where it returns
what the condition allows, and raises only what is expected. The rules below
follow the shape of a computation; `refine`d in turn they leave its tests.
-/

namespace ZkRuntime

universe u v

variable {ε : Type u} {α β : Type v}

/-- **Returns only what `P` allows, and raises only what `E` allows.** -/
def Legal (E : ε → Prop) (x : Except ε α) (P : α → Prop) : Prop :=
  match x with
  | .ok a => P a
  | .error e => E e

namespace Legal

variable {E : ε → Prop} {x : Except ε α} {f : α → Except ε β} {P Q : α → Prop} {R : β → Prop}

theorem pure {a : α} (h : P a) : Legal E (Pure.pure a) P := h

theorem throw {e : ε} (h : E e) : Legal E (.error e) P := h

theorem mono (h : Legal E x P) (hPQ : ∀ a, P a → Q a) : Legal E x Q := by
  cases x with
  | ok a => exact hPQ a h
  | error e => exact h

/-- **Sequencing**: the second part starts from what the first one ends in. -/
theorem bind (h : Legal E x P) (hf : ∀ a, P a → Legal E (f a) R) : Legal E (x >>= f) R := by
  cases x with
  | ok a => exact hf a h
  | error e => exact h

theorem ite {c : Prop} [Decidable c] {y z : Except ε α} (hy : c → Legal E y P) (hz : ¬ c → Legal E z P) :
    Legal E (if c then y else z) P := by
  by_cases hc : c
  · rw [if_pos hc]
    exact hy hc
  · rw [if_neg hc]
    exact hz hc

/-- What is returned. -/
theorem of_eq_ok (h : Legal E x P) {a : α} (hx : x = .ok a) : P a := by
  subst hx
  exact h

/-- What is raised. -/
theorem of_eq_error (h : Legal E x P) {e : ε} (hx : x = .error e) : E e := by
  subst hx
  exact h

end Legal

end ZkRuntime
