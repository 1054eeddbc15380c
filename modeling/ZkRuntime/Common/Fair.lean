import ZkRuntime.Common.Run
/-!
# Fair runs

Liveness rests on one rule. A kind of action is treated fairly where it is
not enabled for ever without being taken; a predicate that enables it, and
that other actions keep, is then left by an action of the kind.
-/

namespace ZkRuntime

namespace System

variable {σ α : Type*} {M : System σ α}

/-- An action of the kind `A` has a successor. -/
def Enabled (M : System σ α) (A : α → Prop) (s : σ) : Prop := ∃ a, A a ∧ (M.step s a).isSome = true

namespace Run

/-- **Weak fairness** towards the actions of the kind `A`. -/
def WeaklyFair (r : M.Run) (A : α → Prop) : Prop :=
  ∀ m, ∃ n, m ≤ n ∧ (A (r.act n) ∨ ¬ M.Enabled A (r.state n))

/-- **An action of the kind is taken** where `P` enables it and is kept until
then. -/
theorem WeaklyFair.exists_act {r : M.Run} {A : α → Prop} (hfair : r.WeaklyFair A) {P : σ → Prop} {m : ℕ}
    (hm : P (r.state m)) (hen : ∀ n, m ≤ n → P (r.state n) → M.Enabled A (r.state n))
    (hkeep : ∀ n, m ≤ n → P (r.state n) → ¬ A (r.act n) → P (r.state (n + 1))) :
    ∃ n, m ≤ n ∧ P (r.state n) ∧ A (r.act n) := by
  by_contra hnone
  -- it would be kept for ever
  have hall : ∀ n, m ≤ n → P (r.state n) := by
    intro n hmn
    induction n, hmn using Nat.le_induction with
    | base => exact hm
    | succ n hmn ih => exact hkeep n hmn ih fun ha => hnone ⟨n, hmn, ih, ha⟩
  obtain ⟨n, hmn, ha | hdis⟩ := hfair m
  · exact hnone ⟨n, hmn, hall n hmn, ha⟩
  · exact hdis (hen n hmn (hall n hmn))

/-- What is not enabled from some instant on is treated fairly. -/
theorem weaklyFair_of_disabled {r : M.Run} {A : α → Prop} {N : ℕ} (h : ∀ n, N ≤ n → ¬ M.Enabled A (r.state n)) :
    r.WeaklyFair A := fun m => ⟨max m N, Nat.le_max_left .., .inr (h _ (Nat.le_max_right ..))⟩

end Run

/-- A script that has run out changes nothing. -/
theorem play_of_length_le : ∀ (as : List α) (s : σ) (n : ℕ), as.length ≤ n → M.play s as n = M.play s as as.length := by
  intro as
  induction as with
  | nil => intro s n _; rfl
  | cons a as ih =>
    intro s n hn
    cases n with
    | zero => exact absurd hn (by simp)
    | succ n =>
      rw [List.length_cons]
      unfold play
      cases M.step s a with
      | none => rfl
      | some s' => exact ih s' n (by simpa using hn)

end System

end ZkRuntime
