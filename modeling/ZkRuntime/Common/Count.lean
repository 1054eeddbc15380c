import Mathlib.Algebra.BigOperators.Group.Finset.Piecewise
import Mathlib.Data.Finset.Card
import Mathlib.Data.Finset.Range
/-!
# Counting the members of a family

A system with any number of threads keeps them in a family indexed by the
order they began in. `count` is the number of those below an index that a
predicate holds of; what a step of one thread does to it is said once, and
counters that the threads share are compared with it.
-/

namespace ZkRuntime

variable {β : Type*}

/-- The members below `n` that `p` holds of. -/
def members (p : β → Bool) (f : ℕ → Option β) (n : ℕ) : Finset ℕ :=
  (Finset.range n).filter fun i => (f i).any p = true

/-- **Their number.** -/
def count (p : β → Bool) (f : ℕ → Option β) (n : ℕ) : ℕ := (members p f n).card

variable {p q : β → Bool} {f g : ℕ → Option β} {n i : ℕ} {x y : β}

theorem mem_members : i ∈ members p f n ↔ i < n ∧ ∃ x, f i = some x ∧ p x = true := by
  simp [members, Option.any_eq_true]

/-- A stronger predicate holds of fewer. -/
theorem count_le (h : ∀ x, p x = true → q x = true) : count p f n ≤ count q f n := by
  refine Finset.card_le_card fun i hi => ?_
  obtain ⟨hin, x, hx, hp⟩ := mem_members.1 hi
  exact mem_members.2 ⟨hin, x, hx, h x hp⟩

theorem count_pos (hi : i < n) (hx : f i = some x) (hp : p x = true) : 0 < count p f n :=
  Finset.card_pos.2 ⟨i, mem_members.2 ⟨hi, x, hx, hp⟩⟩

/-- All of them. -/
theorem count_eq_self (h : ∀ i < n, ∃ x, f i = some x ∧ p x = true) : count p f n = n := by
  have hall : members p f n = Finset.range n := by
    ext i
    rw [mem_members, Finset.mem_range]
    exact ⟨fun hi => hi.1, fun hi => ⟨hi, h i hi⟩⟩
  rw [count, hall, Finset.card_range]

/-! ## Totals -/

/-- The total of a measure over the members below `n`. -/
def total (m : β → ℕ) (f : ℕ → Option β) (n : ℕ) : ℕ := ∑ i ∈ Finset.range n, (f i).elim 0 m

variable {m : β → ℕ}

/-- **One member moves**, and the total changes by what it does. -/
theorem total_update (hi : i < n) (hx : f i = some x) :
    total m (Function.update f i (some y)) n + m x = total m f n + m y := by
  have hsum : ∀ h : ℕ → Option β, total m h n =
      (h i).elim 0 m + ∑ k ∈ (Finset.range n).erase i, (h k).elim 0 m := fun h =>
    (Finset.add_sum_erase _ (fun k => (h k).elim 0 m) (Finset.mem_range.2 hi)).symm
  have hrest : ∑ k ∈ (Finset.range n).erase i, (Function.update f i (some y) k).elim 0 m =
      ∑ k ∈ (Finset.range n).erase i, (f k).elim 0 m := by
    refine Finset.sum_congr rfl fun k hk => ?_
    rw [Function.update_of_ne (Finset.ne_of_mem_erase hk)]
  rw [hsum, hsum f, hrest, Function.update_self, hx]
  simp only [Option.elim_some]
  omega

/-- **A new member.** -/
theorem total_succ : total m (Function.update f n (some y)) (n + 1) = total m f n + m y := by
  have hold : ∑ i ∈ Finset.range n, (Function.update f n (some y) i).elim 0 m = total m f n := by
    refine Finset.sum_congr rfl fun i hi => ?_
    have hne : i ≠ n := by have := Finset.mem_range.1 hi; omega
    rw [Function.update_of_ne hne]
  rw [total, Finset.sum_range_succ, hold, Function.update_self, Option.elim_some]

theorem total_eq_zero (h : ∀ i < n, ∀ x, f i = some x → m x = 0) : total m f n = 0 := by
  refine Finset.sum_eq_zero fun i hi => ?_
  cases hx : f i with
  | none => rfl
  | some x => exact h i (Finset.mem_range.1 hi) x hx

/-- The count is the total of the indicator. -/
theorem count_eq_total : count p f n = total (fun x => (p x).toNat) f n := by
  rw [count, members, Finset.card_filter, total]
  refine Finset.sum_congr rfl fun i _ => ?_
  cases f i with
  | none => rfl
  | some x => cases h : p x <;> simp [h]

/-- **One member moves.** -/
theorem count_update (hi : i < n) (hx : f i = some x) :
    count p (Function.update f i (some y)) n + (p x).toNat = count p f n + (p y).toNat := by
  rw [count_eq_total, count_eq_total]
  exact total_update hi hx

/-- A member that moves within `p`, or outside of it, is counted the same. -/
theorem count_update_eq (hi : i < n) (hx : f i = some x) (hp : p y = p x) :
    count p (Function.update f i (some y)) n = count p f n := by
  have := count_update (p := p) (y := y) hi hx
  rw [hp] at this
  omega

/-- **A new member.** -/
theorem count_succ :
    count p (Function.update f n (some y)) (n + 1) = count p f n + (p y).toNat := by
  rw [count_eq_total, count_eq_total]
  exact total_succ

end ZkRuntime
