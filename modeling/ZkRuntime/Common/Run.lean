import Mathlib.Order.Monotone.Basic
import Mathlib.Order.Basic
/-!
# Systems and their runs

A system is a set of initial states and a partial step: a state and an
action have at most one successor, and every choice the environment makes
is part of the action. A run is an infinite sequence of steps. Where a
system has an idle action every finite execution extends to a run
(`Run.ofScript`), so nothing is lost by having only infinite ones, and a
statement about a run can name its instants by their index.

Three rules carry the safety arguments. `Run.invariant` is induction over
the run. `Run.exists_entry` finds the last instant at which a state
predicate was entered, which is how a fact about what a step *did* is
recovered from where the run *is*. `Run.rel_of_le` turns a relation every
step respects into one between any two instants.
-/

namespace ZkRuntime

variable {σ α : Type*}

/-- **A system**: its initial states, and its partial step. -/
structure System (σ α : Type*) where
  /-- The states a run may begin in. -/
  init : σ → Prop
  /-- The successor of a state under an action, where there is one. -/
  step : σ → α → Option σ

namespace System

variable {M : System σ α}

/-- **A run**: an infinite sequence of steps from an initial state. -/
structure Run (M : System σ α) where
  state : ℕ → σ
  act : ℕ → α
  start : M.init (state 0)
  next : ∀ n, M.step (state n) (act n) = some (state (n + 1))

namespace Run

variable (r : M.Run)

/-- **Induction over a run.** -/
theorem invariant {I : σ → Prop} (h0 : ∀ s, M.init s → I s)
    (hs : ∀ s a s', I s → M.step s a = some s' → I s') : ∀ n, I (r.state n) := by
  intro n
  induction n with
  | zero => exact h0 _ r.start
  | succ n ih => exact hs _ _ _ ih (r.next n)

/-- **The last entry.** A predicate that holds at `n` and not at the start
was entered by some step before `n`, and has held ever since. -/
theorem exists_entry {P : σ → Prop} {n : ℕ} (h0 : ∀ s, M.init s → ¬ P s) (hn : P (r.state n)) :
    ∃ m, m < n ∧ ¬ P (r.state m) ∧ ∀ k, m < k → k ≤ n → P (r.state k) := by
  induction n with
  | zero => exact absurd hn (h0 _ r.start)
  | succ n ih =>
    by_cases hP : P (r.state n)
    · obtain ⟨m, hmn, hm, hk⟩ := ih hP
      refine ⟨m, by omega, hm, fun k h1 h2 => ?_⟩
      rcases Nat.lt_or_ge n k with h | h
      · have : k = n + 1 := by omega
        exact this ▸ hn
      · exact hk k h1 h
    · refine ⟨n, by omega, hP, fun k h1 h2 => ?_⟩
      have : k = n + 1 := by omega
      exact this ▸ hn

/-- **The first exit.** A predicate that holds at `m` and not at `n` is left
by some step in between. -/
theorem exists_exit {P : σ → Prop} {m n : ℕ} (hmn : m ≤ n) (hm : P (r.state m))
    (hn : ¬ P (r.state n)) : ∃ k, m ≤ k ∧ k < n ∧ P (r.state k) ∧ ¬ P (r.state (k + 1)) := by
  induction n with
  | zero =>
    have : m = 0 := by omega
    exact absurd (this ▸ hm) hn
  | succ n ih =>
    by_cases hP : P (r.state n)
    · refine ⟨n, ?_, by omega, hP, hn⟩
      by_contra hlt
      have : m = n + 1 := by omega
      exact hn (this ▸ hm)
    · have hle : m ≤ n := by
        by_contra hlt
        have : m = n + 1 := by omega
        exact hn (this ▸ hm)
      obtain ⟨k, h1, h2, h3⟩ := ih hle hP
      exact ⟨k, h1, by omega, h3⟩

/-- **A relation every step respects holds between any two instants.** -/
theorem rel_of_le {R : σ → σ → Prop} (hrefl : ∀ s, R s s)
    (htrans : ∀ s t u, R s t → R t u → R s u)
    (hstep : ∀ n, R (r.state n) (r.state (n + 1))) {m n : ℕ} (h : m ≤ n) :
    R (r.state m) (r.state n) := by
  induction n with
  | zero =>
    have : m = 0 := by omega
    exact this ▸ hrefl _
  | succ n ih =>
    rcases Nat.lt_or_ge n m with hlt | hge
    · have : m = n + 1 := by omega
      exact this ▸ hrefl _
    · exact htrans _ _ _ (ih hge) (hstep n)

/-- **What no step of an interval changes** is the same at its ends. -/
theorem eq_of_le {β : Type*} {f : σ → β} {m n : ℕ} (h : m ≤ n)
    (hstep : ∀ i, m ≤ i → i < n → f (r.state (i + 1)) = f (r.state i)) :
    f (r.state n) = f (r.state m) := by
  induction n with
  | zero =>
    have : m = 0 := by omega
    exact this ▸ rfl
  | succ n ih =>
    rcases Nat.lt_or_ge n m with hlt | hge
    · have : m = n + 1 := by omega
      exact this ▸ rfl
    · exact (hstep n hge (by omega)).trans (ih hge fun i hi hin => hstep i hi (by omega))

end Run

/-! ## Finite executions -/

/-- The state after `n` steps of a script, the last one reached once the
script has run out or its next action is not enabled. -/
def play (M : System σ α) : σ → List α → ℕ → σ
  | s, [], _ => s
  | s, _ :: _, 0 => s
  | s, a :: as, n + 1 =>
    match M.step s a with
    | some s' => play M s' as n
    | none => s

/-- Every action of the script is enabled in its turn. -/
def plays (M : System σ α) : σ → List α → Bool
  | _, [] => true
  | s, a :: as =>
    match M.step s a with
    | some s' => plays M s' as
    | none => false

@[simp] theorem play_zero (s : σ) (as : List α) : M.play s as 0 = s := by
  cases as <;> rfl

@[simp] theorem play_nil (s : σ) (n : ℕ) : M.play s [] n = s := rfl

/-- The run a script makes takes its steps in order and then idles. -/
theorem step_play {idle : α} (hidle : ∀ s, M.step s idle = some s) :
    ∀ (as : List α) (s : σ), M.plays s as = true → ∀ n,
      M.step (M.play s as n) (as.getD n idle) = some (M.play s as (n + 1)) := by
  intro as
  induction as with
  | nil => intro s _ n; simp [hidle]
  | cons a as ih =>
    intro s h n
    cases hstep : M.step s a with
    | none => simp [plays, hstep] at h
    | some s' =>
      simp only [plays, hstep] at h
      cases n with
      | zero => simp [play, hstep]
      | succ n =>
        simp only [play, hstep, List.getD_cons_succ]
        exact ih s' h n

/-- The state a script ends in, where every action of it is enabled. -/
def finish (M : System σ α) : σ → List α → Option σ
  | s, [] => some s
  | s, a :: as =>
    match M.step s a with
    | some s' => finish M s' as
    | none => none

/-- **A script that ends is played to its end.** -/
theorem plays_of_finish : ∀ {as : List α} {s s' : σ}, M.finish s as = some s' →
    M.plays s as = true ∧ M.play s as as.length = s' := by
  intro as
  induction as with
  | nil => rintro s s' ⟨⟩; exact ⟨rfl, rfl⟩
  | cons a as ih =>
    intro s s' h
    cases hstep : M.step s a with
    | none => simp [finish, hstep] at h
    | some t =>
      simp only [finish, hstep] at h
      simp only [plays, play, hstep, List.length_cons]
      exact ih h

/-- The states a script passes through. -/
def trail (M : System σ α) : σ → List α → List σ
  | s, [] => [s]
  | s, a :: as =>
    s ::
      match M.step s a with
      | some s' => trail M s' as
      | none => []

/-- **The run a script makes has no other states.** -/
theorem play_mem_trail : ∀ (as : List α) (s : σ) (n : ℕ), M.play s as n ∈ M.trail s as := by
  intro as
  induction as with
  | nil => intro s n; simp [trail]
  | cons a as ih =>
    intro s n
    cases n with
    | zero => simp [trail]
    | succ n =>
      cases hstep : M.step s a with
      | none => simp [play, trail, hstep]
      | some s' =>
        simp only [play, trail, hstep, List.mem_cons]
        exact .inr (ih s' n)

/-- **A finite execution is a run**, idling once it is over. -/
def Run.ofScript (s : σ) (as : List α) (idle : α) (hidle : ∀ s, M.step s idle = some s)
    (hinit : M.init s) (h : M.plays s as = true) : M.Run where
  state := M.play s as
  act := fun n => as.getD n idle
  start := by rw [play_zero]; exact hinit
  next := step_play hidle as s h

end System

end ZkRuntime
