import ZkRuntime.Bench.Helpers.BarrierSteps
/-!
# What holds of the barrier

`Agreed`: a message one party has accepted in a place of the other's was
accepted there by the other. `SupervisorPlaced` and `RunnerPlaced`: what each
has done by the place it is at. All of it is kept by every step.
-/

namespace ZkRuntime

namespace Bench

namespace Barrier

open PyJson Events

variable {F : Type} {runId : Text} {E E' : Exchange F}

/-! ### Agreement -/

/-- The places of the Supervisor's messages. -/
def OfSupervisor (k : ℕ) : Prop := k = 0 ∨ k = 2 ∨ k = 3

/-- The places of the Runner's. -/
def OfRunner (k : ℕ) : Prop := k = 1 ∨ k = 4

/-- **What was accepted in a place is what its sender accepted there.** -/
structure Agreed (runId : Text) (E : Exchange F) : Prop where
  supervisor : E.supervisor.link.Valid runId
  runner : E.runner.link.Valid runId
  ofSupervisor : ∀ k m, E.runner.link.accepted[k]? = some m → OfSupervisor k →
    E.supervisor.link.accepted[k]? = some m
  ofRunner : ∀ k m, E.supervisor.link.accepted[k]? = some m → OfRunner k →
    E.runner.link.accepted[k]? = some m
  toRunner : ∀ m ∈ E.toRunner, ∃ k, OfSupervisor k ∧ E.supervisor.link.accepted[k]? = some m
  toSupervisor : ∀ m ∈ E.toSupervisor, ∃ k, OfRunner k ∧ E.runner.link.accepted[k]? = some m
  framing : ∀ k m, E.supervisor.pc = .framing k m → OfSupervisor k ∧ E.supervisor.link.accepted[k]? = some m
  framingRunner : ∀ m, E.runner.pc = .framing m → ∃ k, OfRunner k ∧ E.runner.link.accepted[k]? = some m

theorem agreed_start (runId : Text) (target : Value F) (bytes samples : ℕ) (now : ℤ) :
    Agreed runId (start runId target bytes samples now) where
  supervisor := Endpoint.valid_new runId
  runner := Endpoint.valid_new runId
  ofSupervisor k m h := by simp [start, Endpoint.new] at h
  ofRunner k m h := by simp [start, Endpoint.new] at h
  toRunner m h := by simp [start] at h
  toSupervisor m h := by simp [start] at h
  framing k m h := by simp [start] at h
  framingRunner m h := by simp [start] at h

/-- **One is a beginning of the other.** -/
theorem Agreed.isPrefix (h : Agreed runId E) :
    E.supervisor.link.accepted <+: E.runner.link.accepted ∨ E.runner.link.accepted <+: E.supervisor.link.accepted := by
  have hplace : ∀ (k : ℕ) (m : Value F), E.supervisor.link.accepted[k]? = some m → k < 5 := by
    intro k m hk
    obtain ⟨t, ht⟩ := h.supervisor.placed k m hk
    exact ht.place
  -- in every place both have, they have the same
  have hsame : ∀ (k : ℕ) (a b : Value F), E.supervisor.link.accepted[k]? = some a → E.runner.link.accepted[k]? = some b → a = b := by
    intro k a b ha hb
    have hk := hplace k a ha
    have hwho : OfSupervisor k ∨ OfRunner k := by
      unfold OfSupervisor OfRunner
      omega
    rcases hwho with hwho | hwho
    · exact Option.some.inj (ha.symm.trans (h.ofSupervisor k b hb hwho))
    · exact Option.some.inj ((h.ofRunner k a ha hwho).symm.trans hb)
  have hbegins : ∀ xs ys : List (Value F), xs.length ≤ ys.length →
      (∀ (k : ℕ) a b, xs[k]? = some a → ys[k]? = some b → a = b) → xs <+: ys := by
    intro xs ys hlen hxy
    rw [List.prefix_iff_getElem?]
    intro i hi
    have hi' : i < ys.length := by omega
    rw [List.getElem?_eq_getElem hi']
    exact congrArg some (hxy i _ _ (List.getElem?_eq_getElem hi) (List.getElem?_eq_getElem hi')).symm
  rcases Nat.le_total E.supervisor.link.accepted.length E.runner.link.accepted.length with hle | hle
  · exact .inl (hbegins _ _ hle hsame)
  · exact .inr (hbegins _ _ hle fun k a b ha hb => (hsame k b a hb ha).symm)

/-- A step in which neither accepts anything. -/
theorem Agreed.frame (h : Agreed runId E) (hs : E'.supervisor.link.Valid runId) (hr : E'.runner.link.Valid runId)
    (hsa : E'.supervisor.link.accepted = E.supervisor.link.accepted)
    (hra : E'.runner.link.accepted = E.runner.link.accepted)
    (hq : ∀ m ∈ E'.toRunner, m ∈ E.toRunner ∨ ∃ k, E.supervisor.pc = .framing k m)
    (hq' : ∀ m ∈ E'.toSupervisor, m ∈ E.toSupervisor ∨ E.runner.pc = .framing m)
    (hf : ∀ k m, E'.supervisor.pc = .framing k m → E.supervisor.pc = .framing k m)
    (hf' : ∀ m, E'.runner.pc = .framing m → E.runner.pc = .framing m) : Agreed runId E' where
  supervisor := hs
  runner := hr
  ofSupervisor := by
    rw [hsa, hra]
    exact h.ofSupervisor
  ofRunner := by
    rw [hsa, hra]
    exact h.ofRunner
  toRunner m hm := by
    rw [hsa]
    rcases hq m hm with hm | ⟨k, hk⟩
    · exact h.toRunner m hm
    · exact ⟨k, h.framing k m hk⟩
  toSupervisor m hm := by
    rw [hra]
    rcases hq' m hm with hm | hm
    · exact h.toSupervisor m hm
    · exact h.framingRunner m hm
  framing k m hm := by
    rw [hsa]
    exact h.framing k m (hf k m hm)
  framingRunner m hm := by
    rw [hra]
    exact h.framingRunner m (hf' m hm)

/-- A step of the Supervisor that accepts nothing and touches no channel. -/
theorem Agreed.supervisorMoves (h : Agreed runId E) (hv : E'.supervisor.link.Valid runId)
    (hacc : E'.supervisor.link.accepted = E.supervisor.link.accepted) (hr : E'.runner = E.runner)
    (hq : E'.toRunner = E.toRunner) (hq' : E'.toSupervisor = E.toSupervisor)
    (hf : ∀ k m, E'.supervisor.pc = .framing k m → E.supervisor.pc = .framing k m) : Agreed runId E' := by
  refine h.frame hv (hr ▸ h.runner) hacc (by rw [hr]) ?_ ?_ hf ?_
  · exact fun m hm => .inl (hq ▸ hm)
  · exact fun m hm => .inl (hq' ▸ hm)
  · exact fun m hm => hr ▸ hm

/-- A step of the Runner that accepts nothing and touches no channel. -/
theorem Agreed.runnerMoves (h : Agreed runId E) (hv : E'.runner.link.Valid runId)
    (hacc : E'.runner.link.accepted = E.runner.link.accepted) (hs : E'.supervisor = E.supervisor)
    (hq : E'.toRunner = E.toRunner) (hq' : E'.toSupervisor = E.toSupervisor)
    (hf : ∀ m, E'.runner.pc = .framing m → E.runner.pc = .framing m) : Agreed runId E' := by
  refine h.frame (hs ▸ h.supervisor) hv (by rw [hs]) hacc ?_ ?_ ?_ hf
  · exact fun m hm => .inl (hq ▸ hm)
  · exact fun m hm => .inl (hq' ▸ hm)
  · exact fun k m hm => hs ▸ hm

/-- **The Supervisor accepts one more**, in a place of its own or what the
Runner has there. -/
theorem Agreed.supervisorAccepts (h : Agreed runId E) {m : Value F} (hs : E'.supervisor.link.Valid runId)
    (hsa : E'.supervisor.link.accepted = E.supervisor.link.accepted ++ [m])
    (hwho : OfSupervisor E.supervisor.link.accepted.length ∨
      E.runner.link.accepted[E.supervisor.link.accepted.length]? = some m)
    (hrunner : E'.runner = E.runner) (hq : E'.toRunner = E.toRunner)
    (hq' : ∀ m ∈ E'.toSupervisor, m ∈ E.toSupervisor)
    (hf : ∀ k m', E'.supervisor.pc = .framing k m' →
      OfSupervisor k ∧ k = E.supervisor.link.accepted.length ∧ m' = m) : Agreed runId E' := by
  have hkeep : ∀ (k : ℕ) (m' : Value F), E.supervisor.link.accepted[k]? = some m' → E'.supervisor.link.accepted[k]? = some m' := by
    intro k m' hk
    rw [hsa, List.getElem?_append_left (List.getElem?_eq_some_iff.1 hk).1]
    exact hk
  refine ⟨hs, hrunner ▸ h.runner, ?_, ?_, ?_, ?_, ?_, ?_⟩
  · intro k m' hk hw
    rw [hrunner] at hk
    exact hkeep k m' (h.ofSupervisor k m' hk hw)
  · intro k m' hk hw
    rw [hrunner]
    rw [hsa, getElem?_snoc] at hk
    split at hk
    next hlen =>
      cases hk
      rcases hwho with hwho | hwho
      · subst hlen
        unfold OfSupervisor at hwho
        unfold OfRunner at hw
        omega
      · exact hlen ▸ hwho
    next => exact h.ofRunner k m' hk hw
  · intro m' hm'
    rw [hq] at hm'
    obtain ⟨k, hw, hk⟩ := h.toRunner m' hm'
    exact ⟨k, hw, hkeep k m' hk⟩
  · intro m' hm'
    rw [hrunner]
    exact h.toSupervisor m' (hq' m' hm')
  · intro k m' hpc
    obtain ⟨hw, hlen, rfl⟩ := hf k m' hpc
    rw [hsa, hlen, List.getElem?_concat_length]
    exact ⟨hlen ▸ hw, rfl⟩
  · rw [hrunner]
    exact h.framingRunner

/-- **The Runner accepts one more.** -/
theorem Agreed.runnerAccepts (h : Agreed runId E) {m : Value F} (hr : E'.runner.link.Valid runId)
    (hra : E'.runner.link.accepted = E.runner.link.accepted ++ [m])
    (hwho : OfRunner E.runner.link.accepted.length ∨
      E.supervisor.link.accepted[E.runner.link.accepted.length]? = some m)
    (hsupervisor : E'.supervisor = E.supervisor) (hq : ∀ m ∈ E'.toRunner, m ∈ E.toRunner)
    (hq' : E'.toSupervisor = E.toSupervisor)
    (hf : ∀ m', E'.runner.pc = .framing m' → OfRunner E.runner.link.accepted.length ∧ m' = m) : Agreed runId E' := by
  have hkeep : ∀ (k : ℕ) (m' : Value F), E.runner.link.accepted[k]? = some m' → E'.runner.link.accepted[k]? = some m' := by
    intro k m' hk
    rw [hra, List.getElem?_append_left (List.getElem?_eq_some_iff.1 hk).1]
    exact hk
  refine ⟨hsupervisor ▸ h.supervisor, hr, ?_, ?_, ?_, ?_, ?_, ?_⟩
  · intro k m' hk hw
    rw [hsupervisor]
    rw [hra, getElem?_snoc] at hk
    split at hk
    next hlen =>
      cases hk
      rcases hwho with hwho | hwho
      · subst hlen
        unfold OfSupervisor at hw
        unfold OfRunner at hwho
        omega
      · exact hlen ▸ hwho
    next => exact h.ofSupervisor k m' hk hw
  · intro k m' hk hw
    rw [hsupervisor] at hk
    exact hkeep k m' (h.ofRunner k m' hk hw)
  · intro m' hm'
    rw [hsupervisor]
    exact h.toRunner m' (hq m' hm')
  · intro m' hm'
    rw [hq'] at hm'
    obtain ⟨k, hw, hk⟩ := h.toSupervisor m' hm'
    exact ⟨k, hw, hkeep k m' hk⟩
  · rw [hsupervisor]
    exact h.framing
  · intro m' hpc
    obtain ⟨hw, rfl⟩ := hf m' hpc
    exact ⟨_, hw, by rw [hra, List.getElem?_concat_length]⟩

/-- What the Supervisor takes off the channel the Runner has in its place. -/
theorem Agreed.fromRunner (h : Agreed runId E) {m : Value F} {k : ℕ} {t : ℤ} (hm : m ∈ E.toSupervisor)
    (hsaid : Says runId k m t) : OfRunner k ∧ E.runner.link.accepted[k]? = some m := by
  obtain ⟨j, hw, hj⟩ := h.toSupervisor m hm
  obtain ⟨u, hu⟩ := h.runner.placed j m hj
  obtain rfl := says_place hsaid hu
  exact ⟨hw, hj⟩

theorem Agreed.fromSupervisor (h : Agreed runId E) {m : Value F} {k : ℕ} {t : ℤ} (hm : m ∈ E.toRunner)
    (hsaid : Says runId k m t) : OfSupervisor k ∧ E.supervisor.link.accepted[k]? = some m := by
  obtain ⟨j, hw, hj⟩ := h.toRunner m hm
  obtain ⟨u, hu⟩ := h.supervisor.placed j m hj
  obtain rfl := says_place hsaid hu
  exact ⟨hw, hj⟩

end Barrier

end Bench

end ZkRuntime
