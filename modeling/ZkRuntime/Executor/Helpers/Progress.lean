import ZkRuntime.Common.Fair
import ZkRuntime.Executor.Helpers.Places
/-!
# Progress of an executor that is not forced

Without a `ForceShutdown` the context is never cancelled, so a worker ends
only where the queue is empty and closed, and no job that was accepted is
lost. Where every worker is treated fairly, the consumer takes what is sent
and the tasks return, each such job is taken, run and delivered.
-/

namespace ZkRuntime

namespace Executor

open Worker (JobStatus Result TaskError)

variable {E E' : State} {g i s k : ℕ}

/-- **Nobody has called `ForceShutdown`.** -/
structure Unforced (E : State) : Prop where
  cancelled : E.cancelled = false
  calls : ∀ {k x}, E.shutdowns k = some x → x.force = false ∧ x.pc ≠ .cancel ∧ x.pc ≠ .cancelPending

theorem Unforced.step (h : Unforced E) {a : Action} (ha : a ≠ .shutdown true) (hs : Steps E a E') :
    Unforced E' := by
  -- one call has gone to `y`
  have hput : ∀ {m : ℕ} {y : ShutdownCall},
      (y.force = false ∧ y.pc ≠ .cancel ∧ y.pc ≠ .cancelPending) →
      ∀ {n z}, Function.update E.shutdowns m (some y) n = some z →
        z.force = false ∧ z.pc ≠ .cancel ∧ z.pc ≠ .cancelPending := by
    intro m y hy n z hz
    by_cases hn : n = m
    · rw [hn, Function.update_self] at hz
      cases hz
      exact hy
    · rw [Function.update_of_ne hn] at hz
      exact h.calls hz
  cases hs with
  | submitStep hx hs => cases hs <;> exact ⟨h.cancelled, h.calls⟩
  | worker hi hs => cases hs <;> exact ⟨h.cancelled, h.calls⟩
  | shutdown force =>
    cases force with
    | true => exact absurd rfl ha
    | false => exact ⟨h.cancelled, hput (y := ⟨false, .enter⟩) ⟨rfl, (by rintro ⟨⟩), (by rintro ⟨⟩)⟩⟩
  | @shutdownStep k x _ hx hs =>
    obtain ⟨hforce, hcancel, hpending⟩ := h.calls hx
    have hafter : State.afterShutdown x = { x with pc := .returned } := by
      simp [State.afterShutdown, hforce]
    cases hs with
    | cancels hpc => exact absurd hpc hcancel
    | cancelledPending hpc => exact absurd hpc hpending
    | @passed pc hpc =>
      refine ⟨h.cancelled, hput (y := { x with pc := pc }) ⟨hforce, ?_⟩⟩
      rw [hafter] at hpc
      rcases hpc with ⟨-, -, rfl⟩ | ⟨-, -, rfl⟩ | ⟨-, -, rfl⟩ | ⟨-, -, rfl⟩ <;> exact ⟨(by rintro ⟨⟩), (by rintro ⟨⟩)⟩
    | finished hpc =>
      refine ⟨h.cancelled, hput (y := State.afterShutdown x) ?_⟩
      rw [hafter]
      exact ⟨hforce, (by rintro ⟨⟩), (by rintro ⟨⟩)⟩
    | entered hpc hph =>
      exact ⟨h.cancelled, hput (y := { x with pc := .waitSubmits }) ⟨hforce, (by rintro ⟨⟩), (by rintro ⟨⟩)⟩⟩
    | closedJobs hpc =>
      exact ⟨h.cancelled, hput (y := { x with pc := .waitWorkers }) ⟨hforce, (by rintro ⟨⟩), (by rintro ⟨⟩)⟩⟩
    | closedResults hpc =>
      exact ⟨h.cancelled, hput (y := { x with pc := .finish }) ⟨hforce, (by rintro ⟨⟩), (by rintro ⟨⟩)⟩⟩
  | _ => exact ⟨h.cancelled, h.calls⟩

/-! ## Nothing is lost -/

/-- **No accepted job is lost.** -/
structure Unlost (E : State) : Prop where
  bounded : E.queue.length ≤ E.queueSize
  /-- A worker ends behind the last job. -/
  drained : ∀ {i}, i < E.workerCount → E.workers i = .gone → E.queue = [] ∧ E.jobs ≠ .pending
  present : ∀ {s x}, E.submits s = some x → x.pc = .leaving none ∨ x.pc = .returned none →
    ∃ p st, E.holds p = some (x.job, st) ∧ ∀ n, p ≠ .submit n

theorem workerCount_of_steps {a : Action} (hs : Steps E a E') : E'.workerCount = E.workerCount := by
  cases hs with
  | submitStep hx hs => cases hs <;> rfl
  | worker hi hs => cases hs <;> rfl
  | shutdownStep hx hs => cases hs <;> rfl
  | _ => rfl

/-- **A worker** takes a job along, and leaves it with the results. -/
theorem holds_of_worker_step (hk : Kept E) (hu : Unforced E) {c : WorkerChoice} (hi : i < E.workerCount)
    (hs : WorkerSteps E i c E') {p : Place} {job : Job} {st : JobStatus}
    (hp : E.holds p = some (job, st)) (hne : ∀ n, p ≠ .submit n) :
    ∃ p' st', E'.holds p' = some (job, st') ∧ ∀ n, p' ≠ .submit n := by
  have hs' : Steps E (.worker i c) E' := .worker hi hs
  have hstays : E'.holds p = E.holds p → ∃ p' st', E'.holds p' = some (job, st') ∧ ∀ n, p' ≠ .submit n :=
    fun h => ⟨p, st, h.trans hp, hne⟩
  -- a worker that goes on, and takes what it has with it
  have hgoes : ∀ {q : WorkerPc} {t : JobStatus}, E'.workers = Function.update E.workers i q →
      E'.submits = E.submits → E'.queue = E.queue → E'.doneCh = E.doneCh → E'.delivered = E.delivered →
      (∀ {v}, (E.workers i).holds = some v → q.holds = some (v.1, t)) →
      ∃ p' st', E'.holds p' = some (job, st') ∧ ∀ n, p' ≠ .submit n := by
    intro q t hw hsub hq hd hdel hv
    by_cases hpi : p = .worker i
    · subst hpi
      refine ⟨.worker i, t, ?_, (by rintro _ ⟨⟩)⟩
      rw [State.holds, hw, Function.update_self, hv hp]
    · exact hstays (Placed.holds_eq_of_workers hw hsub hq hd hdel hpi)
  cases hs with
  | @took job' rest hw hq =>
    cases p with
    | submit n => exact absurd rfl (hne n)
    | worker n =>
      refine hstays ?_
      have hn : n ≠ i := by
        rintro rfl
        rw [State.holds, hw] at hp
        cases hp
      simp [State.holds, State.putWorker, Function.update_of_ne hn]
    | queued k =>
      simp only [State.holds, hq] at hp
      by_cases hd : E.doneCh = .pending
      · rw [if_pos hd] at hp
        cases k with
        | zero =>
          cases hp
          refine ⟨.worker i, .pending, ?_, (by rintro _ ⟨⟩)⟩
          simp [State.holds, State.putWorker, WorkerPc.holds]
        | succ k =>
          refine ⟨.queued k, st, ?_, (by rintro _ ⟨⟩)⟩
          simpa [State.holds, State.putWorker, hd] using hp
      · rw [if_neg hd] at hp
        cases hp
    | _ => exact hstays rfl
  | closed hw hq hj =>
    exact hgoes (q := .gone) (t := st) rfl rfl rfl rfl rfl (by rw [hw]; rintro _ ⟨⟩)
  | quit hw hc =>
    rw [hu.cancelled] at hc
    cases hc
  | began hw hj hv =>
    refine hgoes (q := .executing _) (t := .running) rfl rfl rfl rfl rfl ?_
    rw [hw]
    rintro v ⟨⟩
    rfl
  | ran hw hres hc =>
    refine hgoes (q := .finish _ _) (t := .running) rfl rfl rfl rfl rfl ?_
    rw [hw]
    rintro v ⟨⟩
    rfl
  | @updated job' j res hw hj hv =>
    refine hgoes (q := .sending job' res) (t := res.status) rfl rfl rfl rfl rfl ?_
    rw [hw]
    rintro v ⟨⟩
    rfl
  | @failed job' e st' hw hj =>
    exact absurd (Function.update_self i _ E.workers) ((hk.step hs').working.unfailed (i := i))
  | deliver_panics hw hr => exact hstays (by cases p <;> rfl)
  | @delivered job' res hw hr =>
    have hw' := (hk.working.sends_eq hw).1
    cases p with
    | submit n => exact absurd rfl (hne n)
    | worker n =>
      by_cases hn : n = i
      · subst hn
        rw [State.holds, hw'] at hp
        cases hp
        refine ⟨.delivered E.delivered.length, res.status, ?_, (by rintro _ ⟨⟩)⟩
        simp [State.holds]
      · exact hstays (by simp [State.holds, State.putWorker, Function.update_of_ne hn])
    | delivered k =>
      refine hstays ?_
      obtain ⟨d, hd, -⟩ := Option.map_eq_some_iff.1 hp
      have hlt := (List.getElem?_eq_some_iff.1 hd).1
      simp only [State.holds, List.getElem?_append_left hlt]
    | _ => exact hstays rfl

/-- A job that has left its `Submit` stays in some place. -/
theorem holds_of_steps (hk : Kept E) (hu : Unforced E) (hl : Unlost E) (hcount : 0 < E.workerCount)
    {a : Action} (hs : Steps E a E') {p : Place} {job : Job} {st : JobStatus}
    (hp : E.holds p = some (job, st)) (hne : ∀ n, p ≠ .submit n) :
    ∃ p' st', E'.holds p' = some (job, st') ∧ ∀ n, p' ≠ .submit n := by
  obtain ⟨g, hg⟩ := hk.staged
  -- most steps leave the place alone
  have hstays : E'.holds p = E.holds p → ∃ p' st', E'.holds p' = some (job, st') ∧ ∀ n, p' ≠ .submit n :=
    fun h => ⟨p, st, h.trans hp, hne⟩
  cases hs with
  | submitStep hx hs =>
    cases hs with
    | sent hpc hj hq =>
      cases p with
      | submit n => exact absurd rfl (hne n)
      | queued k =>
        refine ⟨.queued k, st, ?_, hne⟩
        simp only [State.holds] at hp ⊢
        by_cases hd : E.doneCh = .pending
        · rw [if_pos hd] at hp
          obtain ⟨job', hjob, hv⟩ := Option.map_eq_some_iff.1 hp
          have hlt := (List.getElem?_eq_some_iff.1 hjob).1
          simp only [State.putSubmit, hd, if_true, List.getElem?_append_left hlt, hjob, Option.map_some, hv]
        · rw [if_neg hd] at hp
          cases hp
      | _ => exact hstays rfl
    | @handed i hpc hj hq hi hw =>
      cases p with
      | submit n => exact absurd rfl (hne n)
      | worker n =>
        refine hstays ?_
        have hn : n ≠ i := by
          rintro rfl
          rw [State.holds, hw] at hp
          cases hp
        simp [State.holds, State.putWorker, State.putSubmit, Function.update_of_ne hn]
      | _ => exact hstays rfl
    | _ =>
      cases p with
      | submit n => exact absurd rfl (hne n)
      | _ => exact hstays rfl
  | worker hi hs => exact holds_of_worker_step hk hu hi hs hp hne
  | shutdownStep hx hs =>
    cases hs with
    | finished hpc =>
      have hg3 : 3 = g := hg.leader hx (by rw [hpc]; rfl)
      -- the workers have ended, and behind the last job
      have hempty : E.queue = [] := by
        refine (hl.drained hcount ?_).1
        by_contra hgone
        have := hg.results_of_alive hcount hgone
        omega
      cases p with
      | submit n => exact absurd rfl (hne n)
      | queued k => simp [State.holds, hempty] at hp
      | _ => exact hstays rfl
    | _ => exact hstays (by cases p <;> rfl)
  | submit job' =>
    cases p with
    | submit n => exact absurd rfl (hne n)
    | _ => exact hstays rfl
  | _ => exact hstays (by cases p <;> rfl)

/-- Who has ended behind another worker's step had ended before it. -/
theorem gone_of_update {p : WorkerPc} (hw : E'.workers = Function.update E.workers i p) (hp : p ≠ .gone)
    {n : ℕ} (h : E'.workers n = .gone) : E.workers n = .gone := by
  rw [hw] at h
  by_cases hni : n = i
  · rw [hni, Function.update_self] at h
    exact absurd h hp
  · rwa [Function.update_of_ne hni] at h

/-- The accepted calls behind a step in which one goes to `y`: it is one with
its job in a place, and the others are as before. -/
theorem present_put {m : ℕ} {y : Submit} (hsub : E'.submits = Function.update E.submits m (some y))
    (hold : ∀ {n z}, E.submits n = some z → z.pc = .leaving none ∨ z.pc = .returned none →
      ∃ p st, E'.holds p = some (z.job, st) ∧ ∀ n, p ≠ .submit n)
    (hy : y.pc = .leaving none ∨ y.pc = .returned none →
      ∃ p st, E'.holds p = some (y.job, st) ∧ ∀ n, p ≠ .submit n) {n : ℕ} {z : Submit}
    (hz : E'.submits n = some z) (hpc : z.pc = .leaving none ∨ z.pc = .returned none) :
    ∃ p st, E'.holds p = some (z.job, st) ∧ ∀ n, p ≠ .submit n := by
  rw [hsub] at hz
  by_cases hn : n = m
  · rw [hn, Function.update_self] at hz
    cases hz
    exact hy hpc
  · rw [Function.update_of_ne hn] at hz
    exact hold hz hpc

/-- **A step of a `Submit`** hands its job over before it is accepted. -/
theorem Unlost.submit_step (h : Unlost E) {g : ℕ} (hg : Staged E g) {x : Submit} (hx : E.submits s = some x)
    (hs : SubmitSteps E s x E')
    (hold : ∀ {n z}, E.submits n = some z → z.pc = .leaving none ∨ z.pc = .returned none →
      ∃ p st, E'.holds p = some (z.job, st) ∧ ∀ n, p ≠ .submit n) : Unlost E' := by
  cases hs with
  | @passed pc hpc =>
    refine ⟨h.bounded, h.drained, present_put (y := { x with pc := pc }) rfl hold ?_⟩
    rcases hpc with ⟨-, rfl | rfl⟩ | ⟨-, -, rfl⟩ | ⟨-, rfl⟩ | ⟨-, rfl⟩ <;> simp
  | entered hpc hph => exact ⟨h.bounded, h.drained, present_put rfl hold (by simp)⟩
  | registered hpc hnew => exact ⟨h.bounded, h.drained, present_put (y := { x with pc := .select }) rfl hold (by simp)⟩
  | send_panics hpc hj => exact ⟨h.bounded, h.drained, hold⟩
  | sent hpc hj hq =>
    refine ⟨by simpa [State.putSubmit] using Nat.succ_le_of_lt hq, ?_,
      present_put (y := { x with pc := .leaving none }) rfl hold fun _ => ?_⟩
    · intro n hn hgone
      exact absurd hj (h.drained hn hgone).2
    · refine ⟨.queued E.queue.length, .pending, ?_, (by rintro _ ⟨⟩)⟩
      have hlt := hg.jobs_of_inside hx (by simp [Submit.isInside, hpc, SubmitPc.isInside])
      have hd := hg.doneCh
      rw [if_pos (by omega)] at hd
      simp [State.holds, State.putSubmit, hd]
  | @handed i hpc hj hq hi hw =>
    refine ⟨h.bounded, ?_, present_put (y := { x with pc := .leaving none }) rfl hold fun _ => ?_⟩
    · intro n hn hgone
      exact h.drained hn (gone_of_update rfl (by rintro ⟨⟩) hgone)
    · exact ⟨.worker i, .pending, by simp [State.holds, State.putWorker, WorkerPc.holds], (by rintro _ ⟨⟩)⟩
  | unregistered hpc =>
    exact ⟨h.bounded, h.drained, present_put (y := { x with pc := .leaving (some .notRunning) }) rfl hold (by simp)⟩
  | @left err hpc =>
    refine ⟨h.bounded, h.drained, present_put (y := { x with pc := .returned err }) rfl hold ?_⟩
    rintro (⟨⟨⟩⟩ | herr)
    cases herr
    exact hold (z := x) hx (.inl hpc)

/-- **A step of a worker**: it takes what is queued, and ends where nothing
is. -/
theorem Unlost.worker_step (h : Unlost E) (hu : Unforced E) {i : ℕ} {c : WorkerChoice} (hs : WorkerSteps E i c E')
    (hold : ∀ {n z}, E.submits n = some z → z.pc = .leaving none ∨ z.pc = .returned none →
      ∃ p st, E'.holds p = some (z.job, st) ∧ ∀ n, p ≠ .submit n) : Unlost E' := by
  cases hs with
  | took hw hq =>
    refine ⟨?_, fun hn hgone => ?_, hold⟩
    · have hle := h.bounded
      rw [hq, List.length_cons] at hle
      exact Nat.le_of_succ_le hle
    · have hnil := (h.drained hn (gone_of_update rfl (by rintro ⟨⟩) hgone)).1
      rw [hq] at hnil
      cases hnil
  | closed hw hq hj => exact ⟨h.bounded, fun _ _ => ⟨hq, hj⟩, hold⟩
  | quit hw hc =>
    rw [hu.cancelled] at hc
    cases hc
  | deliver_panics hw hr => exact ⟨h.bounded, h.drained, hold⟩
  | _ => exact ⟨h.bounded, fun hn hgone => h.drained hn (gone_of_update rfl (by rintro ⟨⟩) hgone), hold⟩

/-- **A job that is accepted is in some place** behind every step. -/
theorem Unlost.step (h : Unlost E) (hk : Kept E) (hu : Unforced E) (hcount : 0 < E.workerCount) {a : Action}
    (hs : Steps E a E') : Unlost E' := by
  obtain ⟨g, hg⟩ := hk.staged
  -- an accepted `Submit` that was one before
  have hold : ∀ {n : ℕ} {z : Submit}, E.submits n = some z → z.pc = .leaving none ∨ z.pc = .returned none →
      ∃ p st, E'.holds p = some (z.job, st) ∧ ∀ n, p ≠ .submit n := by
    intro n z hz hpc
    obtain ⟨p, st, hp, hne⟩ := h.present hz hpc
    exact holds_of_steps hk hu h hcount hs hp hne
  cases hs with
  | submit job => exact ⟨h.bounded, h.drained, present_put rfl hold (by rintro (⟨⟨⟩⟩ | ⟨⟨⟩⟩))⟩
  | submitStep hx hs => exact h.submit_step hg hx hs hold
  | worker hi hs => exact h.worker_step hu hs hold
  | shutdownStep hx hs =>
    cases hs with
    | closedJobs hpc =>
      refine ⟨h.bounded, fun hn hgone => ⟨(h.drained hn hgone).1, ?_⟩, hold⟩
      show E.jobs.close ≠ .pending
      cases E.jobs <;> rintro ⟨⟩
    | _ => exact ⟨h.bounded, h.drained, hold⟩
  | _ => exact ⟨h.bounded, h.drained, hold⟩

/-- **What every state of a run without a `ForceShutdown` keeps.** -/
structure Calm (E : State) : Prop where
  kept : Kept E
  unforced : Unforced E
  unlost : Unlost E
  workers : 0 < E.workerCount

theorem calm (r : executor.Run) (hcount : 0 < (r.state 0).workerCount) (hcalls : ∀ n, r.act n ≠ .shutdown true)
    (n : ℕ) : Calm (r.state n) := by
  induction n with
  | zero =>
    refine ⟨kept r 0, ?_, ?_, hcount⟩
    · obtain ⟨workerCount, queueSize, heq⟩ := r.start
      rw [heq]
      exact ⟨rfl, (by rintro _ _ ⟨⟩)⟩
    · obtain ⟨workerCount, queueSize, heq⟩ := r.start
      rw [heq]
      exact ⟨Nat.zero_le _, (by rintro _ _ ⟨⟩), (by rintro _ _ ⟨⟩)⟩
  | succ n ih =>
    have hs := steps_of_step (r.next n)
    exact ⟨kept r (n + 1), ih.unforced.step (hcalls n) hs, ih.unlost.step ih.kept ih.unforced ih.workers hs,
      workerCount_of_steps hs ▸ ih.workers⟩

/-! ## A worker gets on -/

/-- The steps of the worker `i`. -/
def OfWorker (i : ℕ) (a : Action) : Prop := ∃ c, a = .worker i c

/-- **Every worker is treated fairly**: it gets on where it can, its tasks
return and the consumer takes its results. -/
def Fair (r : executor.Run) : Prop := ∀ i, r.WeaklyFair (OfWorker i)

theorem enabled_of_move {c : WorkerChoice} (hi : i < E.workerCount)
    (h : (E.workerMove i (E.workers i) c).isSome = true) : executor.Enabled (OfWorker i) E := by
  refine ⟨.worker i c, ⟨c, rfl⟩, ?_⟩
  show (E.step (.worker i c)).isSome = true
  rw [State.step, if_pos hi]
  exact h

/-- A worker that is busy can take its step. -/
theorem enabled_of_busy (hi : i < E.workerCount) (hidle : E.workers i ≠ .idle) (hgone : E.workers i ≠ .gone) :
    executor.Enabled (OfWorker i) E := by
  cases hpc : E.workers i with
  | idle => exact absurd hpc hidle
  | gone => exact absurd hpc hgone
  | start job =>
    refine enabled_of_move (c := .go) hi ?_
    rw [hpc]
    unfold State.workerMove
    dsimp only
    split <;> rfl
  | executing job =>
    refine enabled_of_move (c := .ran (.ok []) (some .canceled) 0 0) hi ?_
    rw [hpc]
    unfold State.workerMove
    simp
  | finish job res =>
    refine enabled_of_move (c := .go) hi ?_
    rw [hpc]
    unfold State.workerMove
    dsimp only
    split <;> rfl
  | failed job res =>
    refine enabled_of_move (c := .deliver) hi ?_
    rw [hpc]
    rfl
  | sending job res =>
    refine enabled_of_move (c := .deliver) hi ?_
    rw [hpc]
    rfl

/-- Only a worker itself leaves a place it is busy in. -/
theorem workers_eq_of_steps {a : Action} (hs : Steps E a E') (ha : ¬ OfWorker i a) (hidle : E.workers i ≠ .idle) :
    E'.workers i = E.workers i := by
  cases hs with
  | submitStep hx hs =>
    cases hs with
    | handed hpc hj hq hi hw =>
      refine Function.update_of_ne ?_ ..
      rintro rfl
      exact hidle hw
    | _ => rfl
  | @worker n c _ hi hs =>
    have hn : i ≠ n := by
      rintro rfl
      exact ha ⟨c, rfl⟩
    cases hs <;> first | rfl | exact Function.update_of_ne hn ..
  | shutdownStep hx hs => cases hs <;> rfl
  | _ => rfl

/-- How far a worker is from sending its result. -/
def WorkerPc.remaining : WorkerPc → ℕ
  | .start _ => 3
  | .executing _ => 2
  | .finish _ _ => 1
  | _ => 0

/-- **What a busy worker's step comes to**: it gets nearer to the end with
its job, or the result is delivered. -/
theorem worker_advances (hc : Calm E) (hi : i < E.workerCount) {c : WorkerChoice} (hs : WorkerSteps E i c E')
    {job : Job} {st : JobStatus} (hhold : (E.workers i).holds = some (job, st)) :
    (∃ st', (E'.workers i).holds = some (job, st') ∧ (E'.workers i).remaining < (E.workers i).remaining) ∨
      E'.workers i = .idle ∧ ∃ res, (job, res) ∈ E'.delivered := by
  obtain ⟨g, hg⟩ := hc.kept.staged
  have hs' : Steps E (.worker i c) E' := .worker hi hs
  cases hs with
  | took hw hq =>
    rw [hw] at hhold
    cases hhold
  | closed hw hq hj =>
    rw [hw] at hhold
    cases hhold
  | quit hw hcan =>
    rw [hc.unforced.cancelled] at hcan
    cases hcan
  | began hw hj hv =>
    rw [hw] at hhold
    cases hhold
    simp [State.putWorker, WorkerPc.holds, WorkerPc.remaining, hw]
  | ran hw hres hcan =>
    rw [hw] at hhold
    cases hhold
    simp [State.putWorker, WorkerPc.holds, WorkerPc.remaining, hw]
  | updated hw hj hv =>
    rw [hw] at hhold
    cases hhold
    simp [State.putWorker, WorkerPc.holds, WorkerPc.remaining, hw]
  | failed hw hj =>
    exact absurd (Function.update_self i _ E.workers) ((hc.kept.step hs').working.unfailed (i := i))
  | deliver_panics hw hr =>
    have hlt := hg.results_of_alive hi (by intro hgone; rw [hgone] at hhold; cases hhold)
    exact absurd (by rw [hg.results, if_pos hlt]) hr
  | @delivered job' res hw hr =>
    rw [(hc.kept.working.sends_eq hw).1] at hhold
    cases hhold
    exact .inr ⟨Function.update_self .., res, List.mem_append_right _ (List.mem_singleton_self _)⟩

/-- Only a worker takes from the queue. -/
theorem queue_of_steps {a : Action} (hs : Steps E a E') (ha : ∀ j, a ≠ .worker j .take) :
    ∃ l, E'.queue = E.queue ++ l := by
  cases hs with
  | submitStep hx hs =>
    cases hs with
    | sent hpc hj hq => exact ⟨_, rfl⟩
    | _ => exact ⟨[], (List.append_nil _).symm⟩
  | worker hi hs =>
    cases hs with
    | took hw hq => exact absurd rfl (ha _)
    | _ => exact ⟨[], (List.append_nil _).symm⟩
  | shutdownStep hx hs => cases hs <;> exact ⟨[], (List.append_nil _).symm⟩
  | _ => exact ⟨[], (List.append_nil _).symm⟩

/-- What a worker takes is the head. -/
theorem queued_of_take (hs : WorkerSteps E i .take E') {k : ℕ} {job : Job} (hq : E.queue[k]? = some job) :
    E'.workers i = .start job ∨ ∃ k', k' < k ∧ E'.queue[k']? = some job := by
  cases hs with
  | took hw heq =>
    rw [heq] at hq
    cases k with
    | zero =>
      cases hq
      exact .inl (Function.update_self ..)
    | succ k => exact .inr ⟨k, k.lt_succ_self, hq⟩

/-- An idle worker is left idle where jobs are not handed over. -/
theorem idle_of_steps {a : Action} (hs : Steps E a E') (ha : ¬ OfWorker i a) (hidle : E.workers i = .idle)
    (hsize : E.queueSize ≠ 0) : E'.workers i = .idle := by
  cases hs with
  | submitStep hx hs =>
    cases hs with
    | handed hpc hj hq hi hw => exact absurd hq hsize
    | _ => exact hidle
  | @worker n c _ hi hs =>
    have hn : i ≠ n := by
      rintro rfl
      exact ha ⟨c, rfl⟩
    cases hs <;> first | exact hidle | exact (Function.update_of_ne hn ..).trans hidle
  | shutdownStep hx hs => cases hs <;> exact hidle
  | _ => exact hidle

/-- An idle worker with a job to take takes it. -/
theorem take_of_idle (hc : Calm E) {c : WorkerChoice} (hs : WorkerSteps E i c E') (hidle : E.workers i = .idle)
    (hq : E.queue ≠ []) : c = .take := by
  cases hs with
  | took hw _ => rfl
  | closed hw hnil _ => exact absurd hnil hq
  | quit hw hcan =>
    rw [hc.unforced.cancelled] at hcan
    cases hcan
  | began hw _ _ | ran hw _ _ | updated hw _ _ =>
    rw [hidle] at hw
    cases hw
  | failed hw hj =>
    rcases hw with ⟨hw, -⟩ | ⟨_, hw, -⟩ <;> rw [hidle] at hw <;> cases hw
  | deliver_panics hw hr => exact absurd (by rw [hidle]; rfl) hw
  | delivered hw hr =>
    rw [hidle] at hw
    cases hw

section Live

variable {r : executor.Run} (hcalm : ∀ n, Calm (r.state n)) (hfair : Fair r)

include hcalm hfair

/-- **A busy worker takes its step**, from the place it is in. -/
theorem exists_worker_act {m : ℕ} {pc : WorkerPc} (hm : (r.state m).workers i = pc) (hidle : pc ≠ .idle)
    (hgone : pc ≠ .gone) : ∃ n c, m ≤ n ∧ i < (r.state n).workerCount ∧ (r.state n).workers i = pc ∧
      WorkerSteps (r.state n) i c (r.state (n + 1)) := by
  obtain ⟨n, hmn, hpc, c, hact⟩ := (hfair i).exists_act (P := fun E => E.workers i = pc) hm
    (fun n _ hpc => by
      refine enabled_of_busy ?_ (hpc ▸ hidle) (hpc ▸ hgone)
      by_contra hi
      exact hidle (hpc.symm.trans ((hcalm n).kept.working.idle (by omega))))
    (fun n _ hpc ha => (workers_eq_of_steps (steps_of_step (r.next n)) ha (hpc ▸ hidle)).trans hpc)
  have hs := steps_of_step (r.next n)
  rw [hact] at hs
  cases hs with
  | worker hi hs => exact ⟨n, c, hmn, hi, hpc, hs⟩

/-- **What a worker has is delivered**, and the worker is idle again. -/
theorem exists_delivered_of_worker {m : ℕ} {job : Job} {st : JobStatus}
    (hm : ((r.state m).workers i).holds = some (job, st)) :
    ∃ n, m ≤ n ∧ (r.state n).workers i = .idle ∧ ∃ res, (job, res) ∈ (r.state n).delivered := by
  -- by the steps that remain
  generalize hk : ((r.state m).workers i).remaining = k
  induction k using Nat.strong_induction_on generalizing m st with
  | _ k ih =>
    obtain ⟨n, c, hmn, hi, hpc, hs⟩ := exists_worker_act hcalm hfair (m := m) rfl
      (by intro hidle; rw [hidle] at hm; cases hm) (by intro hgone; rw [hgone] at hm; cases hm)
    rw [← hpc] at hm hk
    rcases worker_advances (hcalm n) hi hs hm with ⟨st', hhold, hlt⟩ | ⟨hidle, res, hmem⟩
    · obtain ⟨n', hle, hrest⟩ := ih _ (hk ▸ hlt) hhold rfl
      exact ⟨n', by omega, hrest⟩
    · exact ⟨n + 1, by omega, hidle, res, hmem⟩

/-- **A queue that holds a job is taken from.** -/
theorem exists_take {m : ℕ} (hm : (r.state m).queue ≠ []) : ∃ n, m ≤ n ∧ ∃ j, r.act n = .worker j .take := by
  by_contra hnone
  have hnot : ∀ n, m ≤ n → ∀ j, r.act n ≠ .worker j .take := fun n hmn j ha => hnone ⟨n, hmn, j, ha⟩
  -- it would never get shorter
  have hqueue : ∀ n, m ≤ n → (r.state n).queue ≠ [] := by
    intro n hmn
    induction n, hmn using Nat.le_induction with
    | base => exact hm
    | succ n hmn ih =>
      obtain ⟨l, hl⟩ := queue_of_steps (steps_of_step (r.next n)) (hnot n hmn)
      rw [hl]
      exact List.append_ne_nil_of_left_ne_nil ih l
  have hsize : ∀ n, m ≤ n → (r.state n).queueSize ≠ 0 := by
    intro n hmn h0
    have hle := (hcalm n).unlost.bounded
    rw [h0] at hle
    exact hqueue n hmn (List.length_eq_zero_iff.1 (Nat.le_zero.1 hle))
  -- the first worker comes to be idle, and then takes
  obtain ⟨n, hmn, hidle⟩ : ∃ n, m ≤ n ∧ (r.state n).workers 0 = .idle := by
    cases hpc : (r.state m).workers 0 with
    | idle => exact ⟨m, le_rfl, hpc⟩
    | gone => exact absurd ((hcalm m).unlost.drained (hcalm m).workers hpc).1 hm
    | failed => exact absurd hpc (hcalm m).kept.working.unfailed
    | _ =>
      obtain ⟨n, hmn, hidle, -⟩ := exists_delivered_of_worker hcalm hfair (m := m) (i := 0) (by rw [hpc]; rfl)
      exact ⟨n, hmn, hidle⟩
  obtain ⟨n', hnn', hidle', c, hact⟩ := (hfair 0).exists_act (P := fun E => E.workers 0 = .idle) hidle
    (fun n' hle hidle => by
      refine enabled_of_move (c := .take) (hcalm n').workers ?_
      rw [hidle]
      obtain ⟨job, rest, hq⟩ := List.exists_cons_of_ne_nil (hqueue n' (by omega))
      simp [State.workerMove, hq])
    (fun n' hle hidle ha => idle_of_steps (steps_of_step (r.next n')) ha hidle (hsize n' (by omega)))
  have hs := steps_of_step (r.next n')
  rw [hact] at hs
  cases hs with
  | worker hi hs =>
    have hc := take_of_idle (hcalm n') hs hidle' (hqueue n' (by omega))
    exact hnot n' (by omega) 0 (hc ▸ hact)

/-- **What is queued is taken**, however far behind. -/
theorem exists_started_of_queued {k m : ℕ} {job : Job} (hm : (r.state m).queue[k]? = some job) :
    ∃ n, m ≤ n ∧ ∃ i, (r.state n).workers i = .start job := by
  induction k using Nat.strong_induction_on generalizing m with
  | _ k ih =>
    have htaken : ∀ {m j}, (r.state m).queue[k]? = some job → r.act m = .worker j .take →
        ∃ n, m ≤ n ∧ ∃ i, (r.state n).workers i = .start job := by
      intro m j hm hact
      have hs := steps_of_step (r.next m)
      rw [hact] at hs
      cases hs with
      | worker hi hs =>
        rcases queued_of_take hs hm with hstart | ⟨k', hlt, hm'⟩
        · exact ⟨m + 1, by omega, j, hstart⟩
        · obtain ⟨n, hle, hrest⟩ := ih k' hlt hm'
          exact ⟨n, by omega, hrest⟩
    obtain ⟨n, hmn, j, hact⟩ := exists_take hcalm hfair (m := m) (by intro hnil; rw [hnil] at hm; cases hm)
    -- by the steps until then
    obtain ⟨d, rfl⟩ := Nat.exists_eq_add_of_le hmn
    clear hmn
    induction d generalizing m with
    | zero => exact htaken hm hact
    | succ d ihd =>
      by_cases htake : ∃ j, r.act m = .worker j .take
      · obtain ⟨j', hact'⟩ := htake
        exact htaken hm hact'
      · obtain ⟨l, hl⟩ := queue_of_steps (steps_of_step (r.next m)) fun j ha => htake ⟨j, ha⟩
        have hm' : (r.state (m + 1)).queue[k]? = some job := by
          rw [hl, List.getElem?_append_left (List.getElem?_eq_some_iff.1 hm).1]
          exact hm
        obtain ⟨n, hle, hrest⟩ := ihd hm' (by rw [show m + 1 + d = m + (d + 1) by omega]; exact hact)
        exact ⟨n, by omega, hrest⟩

/-- **Every accepted job is delivered.** -/
theorem exists_delivered {m s : ℕ} {x : Submit} (hx : (r.state m).submits s = some x)
    (hpc : x.pc = .leaving none ∨ x.pc = .returned none) :
    ∃ n, m ≤ n ∧ ∃ res, (x.job, res) ∈ (r.state n).delivered := by
  obtain ⟨p, st, hp, hne⟩ := (hcalm m).unlost.present hx hpc
  cases p with
  | submit n => exact absurd rfl (hne n)
  | queued k =>
    obtain ⟨job, hjob, hv⟩ : ∃ job, (r.state m).queue[k]? = some job ∧ job = x.job := by
      simp only [State.holds] at hp
      split at hp
      · obtain ⟨job, hjob, hv⟩ := Option.map_eq_some_iff.1 hp
        exact ⟨job, hjob, congrArg Prod.fst hv⟩
      · cases hp
    subst hv
    obtain ⟨n, hmn, i, hstart⟩ := exists_started_of_queued hcalm hfair hjob
    obtain ⟨n', hle, -, hres⟩ := exists_delivered_of_worker hcalm hfair (m := n) (i := i) (by rw [hstart]; rfl)
    exact ⟨n', by omega, hres⟩
  | worker i =>
    obtain ⟨n, hmn, -, hres⟩ := exists_delivered_of_worker hcalm hfair hp
    exact ⟨n, hmn, hres⟩
  | delivered k =>
    obtain ⟨d, hd, hv⟩ := Option.map_eq_some_iff.1 hp
    have hjob : d.1 = x.job := congrArg Prod.fst hv
    exact ⟨m, le_rfl, d.2, hjob ▸ List.mem_of_getElem? hd⟩

end Live

end Executor

end ZkRuntime
