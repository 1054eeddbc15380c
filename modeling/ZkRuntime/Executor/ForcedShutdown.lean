import ZkRuntime.Executor.Helpers.Places
/-!
# Forced shutdown

A `ForceShutdown` that returns has swept the registry after every `Submit`
and every worker was done, and nobody is left who would write to it. What
was still with its task when the context was cancelled does not succeed.
-/

namespace ZkRuntime

namespace Executor

open Worker (JobStatus Result TaskError)

variable {E E' : State} {g i s k : ℕ}

/-! ## Behind the last stage -/

/-- **Nobody writes to the registry of an executor that has stopped**, but
for the sweep. -/
theorem jobRegistry_of_stopped (hg : Staged E 4) {a : Action} (hs : Steps E a E') :
    E'.jobRegistry = E.jobRegistry ∨ E'.jobRegistry = E.cancelPendingJobs.jobRegistry := by
  cases hs with
  | @submitStep s c x _ hx hs =>
    have hout : x.isInside = true → False := by
      intro hin
      have := hg.jobs_of_inside hx hin
      omega
    cases hs with
    | registered hpc hnew => exact (hout (by simp [Submit.isInside, hpc, SubmitPc.isInside])).elim
    | unregistered hpc => exact (hout (by simp [Submit.isInside, hpc, SubmitPc.isInside])).elim
    | _ => exact .inl rfl
  | @worker i c _ hi hs =>
    have hgone : E.workers i ≠ .gone → False := by
      intro hne
      have := hg.results_of_alive hi hne
      omega
    cases hs with
    | began hw hj hv => exact (hgone (by rw [hw]; rintro ⟨⟩)).elim
    | updated hw hj hv => exact (hgone (by rw [hw]; rintro ⟨⟩)).elim
    | _ => exact .inl rfl
  | shutdownStep hx hs =>
    cases hs with
    | cancelledPending hpc => exact .inr rfl
    | _ => exact .inl rfl
  | _ => exact .inl rfl

/-- A `ForceShutdown` that has returned. -/
def State.Forced (E : State) : Prop := ∃ k x, E.shutdowns k = some x ∧ x.force = true ∧ x.pc = .returned

/-- **It has swept.** -/
def Swept (E : State) : Prop := E.Forced → ∀ id j, E.jobRegistry id = some j → j.status ≠ .pending

theorem ne_pending_of_cancelPendingJobs {id : Int64} {j : Job}
    (hj : E.cancelPendingJobs.jobRegistry id = some j) : j.status ≠ .pending := by
  obtain ⟨j₀, -, rfl⟩ := Option.map_eq_some_iff.1 hj
  by_cases hp : j₀.status = .pending
  · rw [if_pos hp]
    rintro ⟨⟩
  · rw [if_neg hp]
    exact hp

theorem Kept.stopped (h : Kept E) (hf : E.Forced) : Staged E 4 := by
  obtain ⟨g, hg⟩ := h.staged
  obtain ⟨k, x, hx, -, hpc⟩ := hf
  exact hg.late hx (.inr hpc) ▸ hg

/-- The step by which the first one returns is the sweep. -/
theorem forced_step {a : Action} (hs : Steps E a E') (hf : E'.Forced) :
    E.Forced ∨ E'.jobRegistry = E.cancelPendingJobs.jobRegistry := by
  obtain ⟨n, y, hy, hforce, hpc⟩ := hf
  cases hs with
  | submitStep hx hs => cases hs <;> exact .inl ⟨n, y, hy, hforce, hpc⟩
  | worker hi hs => cases hs <;> exact .inl ⟨n, y, hy, hforce, hpc⟩
  | shutdown force =>
    dsimp only [State.putShutdown] at hy
    by_cases hn : n = E.nextShutdown
    · rw [hn, Function.update_self] at hy
      cases hy
      dsimp only at hpc
      split at hpc <;> cases hpc
    · rw [Function.update_of_ne hn] at hy
      exact .inl ⟨n, y, hy, hforce, hpc⟩
  | @shutdownStep k x _ hx hs =>
    -- another call than the one that moves was over before
    have hother : ∀ {z : ShutdownCall}, Function.update E.shutdowns k (some z) n = some y →
        (z.force = true → False) → E.Forced := by
      intro z hz hzf
      by_cases hn : n = k
      · rw [hn, Function.update_self] at hz
        cases hz
        exact (hzf hforce).elim
      · rw [Function.update_of_ne hn] at hz
        exact ⟨n, y, hz, hforce, hpc⟩
    have hmoves : ∀ {z : ShutdownCall}, Function.update E.shutdowns k (some z) n = some y →
        z.pc ≠ .returned → E.Forced := by
      intro z hz hzpc
      by_cases hn : n = k
      · rw [hn, Function.update_self] at hz
        cases hz
        exact absurd hpc hzpc
      · rw [Function.update_of_ne hn] at hz
        exact ⟨n, y, hz, hforce, hpc⟩
    have hafter : (State.afterShutdown x).pc = .returned → x.force = true → False := by
      intro hr hxf
      simp [State.afterShutdown, hxf] at hr
    cases hs with
    | cancelledPending hpc' => exact .inr rfl
    | @passed pc hpc' =>
      refine .inl ?_
      by_cases hr : pc = .returned
      · subst hr
        refine hother hy ?_
        rcases hpc' with ⟨-, -, h⟩ | ⟨-, -, h⟩ | ⟨-, -, h⟩ | ⟨-, -, h⟩
        · cases h
        · exact hafter h.symm
        · cases h
        · cases h
      · exact hmoves hy hr
    | finished hpc' =>
      refine .inl ?_
      by_cases hr : (State.afterShutdown x).pc = .returned
      · exact hother hy (hafter hr)
      · exact hmoves hy hr
    | _ => exact .inl (hmoves hy (by rintro ⟨⟩))
  | _ => exact .inl ⟨n, y, hy, hforce, hpc⟩

theorem Swept.step (h : Swept E) (hk : Kept E) {a : Action} (hs : Steps E a E') : Swept E' := by
  intro hf id j hj
  rcases forced_step hs hf with hf | hreg
  · rcases jobRegistry_of_stopped (hk.stopped hf) hs with hreg | hreg
    · exact h hf id j (hreg ▸ hj)
    · exact ne_pending_of_cancelPendingJobs (hreg ▸ hj)
  · exact ne_pending_of_cancelPendingJobs (hreg ▸ hj)

theorem swept (r : executor.Run) (n : ℕ) : Swept (r.state n) := by
  induction n with
  | zero =>
    obtain ⟨workerCount, queueSize, heq⟩ := r.start
    rw [heq]
    rintro ⟨k, x, hx, -⟩
    cases hx
  | succ n ih => exact ih.step (kept r n) (steps_of_step (r.next n))

/-! ## Once the context is cancelled -/

/-- **No success of the `Submit` `c` is on its way**, nor will be. -/
structure Spoiled (c : ℕ) (E : State) : Prop where
  cancelled : E.cancelled = true
  result : ∀ {i job res}, (E.workers i).result? = some (job, res) → job.call = c → res.status ≠ .succeeded
  entry : ∀ {id j}, E.jobRegistry id = some j → j.call = c → j.status ≠ .succeeded

namespace Spoiled

variable {c : ℕ}

theorem executeJob_ne_succeeded {job : Job} {out : Except TaskError Bytes} {err : Option Coordinator.ContextError}
    {deadline : Option ℕ} {now : ℕ} (h : err ≠ none) :
    (Worker.executeJob job.id out err deadline now).status ≠ .succeeded := by
  have herror : ∀ e, (Worker.errorResult job.id e).status ≠ .succeeded := by
    intro e
    unfold Worker.errorResult
    dsimp only
    split <;> rintro ⟨⟩
  obtain ⟨e, rfl⟩ := Option.ne_none_iff_exists'.1 h
  unfold Worker.executeJob
  split
  · exact herror _
  · exact herror _

/-- The workers go on without a result of their own, and the entries without
a new success. -/
theorem frame (h : Spoiled c E) (hc : E'.cancelled = true)
    (hres : ∀ {i job res}, (E'.workers i).result? = some (job, res) → job.call = c →
      (∃ i', (E.workers i').result? = some (job, res)) ∨ res.status ≠ .succeeded)
    (hreg : ∀ {id j}, E'.jobRegistry id = some j → j.call = c →
      E.jobRegistry id = some j ∨ j.status ≠ .succeeded) : Spoiled c E' where
  cancelled := hc
  result hr hjob := by
    rcases hres hr hjob with ⟨i', hr'⟩ | hne
    · exact h.result hr' hjob
    · exact hne
  entry hj hcall := by
    rcases hreg hj hcall with hj' | hne
    · exact h.entry hj' hcall
    · exact hne

/-- What a worker has behind a step of another place. -/
theorem result_of_update {p : WorkerPc} (hp : p.result? = none) {n : ℕ} {v : Job × Result}
    (hr : (Function.update E.workers i p n).result? = some v) : (E.workers n).result? = some v := by
  by_cases hn : n = i
  · rw [hn, Function.update_self, hp] at hr
    cases hr
  · rwa [Function.update_of_ne hn] at hr

/-- A worker makes no success of what it takes, and records none. -/
theorem worker_step (h : Spoiled c E) (hk : Kept E) {a : WorkerChoice} (hs : WorkerSteps E i a E') :
    Spoiled c E' := by
  have hdrop : ∀ {p : WorkerPc}, p.result? = none → E'.workers = Function.update E.workers i p →
      ∀ {n job res}, (E'.workers n).result? = some (job, res) → job.call = c →
        (∃ n', (E.workers n').result? = some (job, res)) ∨ res.status ≠ .succeeded := by
    intro p hp hw n job res hr _
    rw [hw] at hr
    exact .inl ⟨n, result_of_update hp hr⟩
  cases hs with
  | took hw hq => exact h.frame h.cancelled (hdrop (p := .start _) rfl rfl) fun hj _ => .inl hj
  | closed hw hq hj => exact h.frame h.cancelled (hdrop (p := .gone) rfl rfl) fun hj _ => .inl hj
  | quit hw hc => exact h.frame h.cancelled (hdrop (p := .gone) rfl rfl) fun hj _ => .inl hj
  | @began job j hw hj hv =>
    refine h.frame h.cancelled (hdrop (p := .executing _) rfl rfl) ?_
    intro id j' hj' _
    simp only [State.setStatus, State.putWorker] at hj'
    by_cases hid : id = job.id
    · rw [hid, Function.update_self] at hj'
      cases hj'
      exact .inr (by rintro ⟨⟩)
    · rw [Function.update_of_ne hid] at hj'
      exact .inl hj'
  | @ran job res out err deadline now hw hres hc =>
    refine h.frame h.cancelled ?_ fun hj _ => .inl hj
    intro n job' res' hr _
    simp only [State.putWorker] at hr
    by_cases hn : n = i
    · rw [hn, Function.update_self] at hr
      cases hr
      rw [hres]
      exact .inr (executeJob_ne_succeeded (hc h.cancelled))
    · rw [Function.update_of_ne hn] at hr
      exact .inl ⟨n, hr⟩
  | @updated job j res hw hj hv =>
    have hres : (E.workers i).result? = some (job, res) := by rw [hw]; rfl
    -- the entry is that of the job
    have hhold : E.holds (.worker i) = some (job, .running) := by
      rw [State.holds, hw]
      rfl
    have hreg := hk.placed.registered hhold
    rw [hj] at hreg
    cases hreg
    refine h.frame h.cancelled ?_ ?_
    · intro n job' res' hr _
      simp only [State.putWorker, State.setStatus] at hr
      by_cases hn : n = i
      · rw [hn, Function.update_self] at hr
        cases hr
        exact .inl ⟨i, hres⟩
      · rw [Function.update_of_ne hn] at hr
        exact .inl ⟨n, hr⟩
    · intro id j' hj' hcall
      simp only [State.setStatus, State.putWorker] at hj'
      by_cases hid : id = job.id
      · rw [hid, Function.update_self] at hj'
        cases hj'
        exact .inr (h.result hres hcall)
      · rw [Function.update_of_ne hid] at hj'
        exact .inl hj'
  | failed hw hj => exact h.frame h.cancelled (hdrop (p := .failed _ _) rfl rfl) fun hj _ => .inl hj
  | deliver_panics hw hr => exact ⟨h.cancelled, h.result, h.entry⟩
  | delivered hw hr => exact h.frame h.cancelled (hdrop (p := .idle) rfl rfl) fun hj _ => .inl hj

theorem step (h : Spoiled c E) (hk : Kept E) {a : Action} (hs : Steps E a E') : Spoiled c E' := by
  have hold : ∀ {n job res}, (E.workers n).result? = some (job, res) → job.call = c →
      (∃ n', (E.workers n').result? = some (job, res)) ∨ res.status ≠ .succeeded :=
    fun hr _ => .inl ⟨_, hr⟩
  cases hs with
  | @submitStep s ch x _ hx hs =>
    cases hs with
    | registered hpc hnew =>
      have hpending := hk.sourced.fresh hx (by simp [Submit.isInside, hpc, SubmitPc.isInside])
      refine h.frame h.cancelled hold ?_
      intro id j hj _
      dsimp only at hj
      by_cases hid : id = x.job.id
      · rw [hid, Function.update_self] at hj
        cases hj
        rw [hpending]
        exact .inr (by rintro ⟨⟩)
      · rw [Function.update_of_ne hid] at hj
        exact .inl hj
    | unregistered hpc =>
      refine h.frame h.cancelled hold ?_
      intro id j hj _
      dsimp only at hj
      by_cases hid : id = x.job.id
      · rw [hid, Function.update_self] at hj
        cases hj
      · rw [Function.update_of_ne hid] at hj
        exact .inl hj
    | handed hpc hj hq hi hw =>
      exact h.frame h.cancelled (fun hr _ => .inl ⟨_, result_of_update rfl hr⟩) fun hj _ => .inl hj
    | _ => exact h.frame h.cancelled hold fun hj _ => .inl hj
  | worker hi hs => exact h.worker_step hk hs
  | shutdownStep hx hs =>
    cases hs with
    | cancels hpc => exact h.frame rfl hold fun hj _ => .inl hj
    | cancelledPending hpc =>
      refine h.frame h.cancelled hold ?_
      intro id j hj _
      obtain ⟨j₀, hj₀, rfl⟩ := Option.map_eq_some_iff.1 hj
      by_cases hp : j₀.status = .pending
      · rw [if_pos hp]
        exact .inr (by rintro ⟨⟩)
      · rw [if_neg hp]
        exact .inl hj₀
    | _ => exact h.frame h.cancelled hold fun hj _ => .inl hj
  | _ => exact h.frame h.cancelled hold fun hj _ => .inl hj

/-- A job that is with its task when the context is cancelled. -/
theorem of_executing (hk : Kept E) (hc : E.cancelled = true) {job : Job} (hw : E.workers i = .executing job) :
    Spoiled job.call E := by
  have hhold : E.holds (.worker i) = some (job, .running) := by rw [State.holds, hw]; rfl
  have hreg := hk.placed.registered hhold
  refine ⟨hc, ?_, ?_⟩
  · intro n job' res hr hcall
    -- it would be in two places
    have hhold' : ∃ st, E.holds (.worker n) = some (job', st) := by
      rw [State.holds]
      cases hn : E.workers n with
      | finish => rw [hn] at hr; cases hr; exact ⟨_, rfl⟩
      | sending => rw [hn] at hr; cases hr; exact ⟨_, rfl⟩
      | _ => rw [hn] at hr; cases hr
    obtain ⟨st, hhold'⟩ := hhold'
    have hid := hk.sourced.id_eq (hk.placed.registered hhold') hreg hcall
    have hplace := hk.placed.unique hhold' hhold hid
    cases hplace
    rw [hw] at hr
    cases hr
  · intro id j hj hcall
    have hid := hk.sourced.id_eq hj hreg hcall
    rw [hid, hreg] at hj
    cases hj
    rintro ⟨⟩

theorem of_le (r : executor.Run) {m n : ℕ} (hmn : m ≤ n) (h : Spoiled c (r.state m)) : Spoiled c (r.state n) := by
  induction n, hmn using Nat.le_induction with
  | base => exact h
  | succ n _ ih => exact ih.step (kept r n) (steps_of_step (r.next n))

end Spoiled

/-! ## Submit calls that come too late -/

/-- The places of a `Submit` that never enters. -/
def SubmitPc.isTurnedAway : SubmitPc → Prop
  | .check | .enter | .returned (some .invalidJob) | .returned (some .notRunning) => True
  | _ => False

/-- **Every `Submit` from the number `N` on stays outside.** -/
def TurnedAway (N : ℕ) (E : State) : Prop :=
  ∀ s x, E.submits s = some x → N ≤ s → x.pc.isTurnedAway

theorem TurnedAway.step {N : ℕ} (h : TurnedAway N E) (hg : Staged E 4) {a : Action} (hs : Steps E a E') :
    TurnedAway N E' := by
  intro n z hz hn
  -- one `Submit` has gone to `y`
  have hput : ∀ {m : ℕ} {y : Submit}, Function.update E.submits m (some y) n = some z →
      (N ≤ m → y.pc.isTurnedAway) → z.pc.isTurnedAway := by
    intro m y hz hy
    by_cases hm : n = m
    · rw [hm, Function.update_self] at hz
      cases hz
      exact hy (hm ▸ hn)
    · rw [Function.update_of_ne hm] at hz
      exact h n z hz hn
  cases hs with
  | submit job => exact hput hz fun _ => trivial
  | @submitStep s c x _ hx hs =>
    have hturn : N ≤ s → x.pc.isTurnedAway := h s x hx
    cases hs with
    | @passed pc hpc =>
      refine hput hz fun hle => ?_
      have hold := hturn hle
      rcases hpc with ⟨-, rfl | rfl⟩ | ⟨-, -, rfl⟩ | ⟨h1, -⟩ | ⟨h1, -⟩
      · trivial
      · trivial
      · trivial
      · rw [h1] at hold
        exact hold.elim
      · rw [h1] at hold
        exact hold.elim
    | entered hpc hph =>
      have hphase := hg.phase
      rw [if_neg (by omega), if_pos rfl, hph] at hphase
      cases hphase
    | send_panics hpc hj => exact h n z hz hn
    | registered hpc hnew | sent hpc hj hq | handed hpc hj hq hi hw | unregistered hpc | left hpc =>
      refine hput hz fun hle => ?_
      have hold := hturn hle
      rw [hpc] at hold
      exact hold.elim
  | worker hi hs => cases hs <;> exact h n z hz hn
  | shutdownStep hx hs => cases hs <;> exact h n z hz hn
  | _ => exact h n z hz hn

/-- The registry a `ForceShutdown` returned with. -/
theorem jobRegistry_of_forced (hk : Kept E) (hw : Swept E) (hf : E.Forced) {a : Action} (hs : Steps E a E') :
    E'.jobRegistry = E.jobRegistry := by
  rcases jobRegistry_of_stopped (hk.stopped hf) hs with hreg | hreg
  · exact hreg
  · rw [hreg]
    funext id
    show (E.jobRegistry id).map _ = _
    cases hj : E.jobRegistry id with
    | none => rfl
    | some j =>
      rw [Option.map_some, if_neg (hw hf id j hj)]

theorem forced_of_step {a : Action} (hs : Steps E a E') (hg : Staged E g) (hf : E.Forced) : E'.Forced := by
  obtain ⟨n, y, hy, hforce, hpc⟩ := hf
  cases hs with
  | submitStep hx hs => cases hs <;> exact ⟨n, y, hy, hforce, hpc⟩
  | worker hi hs => cases hs <;> exact ⟨n, y, hy, hforce, hpc⟩
  | shutdown force =>
    have hlt := hg.shutdowns hy
    exact ⟨n, y, (Function.update_of_ne (by omega) ..).trans hy, hforce, hpc⟩
  | @shutdownStep k x _ hx hs =>
    -- the one that has returned does not move
    have hk : n ≠ k → ∀ z, Function.update E.shutdowns k (some z) n = some y :=
      fun hn z => (Function.update_of_ne hn ..).trans hy
    have hne : n ≠ k := by
      rintro rfl
      rw [hx] at hy
      cases hy
      cases hs with
      | passed h => simp [hpc] at h
      | _ h => simp [hpc] at h
    cases hs <;> exact ⟨n, y, hk hne _, hforce, hpc⟩
  | _ => exact ⟨n, y, hy, hforce, hpc⟩

/-- **Forced shutdown is complete.** When a `ForceShutdown` returns, no job
of the registry is pending or running; a job that was with its task, or
came to it, after the context was cancelled has not succeeded; and from
then on the registry stays as it is and every new `Submit` is refused. -/
theorem forced_shutdown (r : executor.Run) {n k : ℕ}
    (hk : (r.state n).shutdowns k = some ⟨true, .returned⟩) :
    (∀ id j, (r.state n).jobRegistry id = some j →
      j.status = .succeeded ∨ j.status = .failed ∨ j.status = .cancelled) ∧
    (∀ m i job, m ≤ n → (r.state m).cancelled = true → (r.state m).workers i = .executing job →
      ∀ id j, (r.state n).jobRegistry id = some j → j.call = job.call → j.status ≠ .succeeded) ∧
    ∀ n', n ≤ n' → (r.state n').jobRegistry = (r.state n).jobRegistry ∧
      ∀ s x, (r.state n').submits s = some x → (r.state n).nextSubmit ≤ s →
        x.pc = .check ∨ x.pc = .enter ∨ x.pc = .returned (some .invalidJob) ∨
          x.pc = .returned (some .notRunning) := by
  have hforced : (r.state n).Forced := ⟨k, _, hk, rfl, rfl⟩
  have hstopped := (kept r n).stopped hforced
  refine ⟨?_, ?_, ?_⟩
  · intro id j hj
    have hpending := swept r n hforced id j hj
    have hrunning : j.status ≠ .running := by
      intro hst
      -- it would be with a worker, and they have all returned
      obtain ⟨i, hi, job, hhold, -⟩ := (kept r n).working.running hj hst
      have hlt := hstopped.results_of_alive hi (by intro hgone; rw [hgone] at hhold; cases hhold)
      omega
    cases hst : j.status with
    | pending => exact absurd hst hpending
    | running => exact absurd hst hrunning
    | succeeded => exact .inl rfl
    | failed => exact .inr (.inl rfl)
    | cancelled => exact .inr (.inr rfl)
  · intro m i job hmn hc hw id j hj hcall
    exact ((Spoiled.of_executing (kept r m) hc hw).of_le r hmn).entry hj hcall
  · intro n' hle
    have hlater : (r.state n').Forced ∧ (r.state n').jobRegistry = (r.state n).jobRegistry ∧
        TurnedAway (r.state n).nextSubmit (r.state n') := by
      induction n', hle using Nat.le_induction with
      | base =>
        refine ⟨hforced, rfl, fun s x hx hle => ?_⟩
        have := hstopped.submits hx
        omega
      | succ n' _ ih =>
        obtain ⟨hf, hreg, hturn⟩ := ih
        have hs := steps_of_step (r.next n')
        have hg := (kept r n').stopped hf
        exact ⟨forced_of_step hs hg hf,
          (jobRegistry_of_forced (kept r n') (swept r n') hf hs).trans hreg, hturn.step hg hs⟩
    refine ⟨hlater.2.1, fun s x hx hle => ?_⟩
    have hturn := hlater.2.2 s x hx hle
    unfold SubmitPc.isTurnedAway at hturn
    split at hturn
    · exact .inl ‹_›
    · exact .inr (.inl ‹_›)
    · exact .inr (.inr (.inl ‹_›))
    · exact .inr (.inr (.inr ‹_›))
    · exact hturn.elim

/-- One worker is with the first job, the second is queued, and the third
`Submit` is blocked when the executor is shut down by force. -/
def forcedScript : List Action :=
  .submit ⟨1, 5, true, .pending, 0⟩ :: List.replicate 3 (.submitStep 0 .go) ++
    [.submitStep 0 .send, .submitStep 0 .go, .worker 0 .take, .worker 0 .go] ++
    .submit ⟨2, 5, true, .pending, 0⟩ :: List.replicate 3 (.submitStep 1 .go) ++
    [.submitStep 1 .send, .submitStep 1 .go] ++
    .submit ⟨3, 5, true, .pending, 0⟩ :: List.replicate 3 (.submitStep 2 .go) ++
    [.shutdown true, .shutdownStep 0, .shutdownStep 0, .submitStep 2 .stop, .submitStep 2 .go,
      .submitStep 2 .go, .worker 0 (.ran (.ok []) (some .canceled) 5 1), .worker 0 .go, .worker 0 .quit] ++
    List.replicate 6 (.shutdownStep 0)

theorem plays_forcedScript : executor.plays (newExecutor 1 1) forcedScript = true := by decide +kernel

/-- The run of the script. -/
def forcedRun : executor.Run :=
  .ofScript (newExecutor 1 1) forcedScript .idle step_idle ⟨1, 1, rfl⟩ plays_forcedScript

theorem forced_shutdown_blocked :
    (∀ id j, (forcedRun.state 33).jobRegistry id = some j →
      j.status = .succeeded ∨ j.status = .failed ∨ j.status = .cancelled) ∧
    (forcedRun.state 33).jobRegistry 1 = some ⟨1, 5, true, .cancelled, 0⟩ ∧
    (forcedRun.state 33).jobRegistry 2 = some ⟨2, 5, true, .cancelled, 1⟩ ∧
    (forcedRun.state 33).jobRegistry 3 = none := by
  have hk : (forcedRun.state 33).shutdowns 0 = some ⟨true, .returned⟩ := by decide +kernel
  have hreg : (forcedRun.state 33).jobRegistry 1 = some ⟨1, 5, true, .cancelled, 0⟩ ∧
      (forcedRun.state 33).jobRegistry 2 = some ⟨2, 5, true, .cancelled, 1⟩ ∧
      (forcedRun.state 33).jobRegistry 3 = none := by decide +kernel
  exact ⟨(forced_shutdown forcedRun hk).1, hreg⟩

end Executor

end ZkRuntime
