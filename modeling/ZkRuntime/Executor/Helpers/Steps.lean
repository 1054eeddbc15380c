import ZkRuntime.Executor.Model.Executor
/-!
# What a step of the executor can be

`State.step` taken apart once, with one relation for each of the three
kinds of call.
-/

namespace ZkRuntime

namespace Executor

open Worker (JobStatus Result TaskError)

/-- The registry with the status of a job set. -/
def State.setStatus (E : State) (j : Job) (id : Int64) (st : JobStatus) : State :=
  { E with jobRegistry := Function.update E.jobRegistry id (some { j with status := st }) }

/-- **The steps of a `Submit`.** -/
inductive SubmitSteps (E : State) (s : ℕ) (x : Submit) : State → Prop
  /-- A step nobody else sees. -/
  | passed {pc : SubmitPc} (h : (x.pc = .check ∧ (pc = .enter ∨ pc = .returned (some .invalidJob))) ∨
        (x.pc = .enter ∧ E.phase ≠ .running ∧ pc = .returned (some .notRunning)) ∨
        (x.pc = .register ∧ pc = .leaving (some .duplicateJobID)) ∨
        (x.pc = .select ∧ pc = .unregister)) :
      SubmitSteps E s x (E.putSubmit s { x with pc := pc })
  | entered (h : x.pc = .enter) (hph : E.phase = .running) :
      SubmitSteps E s x { E.putSubmit s ⟨{ x.job with status := .pending }, .register⟩ with
        submitWG := E.submitWG + 1 }
  | registered (h : x.pc = .register) (hnew : E.jobRegistry x.job.id = none) :
      SubmitSteps E s x { E.putSubmit s { x with pc := .select } with
        jobRegistry := Function.update E.jobRegistry x.job.id (some x.job) }
  | send_panics (h : x.pc = .select) (hj : E.jobs ≠ .pending) :
      SubmitSteps E s x { E with panicked := true }
  | sent (h : x.pc = .select) (hj : E.jobs = .pending) (hq : E.queue.length < E.queueSize) :
      SubmitSteps E s x { E.putSubmit s { x with pc := .leaving none } with
        queue := E.queue ++ [x.job] }
  | handed {i : ℕ} (h : x.pc = .select) (hj : E.jobs = .pending) (hq : E.queueSize = 0)
      (hi : i < E.workerCount) (hw : E.workers i = .idle) :
      SubmitSteps E s x ((E.putSubmit s { x with pc := .leaving none }).putWorker i (.start x.job))
  | unregistered (h : x.pc = .unregister) :
      SubmitSteps E s x { E.putSubmit s { x with pc := .leaving (some .notRunning) } with
        jobRegistry := Function.update E.jobRegistry x.job.id none }
  | left {err : Option SubmitError} (h : x.pc = .leaving err) :
      SubmitSteps E s x { E.putSubmit s { x with pc := .returned err } with
        submitWG := E.submitWG - 1 }

/-- The job a worker holds, with the result it sends. -/
def WorkerPc.sends : WorkerPc → Option (Job × Result)
  | .failed job res | .sending job res => some (job, res)
  | _ => none

/-- **The steps of a worker.** -/
inductive WorkerSteps (E : State) (i : ℕ) : WorkerChoice → State → Prop
  | took {job : Job} {rest : List Job} (h : E.workers i = .idle) (hq : E.queue = job :: rest) :
      WorkerSteps E i .take { E.putWorker i (.start job) with queue := rest }
  | closed (h : E.workers i = .idle) (hq : E.queue = []) (hj : E.jobs ≠ .pending) :
      WorkerSteps E i .closed (E.exit i)
  | quit (h : E.workers i = .idle ∨ (E.workers i).sends ≠ none) (hc : E.cancelled = true) :
      WorkerSteps E i .quit (E.exit i)
  | began {job j : Job} (h : E.workers i = .start job) (hj : E.jobRegistry job.id = some j)
      (hv : validTransition j.status .running = true) :
      WorkerSteps E i .go ((E.setStatus j job.id .running).putWorker i (.executing job))
  | ran {job : Job} {res : Result} {out : Except TaskError Bytes}
      {err : Option Coordinator.ContextError} {deadline now : ℕ} (h : E.workers i = .executing job)
      (hres : res = Worker.executeJob job.id out err (some deadline) now)
      (hc : E.cancelled = true → err ≠ none) :
      WorkerSteps E i (.ran out err deadline now) (E.putWorker i (.finish job res))
  | updated {job j : Job} {res : Result} (h : E.workers i = .finish job res)
      (hj : E.jobRegistry job.id = some j) (hv : validTransition j.status res.status = true) :
      WorkerSteps E i .go ((E.setStatus j job.id res.status).putWorker i (.sending job res))
  | failed {job : Job} {e : TaskError} {st : JobStatus}
      (h : (E.workers i = .start job ∧ st = .running) ∨
        ∃ res, E.workers i = .finish job res ∧ st = res.status)
      (hj : ∀ j, E.jobRegistry job.id = some j → validTransition j.status st = false) :
      WorkerSteps E i .go (E.putWorker i (.failed job (failedResult job.id e)))
  | deliver_panics (h : (E.workers i).sends ≠ none) (hr : E.results ≠ .pending) :
      WorkerSteps E i .deliver { E with panicked := true }
  | delivered {job : Job} {res : Result} (h : (E.workers i).sends = some (job, res))
      (hr : E.results = .pending) :
      WorkerSteps E i .deliver { E.putWorker i .idle with delivered := E.delivered ++ [(job, res)] }

/-- **The steps of a `Shutdown`.** -/
inductive ShutdownSteps (E : State) (k : ℕ) (x : ShutdownCall) : State → Prop
  | cancels (h : x.pc = .cancel) :
      ShutdownSteps E k x { E.putShutdown k { x with pc := .enter } with cancelled := true }
  /-- A wait, or its end. -/
  | passed {pc : ShutdownPc}
      (h : (x.pc = .enter ∧ E.phase ≠ .running ∧ pc = .waitDone) ∨
        (x.pc = .waitDone ∧ E.doneCh ≠ .pending ∧ pc = (State.afterShutdown x).pc) ∨
        (x.pc = .waitSubmits ∧ E.submitWG = 0 ∧ pc = .closeJobs) ∨
        (x.pc = .waitWorkers ∧ E.wg = 0 ∧ pc = .closeResults)) :
      ShutdownSteps E k x (E.putShutdown k { x with pc := pc })
  | entered (h : x.pc = .enter) (hph : E.phase = .running) :
      ShutdownSteps E k x { E.putShutdown k { x with pc := .waitSubmits } with
        phase := .shuttingDown, stopCh := E.stopCh.close }
  | closedJobs (h : x.pc = .closeJobs) :
      ShutdownSteps E k x { E.putShutdown k { x with pc := .waitWorkers } with
        jobs := E.jobs.close }
  | closedResults (h : x.pc = .closeResults) :
      ShutdownSteps E k x { E.putShutdown k { x with pc := .finish } with
        results := E.results.close }
  | finished (h : x.pc = .finish) :
      ShutdownSteps E k x { E.putShutdown k (State.afterShutdown x) with
        phase := .stopped, doneCh := E.doneCh.close }
  | cancelledPending (h : x.pc = .cancelPending) :
      ShutdownSteps E k x (E.cancelPendingJobs.putShutdown k { x with pc := .returned })

/-- **The steps of the executor.** -/
inductive Steps (E : State) : Action → State → Prop
  | idle : Steps E .idle E
  | submit (job : Job) :
      Steps E (.submit job)
        { E.putSubmit E.nextSubmit ⟨{ job with call := E.nextSubmit }, .check⟩ with
          nextSubmit := E.nextSubmit + 1 }
  | submitStep {s : ℕ} {c : SubmitChoice} {x : Submit} {E' : State} (hx : E.submits s = some x)
      (h : SubmitSteps E s x E') : Steps E (.submitStep s c) E'
  | worker {i : ℕ} {c : WorkerChoice} {E' : State} (hi : i < E.workerCount)
      (h : WorkerSteps E i c E') : Steps E (.worker i c) E'
  | shutdown (force : Bool) :
      Steps E (.shutdown force)
        { E.putShutdown E.nextShutdown ⟨force, if force then .cancel else .enter⟩ with
          nextShutdown := E.nextShutdown + 1 }
  | shutdownStep {k : ℕ} {x : ShutdownCall} {E' : State} (hx : E.shutdowns k = some x)
      (h : ShutdownSteps E k x E') : Steps E (.shutdownStep k) E'

variable {E E' : State}

theorem submitSteps_of_move {s : ℕ} {x : Submit} {c : SubmitChoice}
    (h : E.submitMove s x x.pc c = some E') : SubmitSteps E s x E' := by
  generalize hpc : x.pc = pc at h
  unfold State.submitMove at h
  split at h
  · split at h
    · cases h; exact .passed (.inl ⟨hpc, .inr rfl⟩)
    · cases h; exact .passed (.inl ⟨hpc, .inl rfl⟩)
  · split at h
    · rename_i hph; cases h; exact .passed (.inr (.inl ⟨hpc, hph, rfl⟩))
    · rename_i hph; cases h; exact .entered hpc (by simpa using hph)
  · split at h
    · cases h; exact .passed (.inr (.inr (.inl ⟨hpc, rfl⟩)))
    · rename_i hnew; cases h; exact .registered hpc hnew
  · split at h
    · rename_i hj; cases h; exact .send_panics hpc hj
    · rename_i hj
      split at h
      · rename_i hq; cases h; exact .sent hpc (by simpa using hj) hq
      · cases h
  · split at h
    · rename_i hg; cases h; exact .handed hpc hg.1 hg.2.1 hg.2.2.1 hg.2.2.2
    · cases h
  · split at h
    · cases h; exact .passed (.inr (.inr (.inr ⟨hpc, rfl⟩)))
    · cases h
  · cases h; exact .unregistered hpc
  · cases h; exact .left hpc
  · cases h

/-- `updateJobStatus` and what it refuses. -/
theorem updateJobStatus_cases (E : State) (id : Int64) (st : JobStatus) :
    (∃ j, E.jobRegistry id = some j ∧ validTransition j.status st = true ∧
        E.updateJobStatus id st = .ok (E.setStatus j id st)) ∨
      ∃ e, E.updateJobStatus id st = .error e ∧
        ∀ j, E.jobRegistry id = some j → validTransition j.status st = false := by
  unfold State.updateJobStatus
  cases hj : E.jobRegistry id with
  | none => exact .inr ⟨_, rfl, nofun⟩
  | some j =>
    cases hv : validTransition j.status st with
    | true => exact .inl ⟨j, rfl, hv, by simp [State.setStatus, hv]⟩
    | false =>
      refine .inr ⟨errInvalidJobTransition, by simp [hv], fun j' hj' => ?_⟩
      cases hj'
      exact hv

theorem workerSteps_deliver {i : ℕ} {job : Job} {res : Result}
    (h : (E.workers i).sends = some (job, res)) : WorkerSteps E i .deliver (E.deliver i job res) := by
  unfold State.deliver
  split
  · rename_i hr; exact .deliver_panics (by simp [h]) hr
  · rename_i hr; exact .delivered h (by simpa using hr)

theorem workerSteps_of_move {i : ℕ} {c : WorkerChoice}
    (h : E.workerMove i (E.workers i) c = some E') : WorkerSteps E i c E' := by
  generalize hpc : E.workers i = pc at h
  unfold State.workerMove at h
  split at h
  · split at h
    · cases h
    · rename_i hq; cases h; exact .took hpc hq
  · split at h
    · rename_i hg; cases h; exact .closed hpc hg.1 hg.2
    · cases h
  · split at h
    · rename_i hc; cases h; exact .quit (.inl hpc) hc
    · cases h
  · rename_i job
    rcases updateJobStatus_cases E job.id .running with ⟨j, hj, hv, heq⟩ | ⟨e, heq, hj⟩
    · rw [heq] at h; cases h; exact .began hpc hj hv
    · rw [heq] at h; cases h; exact .failed (.inl ⟨hpc, rfl⟩) hj
  · split at h
    · cases h
    · rename_i hc
      cases h
      exact .ran hpc rfl fun hcan herr => hc ⟨hcan, herr⟩
  · rename_i job res
    rcases updateJobStatus_cases E job.id res.status with ⟨j, hj, hv, heq⟩ | ⟨e, heq, hj⟩
    · rw [heq] at h; cases h; exact .updated hpc hj hv
    · rw [heq] at h; cases h; exact .failed (.inr ⟨res, hpc, rfl⟩) hj
  · cases h; exact workerSteps_deliver (by simp [hpc, WorkerPc.sends])
  · cases h; exact workerSteps_deliver (by simp [hpc, WorkerPc.sends])
  · split at h
    · rename_i hc; cases h; exact .quit (.inr (by simp [hpc, WorkerPc.sends])) hc
    · cases h
  · split at h
    · rename_i hc; cases h; exact .quit (.inr (by simp [hpc, WorkerPc.sends])) hc
    · cases h
  · cases h

theorem shutdownSteps_of_move {k : ℕ} {x : ShutdownCall}
    (h : E.shutdownMove k x x.pc = some E') : ShutdownSteps E k x E' := by
  generalize hpc : x.pc = pc at h
  unfold State.shutdownMove at h
  split at h
  · cases h; exact .cancels hpc
  · split at h
    · rename_i hph; cases h; exact .passed (.inl ⟨hpc, hph, rfl⟩)
    · rename_i hph; cases h; exact .entered hpc (by simpa using hph)
  · split at h
    · rename_i hd; cases h; exact .passed (.inr (.inl ⟨hpc, hd, rfl⟩))
    · cases h
  · split at h
    · rename_i h0; cases h; exact .passed (.inr (.inr (.inl ⟨hpc, h0, rfl⟩)))
    · cases h
  · cases h; exact .closedJobs hpc
  · split at h
    · rename_i h0; cases h; exact .passed (.inr (.inr (.inr ⟨hpc, h0, rfl⟩)))
    · cases h
  · cases h; exact .closedResults hpc
  · cases h; exact .finished hpc
  · cases h; exact .cancelledPending hpc
  · cases h

/-- **Every step of the executor is one of these.** -/
theorem steps_of_step {a : Action} (h : E.step a = some E') : Steps E a E' := by
  cases a with
  | idle => cases h; exact .idle
  | submit job => cases h; exact .submit job
  | submitStep s c =>
    simp only [State.step] at h
    split at h
    · cases h
    · rename_i hx; exact .submitStep hx (submitSteps_of_move h)
  | worker i c =>
    simp only [State.step] at h
    split at h
    · rename_i hi; exact .worker hi (workerSteps_of_move h)
    · cases h
  | shutdown force => cases h; exact .shutdown force
  | shutdownStep k =>
    simp only [State.step] at h
    split at h
    · cases h
    · rename_i hx; exact .shutdownStep hx (shutdownSteps_of_move h)

theorem step_idle (E : State) : executor.step E .idle = some E := rfl

end Executor

end ZkRuntime
