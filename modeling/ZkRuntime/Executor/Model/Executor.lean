import Mathlib.Logic.Function.Basic
import ZkRuntime.Common.Run
import ZkRuntime.Common.Sync
import ZkRuntime.Worker.Model.Service
/-!
# The executor

`Executor` of `internal/runtime/executor.go`: any number of `Submit` calls,
the workers it started, a consumer of `Results`, and any number of
`Shutdown` and `ForceShutdown` calls. A section under one of the two
mutexes is one step, and so is each operation on a channel or a wait group.

The jobs channel is a queue of bounded length; where the bound is zero a
`Submit` hands its job to a worker that waits for one. The results channel
has no buffer: a result is sent when the consumer takes it. A send on a
closed channel panics, which `panicked` records. A job carries the number
of the `Submit` it came from, which the source has no need of.
-/

namespace ZkRuntime

namespace Executor

open Coordinator (ContextError)
open Worker (JobStatus Result TaskError)

/-- `validTransition`. -/
def validTransition : JobStatus → JobStatus → Bool
  | .pending, next => next == .running || next == .cancelled
  | .running, next => next == .succeeded || next == .failed || next == .cancelled
  | _, _ => false

/-- `Job`; `call` is the `Submit` it came from. -/
structure Job where
  id : Int64
  timeout : Int64
  /-- `Task != nil`. -/
  hasTask : Bool
  status : JobStatus
  call : ℕ
  deriving DecidableEq

/-- The errors of `Submit`. -/
inductive SubmitError where
  | invalidJob
  | notRunning
  | duplicateJobID
  deriving DecidableEq, Repr

/-- `ExecutorState`. -/
inductive Phase where
  | running
  | shuttingDown
  | stopped
  deriving DecidableEq, Repr

/-- **The place a `Submit` has reached.** -/
inductive SubmitPc where
  | check
  /-- The section under `e.mu`. -/
  | enter
  /-- The section under `e.jobMu`. -/
  | register
  | select
  /-- `stopCh` was taken: before the deletion, under `e.jobMu`. -/
  | unregister
  /-- The deferred `submitWG.Done`. -/
  | leaving (err : Option SubmitError)
  | returned (err : Option SubmitError)
  deriving DecidableEq

/-- A call of `Submit`. -/
structure Submit where
  job : Job
  pc : SubmitPc
  deriving DecidableEq

/-- **The place a worker has reached.** -/
inductive WorkerPc where
  /-- The `select` of its loop. -/
  | idle
  /-- Before `updateJobStatus` to `Running`. -/
  | start (job : Job)
  | executing (job : Job)
  /-- Before `updateJobStatus` to the result's status. -/
  | finish (job : Job) (res : Result)
  /-- `sendResult` of an update that failed. -/
  | failed (job : Job) (res : Result)
  /-- `sendResult` of the job's result. -/
  | sending (job : Job) (res : Result)
  /-- It has returned, with `wg.Done`. -/
  | gone
  deriving DecidableEq

/-- **The place a `Shutdown` has reached.** -/
inductive ShutdownPc where
  /-- `ForceShutdown`: `e.cancel`. -/
  | cancel
  /-- The first section under `e.mu`. -/
  | enter
  /-- Waiting for `doneCh`. -/
  | waitDone
  | waitSubmits
  | closeJobs
  | waitWorkers
  | closeResults
  /-- The last section under `e.mu`. -/
  | finish
  /-- `ForceShutdown`: `cancelPendingJobs`. -/
  | cancelPending
  | returned
  deriving DecidableEq, Repr

/-- A call of `Shutdown`, or of `ForceShutdown`. -/
structure ShutdownCall where
  force : Bool
  pc : ShutdownPc
  deriving DecidableEq

/-- **The executor.** -/
structure State where
  workerCount : ℕ
  queueSize : ℕ
  /-- `e.state`. -/
  phase : Phase
  /-- The values in `e.jobs`. -/
  queue : List Job
  jobs : Signal
  results : Signal
  stopCh : Signal
  doneCh : Signal
  /-- `e.ctx` is cancelled. -/
  cancelled : Bool
  jobRegistry : Int64 → Option Job
  submitWG : ℕ
  wg : ℕ
  submits : ℕ → Option Submit
  nextSubmit : ℕ
  workers : ℕ → WorkerPc
  shutdowns : ℕ → Option ShutdownCall
  nextShutdown : ℕ
  /-- What the consumer has taken from `e.results`. -/
  delivered : List (Job × Result)
  panicked : Bool

/-- `NewExecutor`. -/
def newExecutor (workerCount queueSize : ℕ) : State where
  workerCount := workerCount
  queueSize := queueSize
  phase := .running
  queue := []
  jobs := .pending
  results := .pending
  stopCh := .pending
  doneCh := .pending
  cancelled := false
  jobRegistry := fun _ => none
  submitWG := 0
  wg := workerCount
  submits := fun _ => none
  nextSubmit := 0
  workers := fun _ => .idle
  shutdowns := fun _ => none
  nextShutdown := 0
  delivered := []
  panicked := false

/-- The case a `Submit` takes. -/
inductive SubmitChoice where
  | go
  /-- It sends into the buffer. -/
  | send
  /-- It hands its job to a worker. -/
  | hand (i : ℕ)
  /-- It receives from `stopCh`. -/
  | stop
  deriving DecidableEq

/-- The case a worker takes, or what comes back to it. -/
inductive WorkerChoice where
  | take
  /-- It receives from the closed channel. -/
  | closed
  /-- It receives from `e.ctx.Done()`. -/
  | quit
  | go
  /-- The task returns; then the checkpoint of `ExecuteJob`. -/
  | ran (out : Except TaskError Bytes) (err : Option ContextError) (deadline now : ℕ)
  /-- The consumer takes the result. -/
  | deliver
  deriving DecidableEq

/-- **What can happen.** -/
inductive Action where
  | idle
  /-- `Submit` is called. -/
  | submit (job : Job)
  | submitStep (s : ℕ) (c : SubmitChoice)
  | worker (i : ℕ) (c : WorkerChoice)
  /-- `Shutdown`, or `ForceShutdown`, is called. -/
  | shutdown (force : Bool)
  | shutdownStep (k : ℕ)
  deriving DecidableEq

/-- `ErrJobNotFound`. -/
def errJobNotFound : TaskError := .plain (ascii "job not found")

/-- `ErrInvalidJobTransition`. -/
def errInvalidJobTransition : TaskError := .plain (ascii "invalid job state transition")

/-- `failedResult`. -/
def failedResult (jobID : Int64) (e : TaskError) : Result := ⟨jobID, .failed, [], some e⟩

namespace State

variable (E : State)

/-- **`updateJobStatus`.** -/
def updateJobStatus (id : Int64) (status : JobStatus) : Except TaskError State :=
  match E.jobRegistry id with
  | none => .error errJobNotFound
  | some job =>
    if validTransition job.status status then
      .ok { E with jobRegistry := Function.update E.jobRegistry id (some { job with status := status }) }
    else .error errInvalidJobTransition

/-- A `Submit` at its next place. -/
def putSubmit (s : ℕ) (x : Submit) : State :=
  { E with submits := Function.update E.submits s (some x) }

/-- A worker at its next place. -/
def putWorker (i : ℕ) (pc : WorkerPc) : State :=
  { E with workers := Function.update E.workers i pc }

/-- A `Shutdown` at its next place. -/
def putShutdown (k : ℕ) (x : ShutdownCall) : State :=
  { E with shutdowns := Function.update E.shutdowns k (some x) }

/-! ## Submit -/

/-- **A step of `Submit`.** -/
def submitMove (s : ℕ) (x : Submit) : SubmitPc → SubmitChoice → Option State
  | .check, .go =>
    if x.job.hasTask = false ∨ x.job.timeout ≤ 0 then
      some (E.putSubmit s { x with pc := .returned (some .invalidJob) })
    else some (E.putSubmit s { x with pc := .enter })
  | .enter, .go =>
    if E.phase ≠ .running then some (E.putSubmit s { x with pc := .returned (some .notRunning) })
    else
      some { E.putSubmit s ⟨{ x.job with status := .pending }, .register⟩ with
        submitWG := E.submitWG + 1 }
  | .register, .go =>
    match E.jobRegistry x.job.id with
    | some _ => some (E.putSubmit s { x with pc := .leaving (some .duplicateJobID) })
    | none =>
      some { E.putSubmit s { x with pc := .select } with
        jobRegistry := Function.update E.jobRegistry x.job.id (some x.job) }
  | .select, .send =>
    if E.jobs ≠ .pending then some { E with panicked := true }
    else if E.queue.length < E.queueSize then
      some { E.putSubmit s { x with pc := .leaving none } with queue := E.queue ++ [x.job] }
    else none
  | .select, .hand i =>
    if E.jobs = .pending ∧ E.queueSize = 0 ∧ i < E.workerCount ∧ E.workers i = .idle then
      some ((E.putSubmit s { x with pc := .leaving none }).putWorker i (.start x.job))
    else none
  | .select, .stop =>
    if E.stopCh ≠ .pending then some (E.putSubmit s { x with pc := .unregister }) else none
  | .unregister, .go =>
    some { E.putSubmit s { x with pc := .leaving (some .notRunning) } with
      jobRegistry := Function.update E.jobRegistry x.job.id none }
  | .leaving err, .go =>
    some { E.putSubmit s { x with pc := .returned err } with submitWG := E.submitWG - 1 }
  | _, _ => none

/-! ## Workers -/

/-- A worker returns. -/
def exit (i : ℕ) : State := { E.putWorker i .gone with wg := E.wg - 1 }

/-- `sendResult` meets the consumer. -/
def deliver (i : ℕ) (job : Job) (res : Result) : State :=
  if E.results ≠ .pending then { E with panicked := true }
  else { E.putWorker i .idle with delivered := E.delivered ++ [(job, res)] }

/-- **A step of a worker.** -/
def workerMove (i : ℕ) : WorkerPc → WorkerChoice → Option State
  | .idle, .take =>
    match E.queue with
    | [] => none
    | job :: rest => some { E.putWorker i (.start job) with queue := rest }
  | .idle, .closed => if E.queue = [] ∧ E.jobs ≠ .pending then some (E.exit i) else none
  | .idle, .quit => if E.cancelled then some (E.exit i) else none
  | .start job, .go =>
    match E.updateJobStatus job.id .running with
    | .error e => some (E.putWorker i (.failed job (failedResult job.id e)))
    | .ok E' => some (E'.putWorker i (.executing job))
  | .executing job, .ran out err deadline now =>
    -- the job's context is a child of `e.ctx`
    if E.cancelled ∧ err = none then none
    else some (E.putWorker i (.finish job (Worker.executeJob job.id out err (some deadline) now)))
  | .finish job res, .go =>
    match E.updateJobStatus job.id res.status with
    | .error e => some (E.putWorker i (.failed job (failedResult job.id e)))
    | .ok E' => some (E'.putWorker i (.sending job res))
  | .failed job res, .deliver => some (E.deliver i job res)
  | .sending job res, .deliver => some (E.deliver i job res)
  | .failed _ _, .quit => if E.cancelled then some (E.exit i) else none
  | .sending _ _, .quit => if E.cancelled then some (E.exit i) else none
  | _, _ => none

/-! ## Shutdown -/

/-- `cancelPendingJobs`. -/
def cancelPendingJobs : State :=
  { E with
    jobRegistry := fun id =>
      (E.jobRegistry id).map fun job =>
        if job.status = .pending then { job with status := .cancelled } else job }

/-- `Shutdown` returns, to `ForceShutdown` or to its caller. -/
def afterShutdown (x : ShutdownCall) : ShutdownCall :=
  { x with pc := if x.force then .cancelPending else .returned }

/-- **A step of `Shutdown`.** -/
def shutdownMove (k : ℕ) (x : ShutdownCall) : ShutdownPc → Option State
  | .cancel => some { E.putShutdown k { x with pc := .enter } with cancelled := true }
  | .enter =>
    if E.phase ≠ .running then some (E.putShutdown k { x with pc := .waitDone })
    else
      some { E.putShutdown k { x with pc := .waitSubmits } with
        phase := .shuttingDown, stopCh := E.stopCh.close }
  | .waitDone => if E.doneCh ≠ .pending then some (E.putShutdown k (afterShutdown x)) else none
  | .waitSubmits => if E.submitWG = 0 then some (E.putShutdown k { x with pc := .closeJobs }) else none
  | .closeJobs => some { E.putShutdown k { x with pc := .waitWorkers } with jobs := E.jobs.close }
  | .waitWorkers => if E.wg = 0 then some (E.putShutdown k { x with pc := .closeResults }) else none
  | .closeResults => some { E.putShutdown k { x with pc := .finish } with results := E.results.close }
  | .finish =>
    some { E.putShutdown k (afterShutdown x) with phase := .stopped, doneCh := E.doneCh.close }
  | .cancelPending => some (E.cancelPendingJobs.putShutdown k { x with pc := .returned })
  | .returned => none

/-! ## All steps -/

/-- **The step of the executor.** -/
def step : Action → Option State
  | .idle => some E
  | .submit job =>
    some { E.putSubmit E.nextSubmit ⟨{ job with call := E.nextSubmit }, .check⟩ with
      nextSubmit := E.nextSubmit + 1 }
  | .submitStep s c =>
    match E.submits s with
    | none => none
    | some x => E.submitMove s x x.pc c
  | .worker i c => if i < E.workerCount then E.workerMove i (E.workers i) c else none
  | .shutdown force =>
    some { E.putShutdown E.nextShutdown ⟨force, if force then .cancel else .enter⟩ with
      nextShutdown := E.nextShutdown + 1 }
  | .shutdownStep k =>
    match E.shutdowns k with
    | none => none
    | some x => E.shutdownMove k x x.pc

end State

/-- **The executor** as a system. -/
def executor : System State Action where
  init E := ∃ workerCount queueSize, E = newExecutor workerCount queueSize
  step := State.step

end Executor

end ZkRuntime
