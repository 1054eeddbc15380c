import Mathlib.Data.Finset.Insert
import ZkRuntime.Coordinator.Model.Fingerprint
import ZkRuntime.Coordinator.Model.Registry
/-!
# The state of a coordinator

The shared memory of `CoordinatorServer`, the store behind it, and the
sessions on it: a session is one `SubmitJob` past its claim, or one
`retryRecoveringJobResult` past its claim, with the local variables of the
functions it is in and the place it has reached in them (`Pc`). The places
are cut where other goroutines can be seen: at a store call, at a reading
of the context, and at a section under `s.mu`.

The store is not nil. Metrics are the lifecycle events only, without their
durations.
-/

namespace ZkRuntime

namespace Coordinator

/-- What `ctx.Err()` returns once it is not nil. -/
inductive ContextError where
  | canceled
  | deadlineExceeded
  deriving DecidableEq, Repr

/-- Why `verifyZKPreimageResult` refuses. -/
inductive VerifyError where
  | notConfigured
  | payload (e : Zk.PayloadError)
  | decode
  | rejected
  deriving DecidableEq, Repr

/-- `lastErr`: why an attempt was given up. -/
inductive AttemptFailure where
  | rpc (attempt : AttemptID)
  | fenced (attempt : AttemptID)
  | proof (attempt : AttemptID) (e : VerifyError)
  | leaseExpired (attempt : AttemptID)
  deriving DecidableEq

/-- The errors of `executeJobFromSource`. -/
inductive ExecuteError where
  | context (e : ContextError)
  | disabled
  | invalidSpec (e : SpecError)
  | start
  | invalidStatus (attempt : AttemptID) (status : Bytes)
  | persist (attempt : AttemptID)
  | exhausted (attempt : AttemptID) (cause : AttemptFailure)
  | noWorkers
  deriving DecidableEq

/-- The store call a finalization failed at. -/
inductive StoreCall where
  | load
  | save
  deriving DecidableEq, Repr

/-- A session's number, and a dispatch's. -/
abbrev SessionID := ℕ

abbrev DispatchID := ℕ

/-- The variables of one round of the attempt loop. -/
structure Attempt where
  worker : WorkerInfo
  attemptID : AttemptID
  dispatch : DispatchID
  /-- When `leaseTimer` fires. -/
  timerAt : Time
  deriving DecidableEq

/-- `dispatchResult`. -/
structure DispatchResult where
  resp : Option ExecuteJobResponse
  failed : Bool
  deriving DecidableEq

/-- A dispatch goroutine: its request, and what it has sent back. -/
structure Dispatch where
  worker : WorkerInfo
  req : ExecuteJobRequest
  result : Option DispatchResult
  deriving DecidableEq

/-- **How a session ends.** -/
inductive Outcome where
  /-- An accepted result: a response and a nil error. -/
  | accepted (att : Attempt) (resp : ExecuteJobResponse)
  /-- A stale recovery snapshot: a nil error, and nothing was executed. -/
  | skipped
  /-- The first `Load` of a recovery failed. -/
  | reload
  /-- The error of `executeJobFromSource`, as it came. -/
  | failed (e : ExecuteError)
  /-- `persistSubmitFailure` could not reach the store. -/
  | finalize (e : ExecuteError) (call : StoreCall)
  /-- The context's error, once cancellation is finalized. -/
  | cancelled (e : ContextError)
  /-- `persistSubmitCancellation` could not reach the store. -/
  | cancelFailed (e : ContextError) (call : StoreCall)
  /-- `restoreRecoveringJob` could not reach the store. -/
  | repairFailed (e : ExecuteError) (call : StoreCall)
  deriving DecidableEq

/-- The error is nil. -/
def Outcome.isOk : Outcome → Bool
  | .accepted .. | .skipped => true
  | _ => false

/-- The response a client gets, where it gets one. -/
def Outcome.reply : Outcome → Option SubmitJobResponse
  | .accepted _ resp => some ⟨resp.jobID, resp.status, resp.output, resp.error, resp.attemptID⟩
  | _ => none

/-- **The place a session has reached.** -/
inductive Pc where
  /-- `retryRecoveringJobResult`: the `Load` under ownership. -/
  | reload
  /-- Reading `initialAttempt`. -/
  | readInitial
  /-- `executeJobFromSource`: the checks on entry. -/
  | enter
  /-- The head of the attempt loop. -/
  | loop
  | pick
  /-- `publishAttempt`: locking, and the `Load`. -/
  | publishLoad (w : WorkerInfo)
  /-- `publishAttempt`: the `Save`, under the lock. -/
  | publishSave (w : WorkerInfo) (next : AttemptID)
  | spawn (w : WorkerInfo) (a : AttemptID)
  | select (att : Attempt)
  /-- A result was received; the context is read. -/
  | received (att : Attempt) (res : DispatchResult)
  /-- The first acceptance check, and the status. -/
  | fence (att : Attempt) (resp : Option ExecuteJobResponse)
  | verify (att : Attempt) (resp : ExecuteJobResponse) (st : JobState)
  /-- `persistTerminalResult`: locking, and the last acceptance check. -/
  | accept (att : Attempt) (resp : ExecuteJobResponse) (st : JobState)
  /-- `persistTerminalResult`: the `Save`, under the lock. -/
  | commit (att : Attempt) (resp : ExecuteJobResponse) (st : JobState)
  /-- Behind the attempt loop. -/
  | exhausted
  /-- `executeJobFromSource` returned an error. -/
  | failed (e : ExecuteError)
  /-- `persistSubmitFailure`: locking, the guards and the `Load`. -/
  | failLoad (a : AttemptID) (cause : AttemptFailure)
  /-- `persistSubmitFailure`: the last check, under the lock. -/
  | failCheck (a : AttemptID) (cause : AttemptFailure) (current : Option JobRecord)
  | failSave (a : AttemptID) (cause : AttemptFailure) (current : JobRecord)
  /-- `executeJob`: reading the context for the last time. -/
  | cancelCheck (e : ExecuteError)
  /-- `persistSubmitCancellation`: locking, the guards, the `Load` and the
  check of what it found. -/
  | cancelLoad (e : ContextError)
  | cancelSave (e : ContextError) (current : JobRecord)
  /-- `restoreRecoveringJob`: the `Load` and the check of what it found. -/
  | repairLoad (e : ExecuteError) (a : AttemptID)
  | repairSave (e : ExecuteError) (current : JobRecord)
  /-- The deferred `releaseJob`. -/
  | release (out : Outcome)
  deriving DecidableEq

/-- The entry point a session came through, with what it was given. -/
inductive Source where
  | submit (req : SubmitJobRequest)
  | recovery (snapshot : JobRecord)
  deriving DecidableEq

def Source.isRecovery : Source → Bool
  | .submit _ => false
  | .recovery _ => true

/-- `recoveryExecution`. -/
structure RecoveryExecution where
  executed : Bool
  terminal : Bool
  repairFailed : Bool
  generation : AttemptID
  specHash : Bytes
  deriving DecidableEq

/-- **A session.** `lastPublished` is `none` until an attempt has been
published; `result` is what a recovery reports to the pass that began it. -/
structure Session where
  source : Source
  spec : JobSpec
  ctxErr : Option ContextError
  initialAttempt : AttemptID
  i : ℕ
  lastErr : Option AttemptFailure
  lastPublished : Option AttemptID
  result : RecoveryExecution
  pc : Pc
  deriving DecidableEq

/-- `JobLease`. -/
structure JobLease where
  jobID : JobID
  attemptID : AttemptID
  workerID : Bytes
  expiresAt : Time
  deriving DecidableEq

/-- What a process is configured with, before it serves. -/
structure Config where
  zkDisabled : Bool
  /-- `Verify` of the configured verifier succeeds. -/
  verifier : Option (Bytes → Zk.FrElement → Bool)
  leaseDuration : Int64

/-- `defaultAttemptLease`, in nanoseconds. -/
def defaultAttemptLease : Int64 := 5000000000

/-- The lease an attempt is given. -/
def Config.attemptLease (cfg : Config) : ℕ :=
  (if cfg.leaseDuration ≤ 0 then defaultAttemptLease else cfg.leaseDuration).toInt.toNat

/-- How far a process is. -/
inductive Phase where
  | down
  /-- The store is open. -/
  | starting
  /-- Past `checkDisabledZKRecovery`. -/
  | checked
  /-- In the loop of `recoverRunningJobs`, with the rows still to mark. -/
  | marking (rows : List JobRecord)
  | serving
  deriving DecidableEq

/-- **The state.** All but the store, the clock and the two counters is the
memory of a process, and is lost with it. -/
structure State where
  store : Store
  now : Time
  phase : Phase
  config : Config
  /-- The session that holds `s.mu` between two of its steps. -/
  mu : Option SessionID
  registry : Registry
  jobAttempts : JobID → Option AttemptID
  leases : JobID → Option JobLease
  activeJobs : Finset JobID
  sessions : SessionID → Option Session
  nextSession : SessionID
  dispatches : DispatchID → Option Dispatch
  nextDispatch : DispatchID

/-- A process that holds nothing in memory. -/
def State.restart (s : State) (phase : Phase) (cfg : Config) : State :=
  { s with
    phase := phase
    config := cfg
    mu := none
    registry := .empty
    jobAttempts := fun _ => none
    leases := fun _ => none
    activeJobs := ∅
    sessions := fun _ => none
    dispatches := fun _ => none }

end Coordinator

end ZkRuntime
