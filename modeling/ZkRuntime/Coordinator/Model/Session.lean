import ZkRuntime.Common.Base64
import ZkRuntime.Coordinator.Model.State
/-!
# The steps of a session

`SubmitJob` and `retryRecoveringJobResult` past their claims, with all they
call: `executeJob`, `executeJobFromSource`, `publishAttempt`,
`persistTerminalResult`, `persistSubmitFailure`, `persistSubmitCancellation`
and `restoreRecoveringJob`. One definition for each place, and a `Move` as
the result: what happens to the shared state, the metrics emitted, and the
session afterwards. What the outside decides (a store call that fails, the
case a `select` takes) is the step's `Choice`.
-/

namespace ZkRuntime

namespace Coordinator

/-! ## What the steps compute -/

/-- `checkZKAvailable`. -/
def checkZKAvailable (cfg : Config) (taskType : Bytes) : Bool :=
  !(cfg.zkDisabled && taskType == zkTaskType)

/-- `verifyZKPreimageResult`. -/
def verifyZKPreimageResult (verifier : Option (Bytes → Zk.FrElement → Bool))
    (payload output : Bytes) : Except VerifyError Unit :=
  match verifier with
  | none => .error .notConfigured
  | some verify =>
    match Zk.parsePreimagePublicPayload payload with
    | .error e => .error (.payload e)
    | .ok publicInput =>
      match Base64.decodeString output with
      | none => .error .decode
      | some proofBytes => if verify proofBytes publicInput.digest then .ok () else .error .rejected

/-- The generation `publishAttempt` takes: one more than the greater of
the memory's and the store's, as 64-bit integers add. -/
def nextAttempt (memory : Option AttemptID) (stored : Option JobRecord) : AttemptID :=
  let persistedAttempt := (stored.map JobRecord.attemptID).getD 0
  let baseAttempt := memory.getD 0
  (if baseAttempt < persistedAttempt then persistedAttempt else baseAttempt) + 1

/-- `isLeaseCurrentLocked`. -/
def isLeaseCurrent (lease : Option JobLease) (a : AttemptID) (now : Time) : Bool :=
  match lease with
  | none => false
  | some l => l.attemptID == a && decide (now < l.expiresAt)

/-- `maxAttempts`. -/
def maxAttempts : ℕ := 2

/-! ## Events, choices, effects -/

inductive AttemptOutcome where
  | accepted
  | rpcError
  | leaseExpired
  | cancelled
  | fenced
  | proofRejected
  | taskFailed
  | taskCancelled
  | invalidStatus
  | persistenceError
  deriving DecidableEq, Repr

inductive AttemptRejectReason where
  | fencing
  | proof
  deriving DecidableEq, Repr

/-- The lifecycle events of `metrics.Metrics`. -/
inductive Event where
  | attemptStarted
  | attemptFinished (outcome : AttemptOutcome)
  | attemptRejected (reason : AttemptRejectReason)
  | jobTerminal (st : JobState)
  deriving DecidableEq, Repr

/-- How an accepted attempt is reported. -/
def acceptedOutcome : JobState → AttemptOutcome
  | .failed => .taskFailed
  | .cancelled => .taskCancelled
  | _ => .accepted

/-- What the outside decides in a session's step. -/
inductive Choice where
  | go
  /-- The `Load` of the step fails. -/
  | loadFails
  /-- The `Save` of the step fails, and took effect or did not. -/
  | saveFails (applied : Bool)
  /-- The cases of the `select`. -/
  | result
  | timer
  | done
  deriving DecidableEq, Repr

/-- What a session's step does to what it shares. -/
inductive Effect where
  | silent
  | registry (r : Registry)
  /-- A `Save` of the record, in effect or not. -/
  | save (r : JobRecord) (applied : Bool)
  /-- A `Save` in effect, with the generation and its lease published. -/
  | publish (r : JobRecord)
  | dispatch (w : WorkerInfo) (req : ExecuteJobRequest)
  | release

structure Move where
  effect : Effect
  events : List Event
  next : Option Session

namespace Session

variable (s : State) (x : Session)

/-- The job the session is about. -/
def jobID : JobID := x.spec.jobID

def goto (pc : Pc) : Session := { x with pc := pc }

/-- `continue`: the round is lost, and why. -/
def retry (f : AttemptFailure) : Session :=
  { x with lastErr := some f, i := x.i + 1, pc := .loop }

/-- A record of the session's job. -/
def record (st : JobState) (a : AttemptID) (w : WorkerInfo) : JobRecord :=
  ⟨x.spec.jobID, st, a, w.id, x.spec.taskType, x.spec.payload, x.spec.timeoutMs⟩

/-- The request the worker is sent. -/
def request (a : AttemptID) : ExecuteJobRequest :=
  ⟨x.spec.jobID, x.spec.taskType, x.spec.payload, x.spec.timeoutMs, a⟩

/-- A step nobody else sees. -/
def quiet (x : Session) (events : List Event := []) : Move := ⟨.silent, events, some x⟩

/-! ## The places -/

/-- `retryRecoveringJobResult` under ownership: the snapshot may be stale. -/
def reload (isPrint : ℕ → Bool) : Choice → Option Move
  | .loadFails => some (quiet (x.goto (.release .reload)))
  | .go =>
    match s.store.load x.jobID with
    | some current =>
      if current.state = .recovering ∧ current.attemptID = x.result.generation then
        some (quiet { x with
          spec := jobSpecFromRecord current
          result := { x.result with specHash := recoverySpecHash isPrint current }
          pc := .readInitial })
      else some (quiet (x.goto (.release .skipped)))
    | none => some (quiet (x.goto (.release .skipped)))
  | _ => none

def readInitial : Choice → Option Move
  | .go =>
    some (quiet { x with
      initialAttempt := (s.jobAttempts x.jobID).getD 0
      result := { x.result with executed := x.source.isRecovery }
      pc := .enter })
  | _ => none

def enter : Choice → Option Move
  | .go =>
    match x.ctxErr with
    | some e => some (quiet (x.goto (.failed (.context e))))
    | none =>
      if !checkZKAvailable s.config x.spec.taskType then some (quiet (x.goto (.failed .disabled)))
      else
        match validateJobSpec x.spec with
        | .error e => some (quiet (x.goto (.failed (.invalidSpec e))))
        | .ok spec => some (quiet { x with spec := spec, i := 0, lastErr := none, pc := .loop })
  | _ => none

def loop : Choice → Option Move
  | .go =>
    if x.i < maxAttempts then
      match x.ctxErr with
      | some e => some (quiet (x.goto (.failed (.context e))))
      | none => some (quiet (x.goto .pick))
    else some (quiet (x.goto .exhausted))
  | _ => none

def pick : Choice → Option Move
  | .go =>
    match s.registry.getNextWorker with
    | (some w, r) => some ⟨.registry r, [], some (x.goto (.publishLoad w))⟩
    | (none, r) => some ⟨.registry r, [], some (x.goto .exhausted)⟩
  | _ => none

def publishLoad (w : WorkerInfo) : Choice → Option Move
  | .loadFails => some (quiet (x.goto (.failed .start)))
  | .go =>
    let next := nextAttempt (s.jobAttempts x.jobID) (s.store.load x.jobID)
    some (quiet (x.goto (.publishSave w next)))
  | _ => none

def publishSave (w : WorkerInfo) (next : AttemptID) : Choice → Option Move
  | .saveFails applied =>
    some ⟨.save (x.record .running next w) applied, [], some (x.goto (.failed .start))⟩
  | .go =>
    some ⟨.publish (x.record .running next w), [.attemptStarted],
      some { x with lastPublished := some next, pc := .spawn w next }⟩
  | _ => none

def spawn (w : WorkerInfo) (a : AttemptID) : Choice → Option Move
  | .go =>
    some ⟨.dispatch w (x.request a), [],
      some (x.goto (.select ⟨w, a, s.nextDispatch, s.now + s.config.attemptLease⟩))⟩
  | _ => none

def select (att : Attempt) : Choice → Option Move
  | .result =>
    match (s.dispatches att.dispatch).bind Dispatch.result with
    | some res => some (quiet (x.goto (.received att res)))
    | none => none
  | .timer =>
    if att.timerAt ≤ s.now then
      some (quiet (x.retry (.leaseExpired att.attemptID)) [.attemptFinished .leaseExpired])
    else none
  | .done =>
    match x.ctxErr with
    | some e => some (quiet (x.goto (.failed (.context e))) [.attemptFinished .cancelled])
    | none => none
  | _ => none

def received (att : Attempt) (res : DispatchResult) : Choice → Option Move
  | .go =>
    match x.ctxErr with
    | some e => some (quiet (x.goto (.failed (.context e))) [.attemptFinished .cancelled])
    | none =>
      if res.failed then some (quiet (x.retry (.rpc att.attemptID)) [.attemptFinished .rpcError])
      else some (quiet (x.goto (.fence att res.resp)))
  | _ => none

def fence (att : Attempt) (resp : Option ExecuteJobResponse) : Choice → Option Move
  | .go =>
    match resp with
    | none =>
      some (quiet (x.retry (.fenced att.attemptID))
        [.attemptRejected .fencing, .attemptFinished .fenced])
    | some resp =>
      if resp.jobID ≠ x.jobID ∨ resp.attemptID ≠ att.attemptID ∨
          !isLeaseCurrent (s.leases x.jobID) att.attemptID s.now then
        some (quiet (x.retry (.fenced att.attemptID))
          [.attemptRejected .fencing, .attemptFinished .fenced])
      else
        match jobStateFromStatus resp.status with
        | none =>
          some (quiet (x.goto (.failed (.invalidStatus att.attemptID resp.status)))
            [.attemptFinished .invalidStatus])
        | some st => some (quiet (x.goto (.verify att resp st)))
  | _ => none

def verify (att : Attempt) (resp : ExecuteJobResponse) (st : JobState) : Choice → Option Move
  | .go =>
    if x.spec.taskType = zkTaskType ∧ st = .succeeded then
      match verifyZKPreimageResult s.config.verifier x.spec.payload resp.output with
      | .error e =>
        some (quiet (x.retry (.proof att.attemptID e))
          [.attemptRejected .proof, .attemptFinished .proofRejected])
      | .ok () => some (quiet (x.goto (.accept att resp st)))
    else some (quiet (x.goto (.accept att resp st)))
  | _ => none

/-- The last acceptance check: the context, and the lease. -/
def accept (att : Attempt) (resp : ExecuteJobResponse) (st : JobState) : Choice → Option Move
  | .go =>
    match x.ctxErr with
    | some e => some (quiet (x.goto (.failed (.context e))) [.attemptFinished .cancelled])
    | none =>
      if isLeaseCurrent (s.leases x.jobID) att.attemptID s.now then
        some (quiet (x.goto (.commit att resp st)))
      else
        some (quiet (x.retry (.fenced att.attemptID))
          [.attemptRejected .fencing, .attemptFinished .fenced])
  | _ => none

def commit (att : Attempt) (resp : ExecuteJobResponse) (st : JobState) : Choice → Option Move
  | .saveFails applied =>
    some ⟨.save (x.record st att.attemptID att.worker) applied, [.attemptFinished .persistenceError],
      some (x.goto (.failed (.persist att.attemptID)))⟩
  | .go =>
    some ⟨.save (x.record st att.attemptID att.worker) true,
      [.jobTerminal st, .attemptFinished (acceptedOutcome st)],
      some { x with
        result := { x.result with terminal := true, generation := resp.attemptID }
        pc := .release (.accepted att resp) }⟩
  | _ => none

def exhausted : Choice → Option Move
  | .go =>
    match x.ctxErr with
    | some e => some (quiet (x.goto (.failed (.context e))))
    | none =>
      match x.lastErr with
      | some f => some (quiet (x.goto (.failed (.exhausted (x.lastPublished.getD 0) f))))
      | none => some (quiet (x.goto (.failed .noWorkers)))
  | _ => none

/-- Behind `executeJobFromSource`, where it returned an error: a submission
looks whether it was retry exhaustion under a live context, a recovery
whether it published a generation. -/
def failed (e : ExecuteError) : Choice → Option Move
  | .go =>
    match x.source with
    | .submit _ =>
      match x.ctxErr, e with
      | none, .exhausted a cause => some (quiet (x.goto (.failLoad a cause)))
      | _, _ => some (quiet (x.goto (.cancelCheck e)))
    | .recovery _ =>
      let failedAttempt := (s.jobAttempts x.jobID).getD 0
      if x.initialAttempt < failedAttempt then
        some (quiet { x with
          result := { x.result with generation := failedAttempt }
          pc := .repairLoad e failedAttempt })
      else some (quiet (x.goto (.release (.failed e))))
  | _ => none

def failLoad (a : AttemptID) (cause : AttemptFailure) : Choice → Option Move
  | .go =>
    if x.ctxErr ≠ none ∨ x.jobID ∉ s.activeJobs ∨ a ≤ x.initialAttempt ∨ a ≤ 0 ∨
        (s.jobAttempts x.jobID).getD 0 ≠ a then
      some (quiet (x.goto (.cancelCheck (.exhausted a cause))))
    else some (quiet (x.goto (.failCheck a cause (s.store.load x.jobID))))
  | .loadFails =>
    if x.ctxErr ≠ none ∨ x.jobID ∉ s.activeJobs ∨ a ≤ x.initialAttempt ∨ a ≤ 0 ∨
        (s.jobAttempts x.jobID).getD 0 ≠ a then
      some (quiet (x.goto (.cancelCheck (.exhausted a cause))))
    else some (quiet (x.goto (.release (.finalize (.exhausted a cause) .load))))
  | _ => none

def failCheck (a : AttemptID) (cause : AttemptFailure) (current : Option JobRecord) :
    Choice → Option Move
  | .go =>
    match x.ctxErr, current with
    | none, some r =>
      if r.jobID = x.jobID ∧ r.state = .running ∧ r.attemptID = a then
        some (quiet (x.goto (.failSave a cause r)))
      else some (quiet (x.goto (.cancelCheck (.exhausted a cause))))
    | _, _ => some (quiet (x.goto (.cancelCheck (.exhausted a cause))))
  | _ => none

def failSave (a : AttemptID) (cause : AttemptFailure) (current : JobRecord) : Choice → Option Move
  | .saveFails applied =>
    some ⟨.save { current with state := .failed } applied, [],
      some (x.goto (.release (.finalize (.exhausted a cause) .save)))⟩
  | .go =>
    some ⟨.save { current with state := .failed } true, [.jobTerminal .failed],
      some (x.goto (.release (.failed (.exhausted a cause))))⟩
  | _ => none

def cancelCheck (e : ExecuteError) : Choice → Option Move
  | .go =>
    match x.ctxErr with
    | none => some (quiet (x.goto (.release (.failed e))))
    | some ce => some (quiet (x.goto (.cancelLoad ce)))
  | _ => none

def cancelLoad (e : ContextError) : Choice → Option Move
  | .go =>
    if x.jobID ∉ s.activeJobs ∨ (s.jobAttempts x.jobID).getD 0 ≤ x.initialAttempt then
      some (quiet (x.goto (.release (.cancelled e))))
    else
      match s.store.load x.jobID with
      | some current =>
        if current.jobID = x.jobID ∧ current.state = .running ∧
            current.attemptID = (s.jobAttempts x.jobID).getD 0 then
          some (quiet (x.goto (.cancelSave e current)))
        else some (quiet (x.goto (.release (.cancelled e))))
      | none => some (quiet (x.goto (.release (.cancelled e))))
  | .loadFails =>
    if x.jobID ∉ s.activeJobs ∨ (s.jobAttempts x.jobID).getD 0 ≤ x.initialAttempt then
      some (quiet (x.goto (.release (.cancelled e))))
    else some (quiet (x.goto (.release (.cancelFailed e .load))))
  | _ => none

def cancelSave (e : ContextError) (current : JobRecord) : Choice → Option Move
  | .saveFails applied =>
    some ⟨.save { current with state := .cancelled } applied, [],
      some (x.goto (.release (.cancelFailed e .save)))⟩
  | .go =>
    some ⟨.save { current with state := .cancelled } true, [.jobTerminal .cancelled],
      some (x.goto (.release (.cancelled e)))⟩
  | _ => none

/-- A repair the store refuses ends the session with `repairFailed` set. -/
def repairAborted (e : ExecuteError) (call : StoreCall) : Session :=
  { x with
    result := { x.result with repairFailed := true }
    pc := .release (.repairFailed e call) }

def repairLoad (e : ExecuteError) (a : AttemptID) : Choice → Option Move
  | .loadFails => some (quiet (x.repairAborted e .load))
  | .go =>
    match s.store.load x.jobID with
    | some current =>
      if current.state = .running ∧ current.attemptID = a then
        some (quiet (x.goto (.repairSave e current)))
      else some (quiet (x.goto (.release (.failed e))))
    | none => some (quiet (x.goto (.release (.failed e))))
  | _ => none

def repairSave (e : ExecuteError) (current : JobRecord) : Choice → Option Move
  | .saveFails applied =>
    some ⟨.save { current with state := .recovering } applied, [], some (x.repairAborted e .save)⟩
  | .go =>
    some ⟨.save { current with state := .recovering } true, [],
      some (x.goto (.release (.failed e)))⟩
  | _ => none

def release : Choice → Option Move
  | .go => some ⟨.release, [], none⟩
  | _ => none

/-- **The step of a session.** -/
def move (isPrint : ℕ → Bool) (c : Choice) : Option Move :=
  match x.pc with
  | .reload => x.reload s isPrint c
  | .readInitial => x.readInitial s c
  | .enter => x.enter s c
  | .loop => x.loop c
  | .pick => x.pick s c
  | .publishLoad w => x.publishLoad s w c
  | .publishSave w next => x.publishSave w next c
  | .spawn w a => x.spawn s w a c
  | .select att => x.select s att c
  | .received att res => x.received att res c
  | .fence att resp => x.fence s att resp c
  | .verify att resp st => x.verify s att resp st c
  | .accept att resp st => x.accept s att resp st c
  | .commit att resp st => x.commit att resp st c
  | .exhausted => x.exhausted c
  | .failed e => x.failed s e c
  | .failLoad a cause => x.failLoad s a cause c
  | .failCheck a cause current => x.failCheck a cause current c
  | .failSave a cause current => x.failSave a cause current c
  | .cancelCheck e => x.cancelCheck e c
  | .cancelLoad e => x.cancelLoad s e c
  | .cancelSave e current => x.cancelSave e current c
  | .repairLoad e a => x.repairLoad s e a c
  | .repairSave e current => x.repairSave e current c
  | .release _ => release c

/-! ## The lock -/

/-- The places between two of whose steps `s.mu` is held. -/
def holdsMu : Bool :=
  match x.pc with
  | .publishSave .. | .commit .. | .failCheck .. | .failSave .. | .cancelSave .. => true
  | _ => false

/-- The places whose step is, or is part of, a section under `s.mu`. -/
def usesMu : Bool :=
  match x.pc with
  | .readInitial | .pick | .publishLoad _ | .fence .. | .accept .. | .failLoad .. | .cancelLoad _
  | .release _ => true
  | .failed _ => x.source.isRecovery
  | _ => x.holdsMu

end Session

end Coordinator

end ZkRuntime
