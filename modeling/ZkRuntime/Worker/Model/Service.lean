import ZkRuntime.Worker.Model.Task
/-!
# The worker's service

`buildTask` and `WorkerService.ExecuteJob` of `cmd/worker/main.go`, with
`ExecuteJob` of `internal/runtime/executor.go` and the statuses of
`job.go`. An execution is given by what comes back to it from outside: the
answers to its task, and what its own checkpoint reads. `int` has 64 bits.
-/

namespace ZkRuntime

namespace Worker

open Coordinator (ContextError ExecuteJobRequest ExecuteJobResponse zkTaskType validTimeout)

/-- `JobStatus`. -/
inductive JobStatus where
  | pending
  | running
  | succeeded
  | failed
  | cancelled
  deriving DecidableEq, Repr

/-- `String`. -/
def JobStatus.text : JobStatus → Bytes
  | .pending => ascii "Pending"
  | .running => ascii "Running"
  | .succeeded => ascii "Succeeded"
  | .failed => ascii "Failed"
  | .cancelled => ascii "Cancelled"

/-- `Result`. -/
structure Result where
  jobID : Int64
  status : JobStatus
  output : Bytes
  err : Option TaskError
  deriving DecidableEq

/-- The result of an error: a context that ended makes it a cancellation. -/
def errorResult (jobID : Int64) (e : TaskError) : Result :=
  ⟨jobID, if e.canceled || e.deadlineExceeded then .cancelled else .failed, [], some e⟩

/-- **`ExecuteJob`** of the runtime, of what the task returned and of what
the context answers behind it. -/
def executeJob (jobID : Int64) (out : Except TaskError Bytes) (err : Option ContextError)
    (deadline : Option ℕ) (now : ℕ) : Result :=
  match out with
  | .error e => errorResult jobID e
  | .ok output =>
    match resultContextError err deadline now with
    | some e => errorResult jobID (.ofContext e)
    | none => ⟨jobID, .succeeded, output, none⟩

/-! ## Tasks from requests -/

/-- `time.ParseDuration`, which fails with a text, and how a duration is
printed. -/
structure Durations where
  parse : Bytes → Except Bytes ℤ
  print : ℤ → Bytes

/-- The tasks a worker has. -/
inductive Task where
  | hash (input : Bytes)
  | sleep (duration : ℤ)
  | preimage (task : PreimageTask)
  deriving DecidableEq

/-- `task.(runtime.ZKPreimageTask)` succeeds. -/
def Task.isPreimage : Task → Bool
  | .preimage _ => true
  | _ => false

/-- **An execution of a task**: what it returns with these answers, if they
are the ones it asks for. -/
def Task.execute (lib : Durations) : Task → List Answer → Option (Except TaskError Bytes)
  | .hash input, answers =>
    match answers with
    | [.context err] => if input = [] then none else some (hashExecute input err)
    | [] => if input = [] then some (hashExecute input none) else none
    | _ => none
  | .sleep duration, answers =>
    match answers with
    | [.context err] => some (sleepExecute (lib.print duration) err)
    | _ => none
  | .preimage task, answers => task.execute answers

/-- `WorkerService`, as far as `ExecuteJob` reads it. -/
structure Service where
  /-- `preimageProver != nil`. -/
  hasProver : Bool
  /-- `witnessStore != nil`. -/
  hasWitnessStore : Bool
  zkDisabled : Bool
  /-- `provingLimiter != nil`. -/
  hasLimiter : Bool

namespace Service

variable (w : Service) (lib : Durations)

/-- **`buildTask`.** -/
def buildTask (taskType payload : Bytes) : Except Bytes Task :=
  if taskType = ascii "hash" then .ok (.hash payload)
  else if taskType = ascii "sleep" then
    match lib.parse payload with
    | .error e => .error e
    | .ok duration => .ok (.sleep duration)
  else if taskType = zkTaskType then
    if w.hasProver = false then .error (ascii "preimage prover is not configured")
    else if w.hasWitnessStore = false then .error (ascii "witness store is not configured")
    else .ok (.preimage ⟨payload, false⟩)
  else .error (ascii "unknown task type: " ++ taskType)

/-- The status codes `ExecuteJob` fails with. -/
inductive RpcCode where
  | invalidArgument
  | failedPrecondition
  | resourceExhausted
  deriving DecidableEq, Repr

/-- What is outside of one execution. -/
structure Env where
  /-- The deadline of the call's context. -/
  parentDeadline : Option ℕ
  /-- The time `context.WithTimeout` reads. -/
  start : ℕ
  /-- The answers to the task. -/
  answers : List Answer
  /-- What the checkpoint of `runtime.ExecuteJob` reads. -/
  err : Option ContextError
  now : ℕ

/-- The deadline of `jobCtx`, of a budget in milliseconds. -/
def Env.deadline (env : Env) (timeoutMs : Int64) : ℕ :=
  let d := env.start + timeoutMs.toInt.toNat * 1000000
  match env.parentDeadline with
  | some p => min p d
  | none => d

/-- The shared limiter is put into a preimage task. -/
def limit : Task → Task
  | .preimage task => .preimage { task with limited := true }
  | task => task

/-- The response of a job that was executed. -/
def respond (req : ExecuteJobRequest) (res : Result) :
    Except (RpcCode × Bytes) ExecuteJobResponse :=
  match res.err with
  | some e =>
    if e.busy then .error (.resourceExhausted, e.text)
    else .ok ⟨res.jobID, res.status.text, res.output, e.text, req.attemptID⟩
  | none => .ok ⟨res.jobID, res.status.text, res.output, [], req.attemptID⟩

/-- **`WorkerService.ExecuteJob`**: a response, or the error of the call. -/
def executeJob (env : Env) (req : ExecuteJobRequest) :
    Option (Except (RpcCode × Bytes) ExecuteJobResponse) :=
  if validTimeout req.timeoutMs = false then
    some (.error (.invalidArgument, ascii "timeout_ms must be between 1 and 9223372036854"))
  else if w.zkDisabled ∧ req.taskType = zkTaskType then
    some (.ok ⟨req.jobID, ascii "Failed", [], ascii "ZK tasks are disabled", req.attemptID⟩)
  else
    match w.buildTask lib req.taskType req.payload with
    | .error e => some (.ok ⟨req.jobID, ascii "failed", [], e, req.attemptID⟩)
    | .ok task =>
      if task.isPreimage ∧ w.hasLimiter = false then
        some (.error (.failedPrecondition, ascii "proving limiter is not configured"))
      else
        match (limit task).execute lib env.answers with
        | none => none
        | some out =>
          some (respond req
            (Worker.executeJob req.jobID out env.err (some (env.deadline req.timeoutMs)) env.now))

end Service

end Worker

end ZkRuntime
