import ZkRuntime.Coordinator.Model.Schedule
import ZkRuntime.Coordinator.Model.System
/-!
# The recovery scheduler

`runRecoveryScheduler` with `runScheduledRecoveryPass`, on the state of a
serving process: one loop, whose passes list the recovering jobs and retry
them one after the other, while submissions come and go. As for the
sessions, the loop is cut where others can be seen: at a store call, at a
reading of its context, at a reading of the clock. A retried job is a
session of the process, which the loop waits for; the loop's context is the
session's.
-/

namespace ZkRuntime

namespace Coordinator

/-- **The place the loop has reached.** -/
inductive Place where
  /-- Before the loop, with a notification that may already wait. -/
  | start
  /-- The head of the loop. -/
  | head
  /-- `runScheduledRecoveryPass`: its beginning. -/
  | pass
  | list
  /-- The listing failed at that time. -/
  | scanFailed (failedAt : Time)
  /-- The head of the pass's loop. -/
  | next
  /-- The `Load` of a listed job. -/
  | load (snapshot : JobRecord)
  /-- `recheck`, and the end of the round. -/
  | recheck (r : JobRecord) (failed : Bool)
  /-- Before `retryRecoveringJobResult`. -/
  | claim (current : JobRecord)
  /-- In `retryRecoveringJobResult`, past its claim. -/
  | running (current : JobRecord) (sid : SessionID)
  /-- `retryRecoveringJobResult` returned. -/
  | returned (current : JobRecord) (result : RecoveryExecution) (failed : Bool)
  /-- `completed`: the `Load`. -/
  | completed (current : JobRecord) (result : RecoveryExecution) (failed : Bool)
  /-- `completed`: a counted failure, whose retry is to be set. -/
  | failure (j : JobID) (e : RetryEntry)
  /-- The end of a round. -/
  | settled (failed : Bool)
  /-- Behind the pass. -/
  | after
  /-- In the `select`, with the timer's deadline where it is armed. -/
  | waiting (due : Option Time)
  | stopped
  deriving DecidableEq

/-- **The loop**: its schedule, and its variables. -/
structure Loop where
  schedule : RecoverySchedule
  ctxErr : Option ContextError
  /-- `recoveryReady` holds a notification. -/
  ready : Bool
  /-- When the pass began. -/
  began : Time
  /-- The listed records still to come. -/
  rows : List JobRecord
  seen : List JobID
  place : Place

/-- What the outside decides in a step of the loop. -/
inductive LoopChoice where
  | go
  /-- The listing fails, or returns these records. -/
  | listFails
  | listed (rows : List JobRecord)
  /-- The `Load` of the step fails. -/
  | loadFails
  /-- The cases of the `select`. -/
  | done
  | ready
  | timer
  deriving DecidableEq

namespace Loop

variable (isPrint : ℕ → Bool) (s : State) (L : Loop)

def goto (place : Place) : Loop := { L with place := place }

/-- The loop before it starts. -/
def initial (ready : Bool) : Loop := ⟨newRecoverySchedule, none, ready, 0, [], [], .start⟩

/-! ## The places -/

/-- `if ctx.Err() != nil { return }`, else on. -/
def unlessDone (L' : Loop) : Loop :=
  match L.ctxErr with
  | some _ => L.goto .stopped
  | none => L'

def head : LoopChoice → Option Loop
  | .go =>
    some (L.unlessDone
      (if s.now < L.schedule.scan.nextRetry then L.goto .after else L.goto .pass))
  | _ => none

def pass : LoopChoice → Option Loop
  | .go => some (L.unlessDone { L with began := s.now, place := .list })
  | _ => none

def list : LoopChoice → Option Loop
  | .listFails => some (L.goto (.scanFailed s.now))
  | .listed rows =>
    if rows.Perm (s.store.listByState .recovering) then
      some { L with
        schedule := { L.schedule with scan := .zero }.reconcile isPrint rows
        rows := rows
        seen := []
        place := .next }
    else none
  | _ => none

def scanFailed (sample : Sampler) : LoopChoice → Option Loop
  | .go => some { L with schedule := L.schedule.scanFailed s.now sample, place := .after }
  | _ => none

def next : LoopChoice → Option Loop
  | .go =>
    match L.rows with
    | [] => some (L.unlessDone (L.goto .after))
    | snapshot :: rows =>
      if snapshot.jobID ∈ L.seen then some { L with rows := rows }
      else
        let L' := { L with rows := rows, seen := snapshot.jobID :: L.seen }
        some (L'.unlessDone
          (if L.schedule.eligible snapshot s.now then L'.goto (.load snapshot) else L'))
  | _ => none

def load (snapshot : JobRecord) : LoopChoice → Option Loop
  | .loadFails => some (L.goto (.recheck snapshot false))
  | .go =>
    match s.store.load snapshot.jobID with
    | none => some { L with schedule := L.schedule.delete snapshot.jobID, place := .next }
    | some current =>
      if current.state ≠ .recovering then
        some { L with schedule := L.schedule.delete snapshot.jobID, place := .next }
      else if current.attemptID ≠ snapshot.attemptID then
        some { L with
          schedule := L.schedule.delete snapshot.jobID
          place := .recheck current false }
      else some (L.goto (.claim current))
  | _ => none

def recheck (r : JobRecord) (failed : Bool) (sample : Sampler) : LoopChoice → Option Loop
  | .go =>
    some { L with
      schedule := L.schedule.recheck isPrint r s.now sample
      place := .settled failed }
  | _ => none

/-- Behind `retryRecoveringJobResult`. -/
def returned (current : JobRecord) (result : RecoveryExecution) (failed : Bool) :
    LoopChoice → Option Loop
  | .go =>
    match L.ctxErr with
    | none => some (L.goto (.completed current result failed))
    | some _ => some (L.goto (if failed then .stopped else .next))
  | _ => none

/-- The loop behind a `completed` that has not to read the clock any more. -/
def complete (j : JobID) (failed : Bool) : RecoverySchedule.Completion → Loop
  | .delete => { L with schedule := L.schedule.delete j, place := .settled failed }
  | .replaced r => { L with schedule := L.schedule.delete j, place := .recheck r failed }
  | .recheck r => L.goto (.recheck r failed)
  | .failure e => L.goto (.failure j e)

def completed (current : JobRecord) (result : RecoveryExecution) (failed : Bool) :
    LoopChoice → Option Loop
  | .go =>
    if result.terminal ∨ result.repairFailed then
      some (L.complete current.jobID failed .delete)
    else
      some (L.complete current.jobID failed
        (L.schedule.completed isPrint current result failed (some (s.store.load current.jobID))))
  | .loadFails =>
    if result.terminal ∨ result.repairFailed then none
    else
      some (L.complete current.jobID failed
        (L.schedule.completed isPrint current result failed none))
  | _ => none

def failure (j : JobID) (e : RetryEntry) (sample : Sampler) : LoopChoice → Option Loop
  | .go =>
    some { L with
      schedule := L.schedule.set j { e with nextRetry := retryAt s.now e.failures sample }
      place := .settled true }
  | _ => none

def settled (failed : Bool) : LoopChoice → Option Loop
  | .go => some (if failed then L.unlessDone (L.goto .next) else L.goto .next)
  | _ => none

/-- The timer is armed where there is a deadline, and a deadline that has
passed is due at once. -/
def after : LoopChoice → Option Loop
  | .go =>
    some (L.unlessDone (L.goto (.waiting
      (if L.schedule.deadline = 0 then none else some (max L.schedule.deadline s.now)))))
  | _ => none

def waiting (due : Option Time) : LoopChoice → Option Loop
  | .done => if L.ctxErr = none then none else some (L.goto .stopped)
  | .ready => if L.ready then some { L with ready := false, place := .head } else none
  | .timer =>
    match due with
    | some t => if t ≤ s.now then some (L.goto .head) else none
    | none => none
  | _ => none

/-- **A step of the loop that changes nothing but the loop.** -/
def move (sample : Sampler) (c : LoopChoice) : Option Loop :=
  match L.place with
  | .start => if c = .go then some { L with ready := false, place := .head } else none
  | .head => L.head s c
  | .pass => L.pass s c
  | .list => L.list isPrint s c
  | .scanFailed _ => L.scanFailed s sample c
  | .next => L.next s c
  | .load snapshot => L.load s snapshot c
  | .recheck r failed => L.recheck isPrint s r failed sample c
  | .returned current result failed => L.returned current result failed c
  | .completed current result failed => L.completed isPrint s current result failed c
  | .failure j e => L.failure s j e sample c
  | .settled failed => L.settled failed c
  | .after => L.after s c
  | .waiting due => L.waiting s due c
  | .claim _ | .running .. | .stopped => none

end Loop

/-! ## The system -/

/-- **A serving process with its scheduler.** -/
structure Scheduler where
  core : State
  loop : Loop

/-- What happens to it. -/
inductive SchedulerAction where
  /-- A step of the process: time, workers, submissions and sessions. -/
  | process (a : Action)
  /-- A notification; the channel holds one. -/
  | notify
  /-- The loop's context ends, and with it that of the session it waits for. -/
  | shutdown (e : ContextError)
  | loop (c : LoopChoice) (sample : Sampler)

/-- The steps of a process that serves, the retries of the scheduler and the
ends of their contexts apart. -/
def Action.serves (s : State) : Action → Bool
  | .tick _ | .registerWorker .. | .heartbeat _ | .checkLiveness _ | .submit .. | .deliver ..
  | .session .. => true
  | .cancel sid _ => (s.sessions sid).all fun x => !x.source.isRecovery
  | _ => false

namespace Scheduler

variable (isPrint : ℕ → Bool) (S : Scheduler)

/-- What `retryRecoveringJobResult` returns where it does not claim the job. -/
def conflict (current : JobRecord) : RecoveryExecution :=
  ⟨false, false, false, current.attemptID, recoverySpecHash isPrint current⟩

/-- **The call of `retryRecoveringJobResult`**, up to its claim. -/
def claim (current : JobRecord) : Option Scheduler :=
  match S.loop.ctxErr with
  | some _ => some { S with loop := S.loop.goto .stopped }
  | none =>
    match S.core.recover isPrint current none with
    | none => none
    | some core =>
      some ⟨core, S.loop.goto
        (if current.state ≠ .recovering ∨ current.jobID ∈ S.core.activeJobs then
          .returned current (conflict isPrint current) true
        else .running current S.core.nextSession)⟩

/-- What a session that is about to release its job returns. -/
def returns (s : State) (sid : SessionID) : Option (RecoveryExecution × Bool) :=
  match s.sessions sid with
  | some x =>
    match x.pc with
    | .release out => some (x.result, !out.isOk)
    | _ => none
  | none => none

/-- The loop goes on once the session it waits for has released its job. -/
def awaited (a : Action) : Loop :=
  match S.loop.place, a with
  | .running current sid, .session i _ =>
    if i = sid then
      match returns S.core sid with
      | some (result, failed) => S.loop.goto (.returned current result failed)
      | none => S.loop
    else S.loop
  | _, _ => S.loop

/-- A step of the process. -/
def process (a : Action) : Option Scheduler :=
  if a.serves S.core then (S.core.step isPrint a).map fun core => ⟨core, S.awaited a⟩ else none

def shutdown (e : ContextError) : Option Scheduler :=
  if S.loop.ctxErr ≠ none then none
  else
    match S.loop.place with
    | .running _ sid =>
      (S.core.cancel sid e).map fun core => ⟨core, { S.loop with ctxErr := some e }⟩
    | _ => some { S with loop := { S.loop with ctxErr := some e } }

/-- **The step of the scheduler.** -/
def step : SchedulerAction → Option Scheduler
  | .process a => S.process isPrint a
  | .notify => some { S with loop := { S.loop with ready := true } }
  | .shutdown e => S.shutdown e
  | .loop c sample =>
    match S.loop.place with
    | .claim current => if c = .go then S.claim isPrint current else none
    | _ => (S.loop.move isPrint S.core sample c).map fun loop => { S with loop := loop }

end Scheduler

/-- **The scheduler**, in a process that has just begun to serve over any
store. -/
def scheduler (isPrint : ℕ → Bool) : System Scheduler SchedulerAction where
  init S := S.core = S.core.restart .serving S.core.config ∧ S.loop = .initial S.loop.ready
  step S a := S.step isPrint a

end Coordinator

end ZkRuntime
