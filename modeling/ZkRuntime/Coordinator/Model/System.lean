import Mathlib.Data.Finset.Erase
import Mathlib.Data.List.Perm.Basic
import ZkRuntime.Common.Run
import ZkRuntime.Coordinator.Model.Session
/-!
# The coordinator as a system

Processes come and go over one store. A process opens the store, looks for
unfinished preimage jobs where it cannot finish them, marks the `Running`
rows it finds (`recoverRunningJobs`), and then serves: submissions and
recoveries claim jobs, their sessions take their steps in any order, worker
results arrive or do not, contexts end, time passes. A crash may come
anywhere and loses all but the store.

A recovery may be begun with any snapshot here, as the passes that begin
them hold snapshots of any age.
-/

namespace ZkRuntime

namespace Coordinator

/-- **What can happen.** -/
inductive Action where
  /-- Time passes; no time passing is the idle step. -/
  | tick (d : ℕ)
  | crash
  | boot (cfg : Config)
  /-- `checkDisabledZKRecovery`, whose listing may fail. -/
  | checkDisabledZK (fails : Bool)
  /-- The listing of `recoverRunningJobs`: what it returned, if it did. -/
  | listRunning (rows : Option (List JobRecord))
  /-- One round of the loop of `recoverRunningJobs`. -/
  | markRecovering (c : Choice)
  | serve
  | registerWorker (id address : Bytes)
  | heartbeat (id : Bytes)
  | checkLiveness (timeout : ℕ)
  /-- `SubmitJob` up to its claim, with the context it is called with. -/
  | submit (req : SubmitJobRequest) (ctxErr : Option ContextError)
  /-- `retryRecoveringJobResult` up to its claim. -/
  | recover (snapshot : JobRecord) (ctxErr : Option ContextError)
  /-- A session's context ends. -/
  | cancel (sid : SessionID) (e : ContextError)
  /-- A dispatch goroutine sends its result. -/
  | deliver (did : DispatchID) (res : DispatchResult)
  | session (sid : SessionID) (c : Choice)

namespace State

variable (s : State)

/-! ## Claims -/

/-- A submission's session as it begins, its specification validated. -/
def submitSession (req : SubmitJobRequest) (spec : JobSpec) : Session where
  source := .submit req
  spec := spec
  ctxErr := none
  initialAttempt := 0
  i := 0
  lastErr := none
  lastPublished := none
  result := ⟨false, false, false, 0, []⟩
  pc := .readInitial

/-- A recovery's session as it begins. -/
def recoverySession (isPrint : ℕ → Bool) (snapshot : JobRecord) (ctxErr : Option ContextError) :
    Session where
  source := .recovery snapshot
  spec := jobSpecFromRecord snapshot
  ctxErr := ctxErr
  initialAttempt := 0
  i := 0
  lastErr := none
  lastPublished := none
  result := ⟨false, false, false, snapshot.attemptID, recoverySpecHash isPrint snapshot⟩
  pc := .reload

/-- A successful `claimJob`, and the session it begins. -/
def claim (x : Session) : State :=
  { s with
    activeJobs := insert x.jobID s.activeJobs
    sessions := Function.update s.sessions s.nextSession (some x)
    nextSession := s.nextSession + 1 }

/-- `claimJob` for a session: refused where the job is active. -/
def tryClaim (x : Session) : Option State :=
  if s.mu = none then
    if x.jobID ∈ s.activeJobs then some s else some (s.claim x)
  else none

/-- **`SubmitJob` up to its claim.** Whatever it refuses changes nothing. -/
def submit (req : SubmitJobRequest) (ctxErr : Option ContextError) : Option State :=
  if s.phase ≠ .serving then none
  else if ctxErr ≠ none then some s
  else if !checkZKAvailable s.config req.taskType then some s
  else
    match validateJobSpec (jobSpecFromRequest req) with
    | .error _ => some s
    | .ok spec => s.tryClaim (submitSession req spec)

/-- **`retryRecoveringJobResult` up to its claim.** -/
def recover (isPrint : ℕ → Bool) (snapshot : JobRecord) (ctxErr : Option ContextError) :
    Option State :=
  if s.phase ≠ .serving then none
  else if snapshot.state ≠ .recovering then some s
  else s.tryClaim (recoverySession isPrint snapshot ctxErr)

/-! ## A session's step -/

/-- What a session's step does to the state it shares. `j` is its job. -/
def apply (j : JobID) : Effect → State
  | .silent => s
  | .registry r => { s with registry := r }
  | .save r applied => if applied then { s with store := s.store.save r } else s
  | .publish r =>
    { s with
      store := s.store.save r
      jobAttempts := Function.update s.jobAttempts j (some r.attemptID)
      leases := Function.update s.leases j
        (some ⟨j, r.attemptID, r.workerID, s.now + s.config.attemptLease⟩) }
  | .dispatch w req =>
    { s with
      dispatches := Function.update s.dispatches s.nextDispatch (some ⟨w, req, none⟩)
      nextDispatch := s.nextDispatch + 1 }
  | .release => { s with activeJobs := s.activeJobs.erase j }

/-- Who holds `s.mu` after a step of `sid` that used it. -/
def muAfter (sid : SessionID) : Option Session → Option SessionID
  | some x => if x.holdsMu then some sid else none
  | none => none

/-- The state behind a move of the session `x`, which is `sid`. -/
def advance (sid : SessionID) (x : Session) (m : Move) : State :=
  { s.apply x.jobID m.effect with
    sessions := Function.update s.sessions sid m.next
    mu := if x.usesMu then muAfter sid m.next else s.mu }

/-- **A session's step**: a section under `s.mu` waits until it is free. -/
def sessionStep (isPrint : ℕ → Bool) (sid : SessionID) (c : Choice) : Option State :=
  match s.sessions sid with
  | none => none
  | some x =>
    if x.usesMu ∧ s.mu ≠ (if x.holdsMu then some sid else none) then none
    else (x.move s isPrint c).map (s.advance sid x)

/-! ## Startup -/

/-- The store has an unfinished preimage job. -/
def unfinishedZK : Bool :=
  (s.store.listByState .running ++ s.store.listByState .recovering).any
    fun r => r.taskType == zkTaskType

/-- `checkDisabledZKRecovery`, or the loading of the verifier in its place. -/
def checkDisabledZK (fails : Bool) : Option State :=
  if s.phase ≠ .starting then none
  else if s.config.zkDisabled ∧ (fails ∨ s.unfinishedZK) then some (s.restart .down s.config)
  else some { s with phase := .checked }

def listRunning (rows : Option (List JobRecord)) : Option State :=
  if s.phase ≠ .checked then none
  else
    match rows with
    | none => some (s.restart .down s.config)
    | some rows =>
      if rows.Perm (s.store.listByState .running) then some { s with phase := .marking rows }
      else none

/-- The row `recoverRunningJobs` writes in the place of a valid one. -/
def recoveringRow (row : JobRecord) (spec : JobSpec) : JobRecord :=
  { row with payload := spec.payload, state := .recovering }

/-- One round of the loop of `recoverRunningJobs`: an invalid row is left
as it is, and a failed `Save` ends the process. -/
def markRecovering (c : Choice) : Option State :=
  match s.phase with
  | .marking (row :: rows) =>
    match validateJobSpec (jobSpecFromRecord row) with
    | .error _ => if c = .go then some { s with phase := .marking rows } else none
    | .ok spec =>
      match c with
      | .go =>
        some { s with store := s.store.save (recoveringRow row spec), phase := .marking rows }
      | .saveFails applied =>
        some ((if applied then { s with store := s.store.save (recoveringRow row spec) }
          else s).restart .down s.config)
      | _ => none
  | _ => none

/-! ## All steps -/

/-- A dispatch goroutine sends its result, once. -/
def deliver (did : DispatchID) (res : DispatchResult) : Option State :=
  match s.dispatches did with
  | some d =>
    if d.result = none then
      some { s with dispatches := Function.update s.dispatches did (some { d with result := some res }) }
    else none
  | none => none

/-- A session's context ends, once. -/
def cancel (sid : SessionID) (e : ContextError) : Option State :=
  match s.sessions sid with
  | some x =>
    if x.ctxErr = none then
      some { s with sessions := Function.update s.sessions sid (some { x with ctxErr := some e }) }
    else none
  | none => none

/-- An update of the registry, under `s.mu`. -/
def withRegistry (f : Registry → Registry) : Option State :=
  if s.phase = .serving ∧ s.mu = none then some { s with registry := f s.registry } else none

/-- **The step of the coordinator.** -/
def step (isPrint : ℕ → Bool) : Action → Option State
  | .tick d => some { s with now := s.now + d }
  | .crash => some (s.restart .down s.config)
  | .boot cfg => if s.phase = .down then some (s.restart .starting cfg) else none
  | .checkDisabledZK fails => s.checkDisabledZK fails
  | .listRunning rows => s.listRunning rows
  | .markRecovering c => s.markRecovering c
  | .serve => if s.phase = .marking [] then some { s with phase := .serving } else none
  | .registerWorker id address => s.withRegistry fun r => r.registerWorker id address s.now
  | .heartbeat id => s.withRegistry fun r => r.heartbeat id s.now
  | .checkLiveness timeout => s.withRegistry fun r => r.checkWorkerLiveness timeout s.now
  | .submit req ctxErr => s.submit req ctxErr
  | .recover snapshot ctxErr => s.recover isPrint snapshot ctxErr
  | .cancel sid e => s.cancel sid e
  | .deliver did res => s.deliver did res
  | .session sid c => s.sessionStep isPrint sid c

end State

/-- **The coordinator.** It begins with no process running, over any store. -/
def coordinator (isPrint : ℕ → Bool) : System State Action where
  init s := s = s.restart .down s.config
  step s a := s.step isPrint a

end Coordinator

end ZkRuntime
