import ZkRuntime.Coordinator.Model.State
import ZkRuntime.Lifecycle.Model.Gate
/-!
# The coordinator process and its shutdown

`coordinatorProcess` of `shutdown.go`, as `runCoordinator` starts it: the
goroutine of `initializeCoordinator` with all its exits, the two background
loops and `Serve` that it starts, the handlers behind the admission gate, the
dispatch goroutines that handlers and the recovery loop spawn, and the three
goroutines of a shutdown, the one that decides, the one that stops the server
and the one that cleans up.

Of what the goroutines do in between only their calls of the store are kept.
A loop and `Serve` may end at any time, as may the shutdown's deadline.
-/

namespace ZkRuntime

namespace Coordinator

open Lifecycle (Gate GateAction)

/-- A goroutine. -/
inductive Thread where
  | unborn
  | alive
  | exited
  deriving DecidableEq, Repr

/-- What `initializeCoordinator` does one after the other, up to `start`. -/
inductive Stage where
  | openStore
  /-- `checkDisabledZKRecovery`, or the loading of the verifier. -/
  | checkZK
  | metrics
  | recoverRunningJobs
  | listen
  deriving DecidableEq, Repr

/-- **The place startup has reached.** -/
inductive StartupPlace where
  /-- Reading `ctx.Err()` before a stage, or before `start`. -/
  | context (next : Option Stage)
  | stage (s : Stage)
  /-- `start`: the server and the listener are set. -/
  | publish
  /-- `startBackground`: `background.Add(2)`. -/
  | add
  | goLiveness
  | goRecovery
  | goServe
  /-- `initializeCoordinator` has returned. -/
  | returning
  /-- `startupDone` is closed. -/
  | finished
  deriving DecidableEq, Repr

/-- The place behind a stage that succeeded. -/
def Stage.after : Stage → StartupPlace
  | .openStore => .context (some .checkZK)
  | .checkZK => .context (some .metrics)
  | .metrics => .context (some .recoverRunningJobs)
  | .recoverRunningJobs => .context (some .listen)
  | .listen => .context none

/-- **The function of `shutdownOnce`**, in the call that came first. -/
inductive ShutdownPlace where
  | fresh
  | beginShutdown
  | cancelWork
  /-- In `cancelWork`, the call `k` of it on the gate. -/
  | cancelling (k : ℕ)
  | spawn
  | done
  deriving DecidableEq, Repr

/-- What `errors.Join` joins. -/
inductive ShutdownError where
  /-- `errCoordinatorShutdownIncomplete`. -/
  | incomplete
  | context (e : ContextError)
  | metrics
  | closeStore
  deriving DecidableEq, Repr

/-- The goroutine that stops the server. -/
inductive Stopper where
  | unborn
  | awaitStartup
  | stop
  /-- `stopped` is closed. -/
  | done
  deriving DecidableEq, Repr

/-- **The goroutine that cleans up.** -/
inductive Cleaner where
  | unborn
  | awaitStartup
  | awaitHandlers
  | awaitBackground
  | awaitDispatches
  | awaitStopped
  | awaitServe
  /-- The first reading of `ctx.Err()`. -/
  | check
  | shutdownMetrics
  /-- The second one. -/
  | recheck
  /-- Before `closeStore`. -/
  | close
  /-- In `closeStore`. -/
  | closing
  /-- Behind `closeStore`. -/
  | closed
  /-- About to send what became of it. -/
  | send (errs : List ShutdownError)
  /-- About to close `cleanupDone`. -/
  | finish (errs : List ShutdownError)
  | done (errs : List ShutdownError)
  deriving DecidableEq, Repr

/-- **The goroutine that decides.** -/
inductive Supervisor where
  | unborn
  /-- Before it spawns the other two. -/
  | spawn
  | select
  /-- Behind the receipt from `complete`, in the inner `select`. -/
  | joined (errs : List ShutdownError)
  | decide (errs : List ShutdownError)
  /-- The deferred `cancel`. -/
  | cancel
  /-- The deferred `close(p.shutdownDone)`. -/
  | close
  | done
  deriving DecidableEq, Repr

/-- Who calls the store. -/
inductive Accessor where
  | startup
  | handler (e : ℕ)
  | recovery
  deriving DecidableEq, Repr

/-- Who spawns dispatch goroutines. -/
inductive Producer where
  | handler (e : ℕ)
  | recovery
  deriving DecidableEq, Repr

/-- **The shutdown of a process**: the calls of it and its goroutines. -/
structure Shutdown where
  /-- The calls of `shutdown` that have not returned. -/
  callers : ℕ
  once : ShutdownPlace
  /-- `ctx.Err()` of its context. -/
  ctxErr : Option ContextError
  stopper : Stopper
  cleaner : Cleaner
  /-- What `complete` holds. -/
  complete : Option (List ShutdownError)
  supervisor : Supervisor
  /-- `shutdownErr`. -/
  err : List ShutdownError

/-- `ctx.Err()` as what `errors.Join` takes of it. -/
def Shutdown.ctxErrs (c : Shutdown) : List ShutdownError :=
  (c.ctxErr.map ShutdownError.context).toList

/-- **The process.** -/
structure Process where
  /-- `service.lifecycle`. -/
  gate : Gate
  startup : StartupPlace
  /-- `server` and `serveDone` are set. -/
  server : Bool
  /-- `closeStore` is set. -/
  hasStore : Bool
  /-- `shutdownMetrics` is set. -/
  hasMetrics : Bool
  /-- The counter of `background`. -/
  background : ℕ
  liveness : Thread
  recovery : Thread
  serve : Thread
  /-- The counter of `dispatchWG`. -/
  dispatchWG : ℕ
  dispatches : ℕ → Thread
  nextDispatch : ℕ
  /-- Who is in a call of the store. -/
  inStore : Accessor → Bool
  shut : Shutdown

/-- `newCoordinatorProcess`, with its startup about to begin. -/
def newCoordinatorProcess : Process where
  gate := Lifecycle.newGate
  startup := .context (some .openStore)
  server := false
  hasStore := false
  hasMetrics := false
  background := 0
  liveness := .unborn
  recovery := .unborn
  serve := .unborn
  dispatchWG := 0
  dispatches := fun _ => .unborn
  nextDispatch := 0
  inStore := fun _ => false
  shut := ⟨0, .fresh, none, .unborn, .unborn, none, .unborn, []⟩

/-- **What can happen.** -/
inductive ProcessAction where
  | idle
  /-- A step of startup; what it does may fail. -/
  | startup (fails : Bool)
  /-- A handler calls `tryEnter`, with a context that may have ended. -/
  | request (ended : Bool)
  /-- The context a request came with ends. -/
  | parentDone (e : ℕ)
  /-- A handler returns, and a step of its `leave`. -/
  | leave (e : ℕ)
  | leaveStep (e : ℕ)
  | spawn (who : Producer)
  | dispatchExits (d : ℕ)
  | livenessExits
  | recoveryExits
  | serveReturns
  /-- A call of the store begins, and ends. -/
  | storeBegins (who : Accessor)
  | storeEnds (who : Accessor)
  /-- A call of `shutdown`, and its return. -/
  | shutdown
  | shutdownReturns
  /-- A step of the function of `shutdownOnce`. -/
  | shutdownStep (order : List ℕ)
  | deadline
  | stopper
  /-- A step of the cleanup; what it calls may fail. -/
  | cleaner (fails : Bool)
  /-- A step of the decision; `done` where its `select` takes `ctx.Done()`. -/
  | supervisor (done : Bool)
  deriving DecidableEq, Repr

namespace Process

variable (p : Process)

/-! ## Startup -/

/-- What a stage that succeeds sets. -/
def succeed (s : Stage) : Process :=
  { p with
    hasStore := p.hasStore || s == .openStore
    hasMetrics := p.hasMetrics || s == .metrics
    startup := s.after }

/-- **`initializeCoordinator`**, and the end of its goroutine. -/
def startupStep (fails : Bool) : Option Process :=
  if p.inStore .startup then none
  else
    match p.startup with
    | .context next =>
      if p.gate.cancelled then some { p with startup := .returning }
      else
        match next with
        | some s => some { p with startup := .stage s }
        | none => some { p with startup := .publish }
    | .stage s => if fails then some { p with startup := .returning } else some (p.succeed s)
    | .publish => some { p with server := true, startup := .add }
    | .add => some { p with background := p.background + 2, startup := .goLiveness }
    | .goLiveness => some { p with liveness := .alive, startup := .goRecovery }
    | .goRecovery => some { p with recovery := .alive, startup := .goServe }
    | .goServe => some { p with serve := .alive, startup := .returning }
    | .returning => some { p with startup := .finished }
    | .finished => none

/-! ## What runs in between -/

/-- A step of the gate. -/
def withGate (a : GateAction) : Option Process := (p.gate.step a).map fun l => { p with gate := l }

/-- The handler of a request runs, and has not come to its `leave`. -/
def handles (e : ℕ) : Bool := e ∈ p.gate.active && p.gate.leaving e == .fresh

/-- Who may call the store. -/
def mayAccess : Accessor → Bool
  | .startup => p.startup == .stage .checkZK || p.startup == .stage .recoverRunningJobs
  | .handler e => p.handles e
  | .recovery => p.recovery == .alive

def storeBegins (who : Accessor) : Option Process :=
  if p.mayAccess who ∧ p.inStore who = false then
    some { p with inStore := Function.update p.inStore who true }
  else none

def storeEnds (who : Accessor) : Option Process :=
  if p.inStore who then some { p with inStore := Function.update p.inStore who false } else none

/-- A producer that runs, and is not in the store. -/
def mayProduce : Producer → Bool
  | .handler e => p.handles e && !p.inStore (.handler e)
  | .recovery => p.recovery == .alive && !p.inStore .recovery

/-- `dispatchWG.Add(1)`, and the goroutine. -/
def spawn (who : Producer) : Option Process :=
  if p.mayProduce who then
    some { p with
      dispatchWG := p.dispatchWG + 1
      dispatches := Function.update p.dispatches p.nextDispatch .alive
      nextDispatch := p.nextDispatch + 1 }
  else none

/-- A dispatch goroutine ends, with `dispatchWG.Done`. -/
def dispatchExits (d : ℕ) : Option Process :=
  if p.dispatches d = .alive then
    some { p with
      dispatchWG := p.dispatchWG - 1
      dispatches := Function.update p.dispatches d .exited }
  else none

/-- A handler returns. -/
def leave (e : ℕ) : Option Process :=
  if p.inStore (.handler e) then none else p.withGate (.leave e)

/-- A loop ends, with `background.Done`. -/
def livenessExits : Option Process :=
  if p.liveness = .alive then
    some { p with background := p.background - 1, liveness := .exited }
  else none

def recoveryExits : Option Process :=
  if p.recovery = .alive ∧ p.inStore .recovery = false then
    some { p with background := p.background - 1, recovery := .exited }
  else none

/-- `Serve` returns, and `serveDone` is closed. -/
def serveReturns : Option Process :=
  if p.serve = .alive then some { p with serve := .exited } else none

/-! ## Shutdown -/

/-- A step of the shutdown alone. -/
def closing (c : Shutdown) : Process := { p with shut := c }

/-- A call of `shutdown`: the first one gets into the `once`. -/
def shutdown : Process :=
  p.closing { p.shut with
    callers := p.shut.callers + 1
    once := if p.shut.once = .fresh then .beginShutdown else p.shut.once }

/-- The function of `shutdownOnce` goes on, behind a step of the gate. -/
def onceGate (a : GateAction) (once : ShutdownPlace) : Option Process :=
  (p.withGate a).map fun p' => p'.closing { p.shut with once := once }

/-- **The function of `shutdownOnce`.** -/
def shutdownStep (order : List ℕ) : Option Process :=
  match p.shut.once with
  | .beginShutdown => p.onceGate .beginShutdown .cancelWork
  | .cancelWork => p.onceGate .cancelWork (.cancelling p.gate.nextCall)
  | .cancelling k =>
    if p.gate.calls k = some .returned then some (p.closing { p.shut with once := .spawn })
    else p.onceGate (.cancelWorkStep k order) (.cancelling k)
  | .spawn => some (p.closing { p.shut with once := .done, supervisor := .spawn })
  | _ => none

/-- The deadline of the shutdown's context. -/
def deadline : Option Process :=
  if p.shut.once ≠ .fresh ∧ p.shut.ctxErr = none then
    some (p.closing { p.shut with ctxErr := some .deadlineExceeded })
  else none

/-- The server is stopped, or what there is of it. -/
def stopperStep : Option Process :=
  match p.shut.stopper with
  | .awaitStartup =>
    if p.startup = .finished then some (p.closing { p.shut with stopper := .stop }) else none
  | .stop => some (p.closing { p.shut with stopper := .done })
  | _ => none

/-- The cleanup goes on. -/
def clean (next : Cleaner) : Process := p.closing { p.shut with cleaner := next }

/-- `if err := ctx.Err(); err != nil { complete <- err; return }`. -/
def unlessDone (next : Cleaner) : Process :=
  p.clean (if p.shut.ctxErr = none then next else .send p.shut.ctxErrs)

/-- Waiting, until it is over. -/
def await (h : Bool) (next : Cleaner) : Option Process := if h then some (p.clean next) else none

/-- **The cleanup.** -/
def cleanerStep (fails : Bool) : Option Process :=
  match p.shut.cleaner with
  | .awaitStartup => p.await (p.startup = .finished) .awaitHandlers
  | .awaitHandlers => p.await (p.gate.done = .closed) .awaitBackground
  | .awaitBackground => p.await (p.background = 0) .awaitDispatches
  | .awaitDispatches => p.await (p.dispatchWG = 0) .awaitStopped
  | .awaitStopped => p.await (p.shut.stopper = .done) .awaitServe
  | .awaitServe => p.await (p.server = false ∨ p.serve = .exited) .check
  | .check => some (p.unlessDone .shutdownMetrics)
  | .shutdownMetrics => some (p.clean (if p.hasMetrics ∧ fails then .send [.metrics] else .recheck))
  | .recheck => some (p.unlessDone .close)
  | .close => some (p.clean (if p.hasStore then .closing else .closed))
  | .closing => some (p.clean (if fails then .send [.closeStore] else .closed))
  | .closed => some (p.clean (.send p.shut.ctxErrs))
  | .send errs => some (p.closing { p.shut with complete := some errs, cleaner := .finish errs })
  | .finish errs => some (p.clean (.done errs))
  | _ => none

/-- The decision goes on. -/
def supervise (next : Supervisor) : Process := p.closing { p.shut with supervisor := next }

/-- The case `<-ctx.Done()` of its `select`s. -/
def onDone (errs : List ShutdownError) : Option Process :=
  if p.shut.ctxErr = none then none else some (p.supervise (.decide (errs ++ p.shut.ctxErrs)))

/-- **The decision.** -/
def supervisorStep (done : Bool) : Option Process :=
  match p.shut.supervisor with
  | .spawn =>
    some (p.closing { p.shut with
      supervisor := .select
      stopper := .awaitStartup
      cleaner := .awaitStartup })
  | .select =>
    if done then p.onDone []
    else
      match p.shut.complete with
      | some errs =>
        some (p.closing { p.shut with
          complete := none
          supervisor := .joined (errs ++ p.shut.ctxErrs) })
      | none => none
  | .joined errs =>
    if done then p.onDone errs
    else
      match p.shut.cleaner with
      | .done _ => some (p.supervise (.decide errs))
      | _ => none
  | .decide errs =>
    some (p.closing { p.shut with
      err := if errs = [] then [] else .incomplete :: errs
      supervisor := .cancel })
  | .cancel =>
    some (p.closing { p.shut with
      ctxErr := p.shut.ctxErr.or (some .canceled)
      supervisor := .close })
  | .close => some (p.supervise .done)
  | _ => none

/-- A call of `shutdown` returns `shutdownErr`. -/
def shutdownReturns : Option Process :=
  if p.shut.supervisor = .done ∧ 0 < p.shut.callers then
    some (p.closing { p.shut with callers := p.shut.callers - 1 })
  else none

/-- **The step of the process.** -/
def step : ProcessAction → Option Process
  | .idle => some p
  | .startup fails => p.startupStep fails
  | .request ended => if p.serve = .unborn then none else p.withGate (.tryEnter ended)
  | .parentDone e => p.withGate (.parentDone e)
  | .leave e => p.leave e
  | .leaveStep e => p.withGate (.leaveStep e)
  | .spawn who => p.spawn who
  | .dispatchExits d => p.dispatchExits d
  | .livenessExits => p.livenessExits
  | .recoveryExits => p.recoveryExits
  | .serveReturns => p.serveReturns
  | .storeBegins who => p.storeBegins who
  | .storeEnds who => p.storeEnds who
  | .shutdown => some p.shutdown
  | .shutdownReturns => p.shutdownReturns
  | .shutdownStep order => p.shutdownStep order
  | .deadline => p.deadline
  | .stopper => p.stopperStep
  | .cleaner fails => p.cleanerStep fails
  | .supervisor done => p.supervisorStep done

end Process

/-- **The process as a system.** -/
def coordinatorProcess : System Process ProcessAction where
  init p := p = newCoordinatorProcess
  step p a := p.step a

end Coordinator

end ZkRuntime
