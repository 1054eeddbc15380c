import Mathlib.Algebra.Order.Ring.Int
import ZkRuntime.Common.Table
import ZkRuntime.Coordinator.Model.Registry
import ZkRuntime.RpcAuth.Model.Policy
/-!
# The fields of the registry

`cmd/coordinator/workers.go` as the three fields `workers`, `workerOrder`
and `nextWorker` stand in the server, with no relation between them given:
an index that is out of range panics. `Registry` is the same state with its
invariant carried along. Each operation is its section under `s.mu`,
together with the events it emits once the mutex is unlocked.
-/

namespace ZkRuntime

namespace Coordinator

open RpcAuth

/-- `metrics.WorkerState`. -/
inductive WorkerState where
  | unregistered
  | alive
  | dead
  deriving DecidableEq, Repr

/-- `metrics.WorkerStateChangeCause`. -/
inductive WorkerStateChangeCause where
  | registration
  | heartbeat
  | timeout
  deriving DecidableEq, Repr

/-- The arguments of one `WorkerStateChanged`. -/
structure WorkerStateChange where
  old : WorkerState
  new : WorkerState
  cause : WorkerStateChangeCause
  deriving DecidableEq, Repr

/-- `t.Sub(u)`, a `time.Duration`, which saturates. -/
def sub (t u : Time) : ℤ := max (-2 ^ 63) (min (2 ^ 63 - 1) ((t : ℤ) - (u : ℤ)))

/-- **The fields**: `workers`, `workerOrder` and `nextWorker`. -/
structure Workers where
  workers : Table Bytes WorkerInfo
  workerOrder : List Bytes
  nextWorker : ℕ

namespace Workers

/-- The fields a process starts with. -/
def empty : Workers := ⟨∅, [], 0⟩

/-- The events `RegisterWorker` emits, by the entry it found. -/
def registrationEvents : Option WorkerInfo → List WorkerStateChange
  | none => [⟨.unregistered, .alive, .registration⟩]
  | some previous => if previous.status = .dead then [⟨.dead, .alive, .registration⟩] else []

/-- `RegisterWorker`, under the mutex. -/
def registerWorker (w : Workers) (id address : Bytes) (now : Time) : Workers × List WorkerStateChange :=
  ({ w with
      workers := w.workers.insert id ⟨id, address, now, .alive⟩
      workerOrder := if w.workers.lookup id = none then w.workerOrder ++ [id] else w.workerOrder },
    registrationEvents (w.workers.lookup id))

/-- `Heartbeat`, under the mutex, and whether it is accepted. -/
def heartbeat (w : Workers) (id : Bytes) (now : Time) : Workers × List WorkerStateChange × Bool :=
  match w.workers.lookup id with
  | none => (w, [], false)
  | some worker =>
    ({ w with workers := w.workers.insert id { worker with lastSeen := now, status := .alive } },
      if worker.status = .dead then [⟨.dead, .alive, .heartbeat⟩] else [], true)

/-- A worker has been silent for longer than the timeout. -/
def timedOut (timeout : ℤ) (now : Time) (worker : WorkerInfo) : Bool :=
  decide (timeout < sub now worker.lastSeen)

/-- `checkWorkerLiveness`, under the mutex; `transitions` counts the entries
that were not dead before. -/
def checkWorkerLiveness (w : Workers) (timeout : ℤ) (now : Time) : Workers × List WorkerStateChange :=
  let transitions := w.workers.countValues fun worker =>
    timedOut timeout now worker && worker.status != .dead
  ({ w with
      workers := w.workers.mapValues fun _ worker =>
        if timedOut timeout now worker then { worker with status := .dead } else worker },
    List.replicate transitions ⟨.alive, .dead, .timeout⟩)

/-- The loop of `getNextWorker`; `none` is the panic of an index out of
range. -/
def nextFrom : ℕ → Workers → Option (Option WorkerInfo × Workers)
  | 0, w => some (none, w)
  | n + 1, w =>
    match w.workerOrder[w.nextWorker]? with
    | none => none
    | some workerID =>
      let w' := { w with nextWorker := (w.nextWorker + 1) % w.workerOrder.length }
      match w.workers.lookup workerID with
      | none => nextFrom n w'
      | some worker => if worker.status ≠ .alive then nextFrom n w' else some (some worker, w')

/-- **`getNextWorker`.** -/
def getNextWorker (w : Workers) : Option (Option WorkerInfo × Workers) :=
  if w.workerOrder.length = 0 then some (none, w) else nextFrom w.workerOrder.length w

end Workers

/-- A call on the registry, with the time it reads. -/
inductive Operation where
  | registerWorker (req : RegisterWorkerRequest) (now : Time)
  | heartbeat (id : Bytes) (now : Time)
  | checkWorkerLiveness (timeout : ℤ) (now : Time)
  | getNextWorker

/-- The requests `RegisterWorker` takes the mutex for. -/
def registrable (lib : Library) (req : RegisterWorkerRequest) : Bool :=
  !(req.workerID == [] || req.address == []) && (parseTCPEndpoint lib req.address).isSome

/-- **One call**; `none` is a panic. -/
def Workers.apply (lib : Library) (w : Workers) : Operation → Option Workers
  | .registerWorker req now =>
    if registrable lib req then some (w.registerWorker req.workerID req.address now).1 else some w
  | .heartbeat id now => some (w.heartbeat id now).1
  | .checkWorkerLiveness timeout now => some (w.checkWorkerLiveness timeout now).1
  | .getNextWorker => w.getNextWorker.map (·.2)

/-- **A sequence of calls**, from the start of the process. -/
def Workers.run (lib : Library) (calls : List Operation) : Option Workers :=
  calls.foldlM (Workers.apply lib) Workers.empty

end Coordinator

end ZkRuntime
