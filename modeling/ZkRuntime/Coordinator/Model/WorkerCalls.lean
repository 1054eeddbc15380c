import ZkRuntime.Common.Count
import ZkRuntime.Common.Run
import ZkRuntime.Coordinator.Model.Transport
import ZkRuntime.Coordinator.Model.Workers
/-!
# Concurrent calls on the registry

Any number of `RegisterWorker`, `Heartbeat` and `checkWorkerLiveness` calls
at once. A call is a thread: it changes the fields in one section under
`s.mu`, and emits its `WorkerStateChanged` events one after the other when
the mutex is unlocked, so that events of different calls may come in any
order. `checkWorkerLiveness` reads the clock before it locks.
-/

namespace ZkRuntime

namespace Coordinator

open RpcAuth

/-- A call, as it is made. -/
inductive WorkerCall where
  | registerWorker (req : RegisterWorkerRequest)
  | heartbeat (req : HeartbeatRequest)
  | checkWorkerLiveness (timeout : ℤ)

/-- Where a call is. -/
inductive CallPc where
  | begun (c : WorkerCall)
  /-- `checkWorkerLiveness` with its `now`, in front of the mutex. -/
  | timed (timeout : ℤ) (now : Time)
  /-- Behind the mutex, with the events still to be emitted. -/
  | emitting (events : List WorkerStateChange) (reply : Option Reply)
  | returned (reply : Option Reply)

/-- **The registry and the calls on it**; an event is kept with the call that
emitted it. -/
structure Metered where
  fields : Workers
  calls : ℕ → Option CallPc
  numCalls : ℕ
  events : List (ℕ × WorkerStateChange)

/-- What a step of a call leaves: where it is next, the fields, and the event
it emits. -/
structure CallMove where
  next : CallPc
  fields : Workers
  event : Option WorkerStateChange

/-- **One step of a call**, which reads `now` where it reads the clock. -/
def CallPc.move (lib : Library) (w : Workers) (now : Time) : CallPc → Option CallMove
  | .begun (.registerWorker req) =>
    if req.workerID = [] ∨ req.address = [] then
      some ⟨.returned (some (.registered false (ascii "worker_id and address are required"))), w, none⟩
    else if parseTCPEndpoint lib req.address = none then
      some ⟨.returned (some (.registered false (ascii "invalid Worker TCP endpoint"))), w, none⟩
    else
      let locked := w.registerWorker req.workerID req.address now
      some ⟨.emitting locked.2 (some (.registered true [])), locked.1, none⟩
  | .begun (.heartbeat req) =>
    let locked := w.heartbeat req.workerID now
    some ⟨.emitting locked.2.1 (some (.seen locked.2.2)), locked.1, none⟩
  | .begun (.checkWorkerLiveness timeout) => some ⟨.timed timeout now, w, none⟩
  | .timed timeout now =>
    let locked := w.checkWorkerLiveness timeout now
    some ⟨.emitting locked.2 none, locked.1, none⟩
  | .emitting (e :: events) reply => some ⟨.emitting events reply, w, some e⟩
  | .emitting [] reply => some ⟨.returned reply, w, none⟩
  | .returned _ => none

/-- What can happen. -/
inductive MeteredAction where
  | call (c : WorkerCall)
  | step (i : ℕ) (now : Time)
  | getNextWorker
  | idle

namespace Metered

/-- A process that has just started. -/
def start : Metered := ⟨Workers.empty, fun _ => none, 0, []⟩

def step (lib : Library) (s : Metered) : MeteredAction → Option Metered
  | .call c =>
    some { s with
      calls := Function.update s.calls s.numCalls (some (.begun c))
      numCalls := s.numCalls + 1 }
  | .step i now => do
    let pc ← s.calls i
    let m ← pc.move lib s.fields now
    pure { s with
      fields := m.fields
      calls := Function.update s.calls i (some m.next)
      events := s.events ++ m.event.toList.map (i, ·) }
  | .getNextWorker => s.fields.getNextWorker.map fun x => { s with fields := x.2 }
  | .idle => some s

end Metered

/-- **The system of calls.** -/
def meteredCalls (lib : Library) : System Metered MeteredAction where
  init s := s = Metered.start
  step := Metered.step lib

/-- No call is in progress. -/
def Metered.Quiet (s : Metered) : Prop :=
  ∀ i < s.numCalls, ∃ reply, s.calls i = some (.returned reply)

end Coordinator

end ZkRuntime
