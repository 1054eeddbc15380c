import Mathlib.Data.Finset.Dedup
import Mathlib.Data.Finset.Erase
import Mathlib.Data.Finset.Insert
import Mathlib.Logic.Function.Basic
import ZkRuntime.Common.Run
import ZkRuntime.Common.Sync
/-!
# The admission gate

`coordinatorLifecycle` of `cmd/coordinator/shutdown.go` and `workerLifecycle`
of `cmd/worker/shutdown.go`, which have the same text but for the names of
their types. A section under `l.mu` is one step, and so is each call of a
cancel function outside of it; in between, everyone else may go on.

A request is known by the number of its admission, and a call of
`cancelWork` by its number. `leave` is called any
number of times: its `sync.Once` lets one of the calls run, and the others
wait for it.
-/

namespace ZkRuntime

namespace Lifecycle

/-- **How far a request's `leave` is.** -/
inductive Leaving where
  /-- It was not called. -/
  | fresh
  /-- In the function of its `once`, before `cancel`. -/
  | called
  /-- Before the section under `l.mu`. -/
  | cancelled
  | left
  deriving DecidableEq, Repr

/-- **How far a call of `cancelWork` is.** -/
inductive Cancelling where
  /-- Before `l.cancel`. -/
  | called
  /-- Before the section under `l.mu`. -/
  | collect
  /-- The cancel functions still to call. -/
  | calling (cancels : List ℕ)
  | returned
  deriving DecidableEq, Repr

/-- **The gate**, with the contexts it made and the calls on it. -/
structure Gate where
  /-- `l.ctx` is cancelled. -/
  cancelled : Bool
  draining : Bool
  active : Finset ℕ
  done : Signal
  /-- The next request to be admitted. -/
  next : ℕ
  /-- The context of a request has ended. -/
  ended : ℕ → Bool
  leaving : ℕ → Leaving
  calls : ℕ → Option Cancelling
  nextCall : ℕ

/-- `newCoordinatorLifecycle`, `newWorkerLifecycle`. -/
def newGate : Gate where
  cancelled := false
  draining := false
  active := ∅
  done := .pending
  next := 0
  ended := fun _ => false
  leaving := fun _ => .fresh
  calls := fun _ => none
  nextCall := 0

/-- **What can happen to a gate.** -/
inductive GateAction where
  | idle
  /-- A call of `tryEnter`, with a context that may have ended. -/
  | tryEnter (ended : Bool)
  /-- The context a request came with ends. -/
  | parentDone (e : ℕ)
  /-- A call of a request's `leave`. -/
  | leave (e : ℕ)
  /-- A step of the function of its `once`. -/
  | leaveStep (e : ℕ)
  | beginShutdown
  /-- A call of `cancelWork`. -/
  | cancelWork
  /-- A step of such a call, with the order its loop over the map takes. -/
  | cancelWorkStep (k : ℕ) (order : List ℕ)
  deriving DecidableEq, Repr

namespace Gate

variable (l : Gate)

/-- **`tryEnter`**: the request it admits, where it does. -/
def tryEnter (ended : Bool) : Option ℕ × Gate :=
  if l.draining then (none, l)
  else
    (some l.next,
      { l with
        active := insert l.next l.active
        next := l.next + 1
        ended := Function.update l.ended l.next ended })

/-- The context of a request ends; it stays so. -/
def cancel (e : ℕ) : Gate := { l with ended := Function.update l.ended e true }

/-- A call of `leave`: the first one gets into the `once`. -/
def leave (e : ℕ) : Option Gate :=
  if e < l.next then
    if l.leaving e = .fresh then some { l with leaving := Function.update l.leaving e .called }
    else some l
  else none

/-- The section of `leave` under `l.mu`. -/
def remove (e : ℕ) : Gate :=
  { l with
    active := l.active.erase e
    leaving := Function.update l.leaving e .left
    done := if l.draining ∧ l.active.erase e = ∅ then l.done.close else l.done }

def leaveStep (e : ℕ) : Option Gate :=
  match l.leaving e with
  | .called => some { l.cancel e with leaving := Function.update l.leaving e .cancelled }
  | .cancelled => some (l.remove e)
  | _ => none

/-- **`beginShutdown`.** -/
def beginShutdown : Gate :=
  if l.draining then l
  else { l with draining := true, done := if l.active = ∅ then l.done.close else l.done }

/-- A call of `cancelWork`. -/
def cancelWork : Gate :=
  { l with
    calls := Function.update l.calls l.nextCall (some .called)
    nextCall := l.nextCall + 1 }

/-- A call of `cancelWork`, where it goes on. -/
def goto (k : ℕ) (c : Cancelling) : Gate :=
  { l with calls := Function.update l.calls k (some c) }

def cancelWorkStep (k : ℕ) (order : List ℕ) : Option Gate :=
  match l.calls k with
  | some .called => some { l.goto k .collect with cancelled := true }
  | some .collect =>
    if order.Nodup ∧ order.toFinset = l.active then some (l.goto k (.calling order)) else none
  | some (.calling (e :: es)) => some ((l.cancel e).goto k (.calling es))
  | some (.calling []) => some (l.goto k .returned)
  | _ => none

/-- **The step of the gate.** -/
def step : GateAction → Option Gate
  | .idle => some l
  | .tryEnter ended => some (l.tryEnter ended).2
  | .parentDone e => if e < l.next then some (l.cancel e) else none
  | .leave e => l.leave e
  | .leaveStep e => l.leaveStep e
  | .beginShutdown => some l.beginShutdown
  | .cancelWork => some l.cancelWork
  | .cancelWorkStep k order => l.cancelWorkStep k order

end Gate

/-- **The gate as a system.** -/
def gate : System Gate GateAction where
  init l := l = newGate
  step l a := l.step a

def coordinatorLifecycle : System Gate GateAction := gate

def workerLifecycle : System Gate GateAction := gate

end Lifecycle

end ZkRuntime
