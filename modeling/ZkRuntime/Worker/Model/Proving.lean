import Mathlib.Logic.Function.Basic
import ZkRuntime.Common.Run
import ZkRuntime.Worker.Model.Task
/-!
# Executions that share a limiter

Any number of `Execute` calls of preimage tasks over one `ProvingLimiter`
(`internal/runtime/proving_limiter.go`): a buffered channel, of which the
capacity and the number of values in it are all there is to see. Calls
begin, take their steps in any order, and have their contexts end under
them.
-/

namespace ZkRuntime

namespace Worker

open Coordinator (ContextError)

/-- `NewProvingLimiter`: the capacity, where it is positive. -/
def newProvingLimiter (limit : ℤ) : Option ℕ := if limit ≤ 0 then none else some limit.toNat

/-- One call of `Execute`, with its context. -/
structure Execution where
  task : PreimageTask
  ctxErr : Option ContextError
  deadline : Option ℕ
  pc : Pc
  deriving DecidableEq

/-- **The calls and their limiter.** -/
structure Provers where
  /-- `cap(l.slots)`. -/
  limit : ℕ
  /-- `len(l.slots)`. -/
  slots : ℕ
  now : ℕ
  calls : ℕ → Option Execution
  /-- The number of the next call. -/
  next : ℕ

/-- **What can happen.** -/
inductive ProverAction where
  /-- Time passes; no time passing is the idle step. -/
  | tick (d : ℕ)
  /-- `Execute` is called. -/
  | execute (task : PreimageTask) (err : Option ContextError) (deadline : Option ℕ)
  /-- The context of a call ends. -/
  | cancel (i : ℕ) (e : ContextError)
  /-- A call takes a step, with what comes back to it. -/
  | step (i : ℕ) (a : Answer)

namespace Provers

variable (S : Provers)

/-- The answer is what the context, the clock and the limiter say; the
witness store and the prover say what they like. -/
def gives (x : Execution) : Answer → Bool
  | .context err => err == x.ctxErr
  | .acquired ok => ok == decide (S.slots < S.limit)
  | .checkpoint err deadline now => err == x.ctxErr && deadline == x.deadline && now == S.now
  | _ => true

/-- `TryAcquire` sends where there is room; `Release` receives, and waits
where there is nothing to receive. -/
def slotsAfter : Pc → Answer → Option ℕ
  | .acquire _ _, .acquired true => some (S.slots + 1)
  | .release _, .go => if 0 < S.slots then some (S.slots - 1) else none
  | _, _ => some S.slots

/-- A call's step. -/
def callStep (i : ℕ) (a : Answer) : Option Provers :=
  match S.calls i with
  | none => none
  | some x =>
    if S.gives x a then
      match x.task.move x.pc a, S.slotsAfter x.pc a with
      | some pc, some slots =>
        some { S with slots := slots, calls := Function.update S.calls i (some { x with pc := pc }) }
      | _, _ => none
    else none

/-- The context of a call ends, once. -/
def cancel (i : ℕ) (e : ContextError) : Option Provers :=
  match S.calls i with
  | some x =>
    if x.ctxErr = none then
      some { S with calls := Function.update S.calls i (some { x with ctxErr := some e }) }
    else none
  | none => none

/-- **The step of the calls.** -/
def step : ProverAction → Option Provers
  | .tick d => some { S with now := S.now + d }
  | .execute task err deadline =>
    some { S with
      calls := Function.update S.calls S.next (some ⟨task, err, deadline, .parse⟩)
      next := S.next + 1 }
  | .cancel i e => S.cancel i e
  | .step i a => S.callStep i a

end Provers

/-- **The calls over a limiter**, which begins with no call and no slot
taken. -/
def provers : System Provers ProverAction where
  init S :=
    (∃ limit, newProvingLimiter limit = some S.limit) ∧ S.slots = 0 ∧ S.next = 0 ∧
      S.calls = fun _ => none
  step := Provers.step

end Worker

end ZkRuntime
