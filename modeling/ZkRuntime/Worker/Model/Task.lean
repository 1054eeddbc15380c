import ZkRuntime.Common.Base64
import ZkRuntime.Common.Sha256
import ZkRuntime.Coordinator.Model.State
/-!
# Tasks

`internal/runtime/task.go`, `timeout.go` and `zk_preimage_task.go`. The
execution of a preimage task is cut at the places where others can be seen:
a reading of the context, the witness store, the limiter, and the call of
`Prove`, which is in progress for as long as it likes. What comes back
there is the `Answer` of a step; metrics are left out.
-/

namespace ZkRuntime

namespace Worker

open Coordinator (ContextError)

/-! ## Errors and contexts -/

/-- An error: its text, and what `errors.Is` finds in it. -/
structure TaskError where
  text : Bytes
  canceled : Bool
  deadlineExceeded : Bool
  busy : Bool
  deriving DecidableEq

namespace TaskError

/-- An error that wraps none that is asked for. -/
def plain (text : Bytes) : TaskError := ⟨text, false, false, false⟩

/-- `ctx.Err()`. -/
def ofContext : ContextError → TaskError
  | .canceled => ⟨ascii "context canceled", true, false, false⟩
  | .deadlineExceeded => ⟨ascii "context deadline exceeded", false, true, false⟩

/-- `invalidPreimagePayload`. -/
def ofPayload (e : Zk.PayloadError) : TaskError :=
  plain (ascii "invalid ZK public payload" ++ ascii ": " ++ ascii e.reason)

/-- `ErrProvingBusy`. -/
def provingBusy : TaskError := ⟨ascii "proving capacity is full", false, false, true⟩

/-- `fmt.Errorf` with a verb that wraps: the text is put in front. -/
def wrap (text : Bytes) (e : TaskError) : TaskError := { e with text := text ++ e.text }

end TaskError

/-- **`resultContextError`**, of what the context answers now. -/
def resultContextError (err : Option ContextError) (deadline : Option ℕ) (now : ℕ) :
    Option ContextError :=
  match err with
  | some e => some e
  | none =>
    match deadline with
    | some d => if now < d then none else some .deadlineExceeded
    | none => none

/-! ## Preimage tasks -/

/-- `ZKPreimageTask`; `limited` is `Limiter != nil`. -/
structure PreimageTask where
  payload : Bytes
  limited : Bool
  deriving DecidableEq

/-- **The place an `Execute` of a preimage task has reached.** -/
inductive Pc where
  | parse
  /-- `WitnessStore.Get`. -/
  | witness (ref : Bytes) (digest : Zk.FrElement)
  /-- The `select` on the context. -/
  | select (secret : Int64) (digest : Zk.FrElement)
  /-- `TryAcquire`. -/
  | acquire (secret : Int64) (digest : Zk.FrElement)
  /-- Behind it, `Release` deferred: the context is read once more. -/
  | acquired (secret : Int64) (digest : Zk.FrElement)
  /-- `Prove` is in progress. -/
  | proving (secret : Int64) (digest : Zk.FrElement)
  | encode (proof : Bytes)
  /-- `resultContextError`. -/
  | finish (output : Bytes)
  /-- The deferred `Release`. -/
  | release (out : Except TaskError Bytes)
  | returned (out : Except TaskError Bytes)
  deriving DecidableEq

/-- **What comes back at a place.** -/
inductive Answer where
  | go
  | witness (secret : Option Int64)
  | context (err : Option ContextError)
  | acquired (ok : Bool)
  | proof (res : Except TaskError Bytes)
  /-- The context, its deadline, and the time. -/
  | checkpoint (err : Option ContextError) (deadline : Option ℕ) (now : ℕ)

namespace PreimageTask

variable (t : PreimageTask)

/-- A return from behind `TryAcquire`. -/
def exit (out : Except TaskError Bytes) : Pc := if t.limited then .release out else .returned out

/-- **A step of `Execute`.** -/
def move : Pc → Answer → Option Pc
  | .parse, .go =>
    match Zk.parsePreimagePublicPayload t.payload with
    | .error e => some (.returned (.error (.ofPayload e)))
    | .ok payload => some (.witness payload.witnessRef payload.digest)
  | .witness _ digest, .witness found =>
    match found with
    | none => some (.returned (.error (.plain (ascii "witness not found"))))
    | some secret => some (.select secret digest)
  | .select secret digest, .context err =>
    match err with
    | some e => some (.returned (.error (.ofContext e)))
    | none => some (if t.limited then .acquire secret digest else .proving secret digest)
  | .acquire secret digest, .acquired ok =>
    some (if ok then .acquired secret digest else .returned (.error .provingBusy))
  | .acquired secret digest, .context err =>
    match err with
    | some e => some (t.exit (.error (.ofContext e)))
    | none => some (.proving secret digest)
  | .proving _ _, .proof res =>
    match res with
    | .error e => some (t.exit (.error (e.wrap (ascii "prove preimage: "))))
    | .ok proof => some (.encode proof)
  | .encode proof, .go => some (.finish (Base64.encodeToString proof))
  | .finish output, .checkpoint err deadline now =>
    match resultContextError err deadline now with
    | some e => some (t.exit (.error (.ofContext e)))
    | none => some (t.exit (.ok output))
  | .release out, .go => some (.returned out)
  | _, _ => none

/-- The place behind a list of answers, from `pc` on. -/
def moves (pc : Pc) : List Answer → Option Pc
  | [] => some pc
  | a :: as => (t.move pc a).bind fun pc' => moves pc' as

/-- **An execution**: what `Execute` returns with these answers, if they are
the ones it asks for. -/
def execute (answers : List Answer) : Option (Except TaskError Bytes) :=
  match t.moves .parse answers with
  | some (.returned out) => some out
  | _ => none

end PreimageTask

/-! ## The other tasks -/

/-- `hex.EncodeToString`. -/
def hexEncode (bs : Bytes) : Bytes :=
  let digit (n : ℕ) : UInt8 := (if n < 10 then n + 0x30 else n + 0x57).toUInt8
  bs.flatMap fun b => [digit (b.toNat / 16), digit (b.toNat % 16)]

/-- `HashTask.Execute`, with what the context answers. -/
def hashExecute (input : Bytes) (err : Option ContextError) : Except TaskError Bytes :=
  if input = [] then .error (.plain (ascii "hash input cannot be empty"))
  else
    match err with
    | some e => .error (.ofContext e)
    | none => .ok (hexEncode (Sha256.sum256 input))

/-- `SleepTask.Execute`: the `select` takes the timer, or the context that
has ended. `text` is the duration as it is printed. -/
def sleepExecute (text : Bytes) (err : Option ContextError) : Except TaskError Bytes :=
  match err with
  | some e => .error (.ofContext e)
  | none => .ok (ascii "slept for " ++ text)

end Worker

end ZkRuntime
