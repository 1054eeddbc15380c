import ZkRuntime.Bench.Model.GroupRss
/-!
# The event exchange

`State` of `tools/bench/g4_events.py`: five messages in a fixed order, each
checked against what the ones before it left. The messages are untyped JSON.
A check that indexes a value without the key, or that orders anything but
integers, is taken to raise an exception of the language, `Raised.python`;
that none does is a result about the checks and not put into them.
-/

namespace ZkRuntime

namespace Bench

namespace Events

open PyJson

variable {F : Type}

/-- `CONTRACT`. -/
def contract : String := "g4-runner-interface-v1"

/-- `ORDER`. -/
def order : List String :=
  ["ready_verified", "readiness_persisted", "release_initiated", "release_acknowledged", "workload_persisted"]

/-- `STATES`. -/
def states : List String := ["ready", "persisted", "releasing", "acknowledged", "complete"]

/-- `MAX_MESSAGE`. -/
def maxMessage : ℕ := 2048

/-- What is raised. -/
inductive Raised where
  /-- A `KeyError`, an `IndexError` or a `TypeError`. -/
  | python
  /-- An `InterfaceError`, with its reason. -/
  | interface (reason : String)
  deriving DecidableEq, Repr

/-- The outcome of an expression. -/
abbrev Checked (α : Type) := Except Raised α

/-- `require`, of a condition that is evaluated first. -/
def require (condition : Checked Bool) (reason : String) : Checked Unit := do
  if ← condition then return () else throw (.interface reason)

/-- `a and b`. -/
def both (a b : Checked Bool) : Checked Bool := do
  if ← a then b else return false

/-- `all(...)`. -/
def allOf : List (Checked Bool) → Checked Bool
  | [] => return true
  | c :: cs => both c (allOf cs)

/-- `value[key]`. -/
def item (value : Value F) (key : String) : Checked (Value F) :=
  match value.find? key with
  | some v => .ok v
  | none => .error .python

/-- `xs[n]`. -/
def entry (xs : List String) (n : ℕ) : Checked String :=
  match xs[n]? with
  | some x => .ok x
  | none => .error .python

/-- An operand of an ordering. -/
def number (v : Value F) : Checked ℤ :=
  match v.int? with
  | some n => .ok n
  | none => .error .python

/-- What is `None` until it is set. -/
def unset {α : Type} : Option α → Checked α
  | some a => .ok a
  | none => .error .python

/-- `isinstance(value, dict) and set(value) == keys`. -/
def hasKeys (value : Value F) (keys : List String) : Bool :=
  match value with
  | .obj members =>
    (members.all fun m => keys.any fun k => m.1 == text k) && keys.all fun k => (value.find? k).isSome
  | _ => false

/-- `type(value[key]) is int`. -/
def isInt (value : Value F) (key : String) : Checked Bool := do
  return (← item value key).int?.isSome

/-- `value[key] == s`, of a string. -/
def isStr (value : Value F) (key : String) (s : Text) : Checked Bool := do
  return (← item value key).str? == some s

/-- `low <= value[key]`. -/
def atLeast (value : Value F) (key : String) (low : ℤ) : Checked Bool := do
  return decide (low ≤ (← number (← item value key)))

/-- `KEYS` of `processes.py`. -/
def ownerKeys : List String := ["pid", "start_ticks", "pgid", "sid"]

/-- `owner`. -/
def owner (value : Value F) : Checked Identity := do
  require (return hasKeys value ownerKeys) "event owner shape"
  require (both (allOf (["pid", "pgid", "sid"].map fun k => both (isInt value k) (atLeast value k 2)))
    (both (return (← number (← item value "pid")) == (← number (← item value "pgid")))
      (both (return (← number (← item value "pgid")) == (← number (← item value "sid")))
        (both (isInt value "start_ticks") (atLeast value "start_ticks" 0))))) "event owner identity"
  return ⟨← number (← item value "pid"), ← number (← item value "start_ticks"), ← number (← item value "pgid"),
    ← number (← item value "sid")⟩

/-- What says that a row was stored: its place in the stream and its times,
and the length and digest of the stream with it. -/
structure Receipt where
  sequence : ℤ
  startNs : ℤ
  endNs : ℤ
  rawBytes : ℤ
  rawSha256 : Text
  deriving DecidableEq, Repr

/-- **`State`.** -/
structure State where
  runId : Text
  sequence : ℕ
  lastNs : ℤ
  owner : Option Identity
  ready : Option Receipt
  ackNs : Option ℤ
  failed : Bool
  deriving DecidableEq, Repr

/-- `State(identity)`, of a run ID that passed its check. -/
def State.new (runId : Text) : State := ⟨runId, 0, -1, none, none, none, false⟩

/-- `bind`. The owner is set before anything else can refuse the message. -/
def State.bind (s : State) (target : Value F) : Checked Unit × State :=
  match Events.owner target with
  | .error e => (.error e, s)
  | .ok o =>
    if s.owner = none ∨ s.owner = some o then (.ok (), { s with owner := some o })
    else (.error (.interface "event target changed"), s)

/-- The fields of a message. -/
def messageKeys : List String :=
  ["schema", "contract", "run_id", "sequence", "event", "owner", "monotonic_ns", "state", "sample"]

/-- `_accept`, up to the check of the time stamp: the stamp. -/
def State.head (s : State) (message : Value F) (now : ℤ) : Checked ℤ := do
  require (return !s.failed) "channel already failed"
  require (return hasKeys message messageKeys) "event fields"
  require (both (return (← item message "schema").int? == some 1)
    (both (isStr message "contract" (text contract)) (isStr message "run_id" s.runId))) "event run/version"
  require (both (isInt message "sequence")
    (both (return (← number (← item message "sequence")) == s.sequence) (return decide (s.sequence < order.length))))
    "event sequence/replay"
  require (both (do isStr message "event" (text (← entry order s.sequence)))
    (do isStr message "state" (text (← entry states s.sequence)))) "event order/state"
  require (both (isInt message "monotonic_ns")
    (both (atLeast message "monotonic_ns" 0)
      (both (atLeast message "monotonic_ns" s.lastNs)
        (return decide ((← number (← item message "monotonic_ns")) ≤ now))))) "event chronology"
  number (← item message "monotonic_ns")

/-- The pattern `[0-9a-f]{64}`, matched in full. -/
def isSha256 (t : Text) : Bool :=
  t.length = 64 && t.all fun c => (0x30 ≤ c && c ≤ 0x39) || (0x61 ≤ c && c ≤ 0x66)

/-- The fields of a receipt. -/
def receiptKeys : List String := ["sequence", "start_ns", "end_ns", "raw_bytes", "raw_sha256"]

/-- The check of a sample, which is of the row `row`. -/
def checkSample (lastNs stamp row : ℤ) (sample : Value F) : Checked Receipt := do
  require (return hasKeys sample receiptKeys) "persisted sample fields"
  require (both (allOf (["sequence", "start_ns", "end_ns", "raw_bytes"].map (isInt sample)))
    (both (return (← item sample "sequence").int? == some row)
      (both (atLeast sample "start_ns" lastNs)
        (both (return decide ((← number (← item sample "start_ns")) ≤ (← number (← item sample "end_ns"))))
          (both (return decide ((← number (← item sample "end_ns")) ≤ stamp))
            (both (atLeast sample "raw_bytes" 1)
              (both (return decide ((← number (← item sample "raw_bytes")) ≤ 16 * 1024 * 1024))
                (return ((← item sample "raw_sha256").str?.any isSha256)))))))))
    "persisted sample chronology/identity"
  return ⟨← number (← item sample "sequence"), ← number (← item sample "start_ns"), ← number (← item sample "end_ns"),
    ← number (← item sample "raw_bytes"), ((← item sample "raw_sha256").str?).getD []⟩

/-- The sample a message has in its place, and what is remembered of it. -/
def State.sampled (s : State) (sample : Value F) (stamp : ℤ) : Checked State :=
  if s.sequence = 1 then do
    let receipt ← checkSample s.lastNs stamp 0 sample
    return { s with ready := some receipt }
  else if s.sequence = 4 then do
    let receipt ← checkSample s.lastNs stamp 1 sample
    require (both (return decide ((← unset s.ackNs) ≤ receipt.startNs))
      (return decide ((← unset s.ready).rawBytes < receipt.rawBytes))) "workload before verified ack"
    return s
  else do
    require (return sample.isNull) "unexpected event sample"
    return s

/-- A release waits for the row of readiness. -/
def State.released (s : State) (stamp : ℤ) : Checked Unit :=
  if s.sequence = 2 then
    require (return match s.ready with
      | some r => decide (r.endNs ≤ stamp)
      | none => false) "release before persisted readiness"
  else return ()

/-- The message is counted. -/
def State.advance (s : State) (stamp : ℤ) : State :=
  { s with
    sequence := s.sequence + 1, lastNs := stamp, ackNs := if s.sequence = 3 then some stamp else s.ackNs }

/-- `_accept`, behind the owner. -/
def State.tail (s : State) (message : Value F) (stamp : ℤ) : Checked State := do
  let s' ← s.sampled (← item message "sample") stamp
  s'.released stamp
  return s'.advance stamp

/-- `_accept`. -/
def State.accept' (s : State) (message : Value F) (now : ℤ) : Checked Unit × State :=
  match s.head message now with
  | .error e => (.error e, s)
  | .ok stamp =>
    match item message "owner" with
    | .error e => (.error e, s)
    | .ok target =>
      match s.bind target with
      | (.error e, s') => (.error e, s')
      | (.ok (), s') =>
        match s'.tail message stamp with
        | .error e => (.error e, s')
        | .ok s'' => (.ok (), s'')

/-- **`accept`**, at the time `now`. An `InterfaceError` fails the channel,
and nothing else does. -/
def State.accept (s : State) (message : Value F) (now : ℤ) : Checked Unit × State :=
  match s.accept' message now with
  | (.error (.interface reason), s') => (.error (.interface reason), { s' with failed := true })
  | r => r

/-- Messages offered in turn, each at its time: what came of each. -/
def State.offer (s : State) : List (Value F × ℤ) → List (Checked Unit) × State
  | [] => ([], s)
  | m :: ms =>
    let (r, s') := s.accept m.1 m.2
    let (rs, s'') := s'.offer ms
    (r :: rs, s'')

end Events

end Bench

end ZkRuntime
