import ZkRuntime.Bench.Model.Events
import ZkRuntime.Bench.Model.Stream
import ZkRuntime.Common.Run
/-!
# The barrier of a run

The Supervisor, whose hooks `_supervise` of `tools/bench/g4_supervise.py`
calls in its order, and the Runner, whose `Monitor` of
`tools/bench/g4_bootstrap.py` is called for every sample, exchange the five
events over a reliable channel and read one clock. Each of them stands at a
place between two calls, and an action lets one of them make the next call,
or lets that call raise. What a call is answered is part of the action: the
content of a file, the process table, the target's acknowledgement.

A message is put on the channel behind the check that counts it, and it is
taken off before the check of the receiver. The receipts of the Runner are
those of its recorder; whether the Supervisor's check of one against the
file succeeds is a choice.
-/

namespace ZkRuntime

namespace Bench

namespace Barrier

open PyJson Events

variable {F : Type} [Floats F]

/-! ### Endpoints -/

/-- **An endpoint**: its exchange, and what it has accepted. -/
structure Endpoint (F : Type) where
  state : State
  accepted : List (Value F)

/-- `Link(conn, identity, ...)`. -/
def Endpoint.new (runId : Text) : Endpoint F := ⟨.new runId, []⟩

/-- `accept`, of the link's state. -/
def Endpoint.accept (e : Endpoint F) (message : Value F) (now : ℤ) : Checked Unit × Endpoint F :=
  match e.state.accept message now with
  | (.ok (), s) => (.ok (), ⟨s, e.accepted ++ [message]⟩)
  | (.error x, s) => (.error x, { e with state := s })

/-- `message`. -/
def message (s : State) (event : String) (target : Value F) (stamp : ℤ) (sample : Value F) : Value F :=
  .record [("schema", .int 1), ("contract", .str (text Events.contract)), ("run_id", .str s.runId),
    ("sequence", .int (order.idxOf event)), ("event", .str (text event)), ("owner", target),
    ("monotonic_ns", .int stamp), ("state", .str (text (states.getD (order.idxOf event) ""))), ("sample", sample)]

/-- `send`, up to the frame. -/
def Endpoint.send (e : Endpoint F) (event : String) (target : Value F) (stamp : ℤ) (sample : Value F) (now : ℤ) :
    Option (Value F) × Endpoint F :=
  match e.accept (message e.state event target stamp sample) now with
  | (.ok (), e') => (some (message e.state event target stamp sample), e')
  | (.error _, e') => (none, e')

/-- `receive`, of a message that was read, up to its record. -/
def Endpoint.receive (e : Endpoint F) (m : Value F) (expected : String) (now : ℤ) : Bool × Endpoint F :=
  match e.accept m now with
  | (.ok (), e') => (isText (m.get "event") expected, e')
  | (.error _, e') => (false, e')

/-- `fail`. -/
def Endpoint.fail (e : Endpoint F) : Endpoint F := { e with state := { e.state with failed := true } }

/-- `identity`. -/
def identity (value : Value F) : Checked Identity := do
  Events.require (return value.isObj && ownerKeys.all fun k => (value.find? k).isSome) "event identity fields"
  Events.owner (.record (ownerKeys.map fun k => (k, value.get k)))

/-- The event in a place. -/
def event (k : ℕ) : String := order.getD k ""

/-! ### The Supervisor -/

/-- **Where the Supervisor is.** -/
inductive SupervisorPc (F : Type) where
  /-- Before the target said that it is ready. -/
  | starting
  /-- Before `ready`. -/
  | ready
  /-- A message is counted, and to be framed. -/
  | framing (k : ℕ) (m : Value F)
  /-- It is framed, and to be recorded. -/
  | recording (k : ℕ)
  /-- Before the message `k` is read. -/
  | waiting (k : ℕ)
  /-- It was accepted, and is to be recorded. -/
  | received (k : ℕ)
  /-- Before `verify_receipt`. -/
  | verifying (k : ℕ)
  /-- `before_release` returned. -/
  | holding
  /-- `release_begin_ns` is set. -/
  | releasing
  /-- Before `released`. -/
  | released
  /-- For the target's acknowledgement. -/
  | awaiting
  /-- Before `acknowledged`. -/
  | acknowledged
  | complete
  | stopped

/-- **The Supervisor.** -/
structure Supervisor (F : Type) where
  pc : SupervisorPc F
  link : Endpoint F
  /-- `owner.json`, as it was read. -/
  target : Value F
  /-- The stamp of `target_identified`. -/
  identifiedNs : ℤ
  releaseBeginNs : Option ℤ
  ackNs : Option ℤ
  /-- Whether the target was sent its release. -/
  sent : Bool
  /-- The messages whose receipts were verified. -/
  verified : List ℕ

/-! ### The Runner -/

/-- **Where the Runner is.** -/
inductive RunnerPc (F : Type) where
  /-- Between two calls of the monitor. -/
  | idle
  /-- The owner is known. -/
  | dispatch
  | waiting (k : ℕ)
  | received (k : ℕ) (m : Value F)
  /-- Before `observe`. -/
  | observing
  /-- Before `append`. -/
  | appending (row : Row F)
  /-- The row is stored, and its status to be looked at. -/
  | checking (row : Row F)
  /-- Before `fsync`. -/
  | syncing (row : Row F)
  /-- Before `send`. -/
  | sending (row : Row F)
  | framing (m : Value F)
  | recording
  /-- `run_command` has returned: before the last observation. -/
  | cleaning
  /-- Before its `append`. -/
  | closing (row : Row F)
  | finished
  | stopped

/-- **The Runner.** -/
structure Runner (F : Type) where
  pc : RunnerPc F
  link : Endpoint F
  owner : Option Identity
  phase : Option (Value F)
  recorder : Recorder
  /-- The rows it has observed. -/
  observed : List (Row F)
  /-- The rows it has appended. -/
  rows : List (Row F)
  /-- How many of them were there at the last `fsync`. -/
  synced : ℕ

/-- **Both, the channel and the clock.** -/
structure Exchange (F : Type) where
  now : ℤ
  supervisor : Supervisor F
  runner : Runner F
  toRunner : List (Value F)
  toSupervisor : List (Value F)

/-! ### The steps of the Supervisor -/

/-- How a call of the Supervisor ends. -/
inductive SupervisorChoice where
  | go
  /-- It raises; where it puts something on a channel, after that or not. -/
  | raise (done : Bool)
  deriving DecidableEq, Repr

namespace Exchange

variable (E : Exchange F)

/-- The Supervisor, as it is now. -/
def putSupervisor (s : Supervisor F) : Exchange F := { E with supervisor := s }

/-- The Supervisor sends. -/
def supervisorSend (k : ℕ) (stamp : ℤ) : Exchange F :=
  let s := E.supervisor
  match identity s.target with
  | .error _ => E.putSupervisor { s with pc := .stopped }
  | .ok o =>
    match s.link.send (event k) o.toJson stamp .null E.now with
    | (some m, l) => E.putSupervisor { s with pc := .framing k m, link := l }
    | (none, l) => E.putSupervisor { s with pc := .stopped, link := l }

/-- The Supervisor receives. -/
def supervisorReceive (k : ℕ) : Option (Exchange F) :=
  match E.toSupervisor with
  | [] => none
  | m :: rest =>
    let s := E.supervisor
    match s.link.receive m (event k) E.now with
    | (true, l) => some { E.putSupervisor { s with pc := .received k, link := l } with toSupervisor := rest }
    | (false, l) => some { E.putSupervisor { s with pc := .stopped, link := l } with toSupervisor := rest }

/-- **The next call of the Supervisor.** -/
def supervisorGo : SupervisorPc F → Option (Exchange F)
  | .starting => some (E.putSupervisor { E.supervisor with pc := .ready, identifiedNs := E.now })
  | .ready => some (E.supervisorSend 0 E.supervisor.identifiedNs)
  | .framing k m =>
    some { E.putSupervisor { E.supervisor with pc := .recording k } with toRunner := E.toRunner ++ [m] }
  | .recording k =>
    some (E.putSupervisor { E.supervisor with pc := if k = 2 then .awaiting else .waiting (k + 1) })
  | .waiting k => E.supervisorReceive k
  | .received k => some (E.putSupervisor { E.supervisor with pc := .verifying k })
  | .verifying k =>
    some (E.putSupervisor { E.supervisor with
      pc := if k = 1 then .holding else .complete
      verified := E.supervisor.verified ++ [k] })
  | .holding => some (E.putSupervisor { E.supervisor with pc := .releasing, releaseBeginNs := some E.now })
  | .releasing => some (E.putSupervisor { E.supervisor with pc := .released, sent := true })
  | .released => some (E.supervisorSend 2 (E.supervisor.releaseBeginNs.getD 0))
  | .awaiting => some (E.putSupervisor { E.supervisor with pc := .acknowledged, ackNs := some E.now })
  | .acknowledged => some (E.supervisorSend 3 (E.supervisor.ackNs.getD 0))
  | .complete => none
  -- `close` fails the channel
  | .stopped => some (E.putSupervisor { E.supervisor with link := E.supervisor.link.fail })

/-- A call of the Supervisor raises. -/
def supervisorRaise (done : Bool) : SupervisorPc F → Option (Exchange F)
  | .framing _ m =>
    some { E.putSupervisor { E.supervisor with pc := .stopped } with
      toRunner := if done then E.toRunner ++ [m] else E.toRunner }
  | .releasing => some (E.putSupervisor { E.supervisor with pc := .stopped, sent := done })
  | .complete | .stopped => none
  | _ => some (E.putSupervisor { E.supervisor with pc := .stopped })

/-! ### The steps of the Runner -/

/-- The Runner, as it is now. -/
def putRunner (r : Runner F) : Exchange F := { E with runner := r }

/-- An exception in a call of the monitor, which fails the channel. -/
def stopRunner (r : Runner F) : Exchange F := E.putRunner { r with pc := .stopped, link := r.link.fail }

/-- The phase the monitor takes from a message. -/
def phaseOf (name kind : String) (m : Value F) : Value F :=
  .record [("name", .str (text name)), ("event", .record [("kind", .str (text kind)), ("owner", m.get "owner"),
    ("monotonic_ns", m.get "monotonic_ns")])]

/-- `receipt`. -/
def receipt (rec : Recorder) (row : Row F) : Value F :=
  .record [("sequence", .int row.sequence), ("start_ns", .int row.startNs), ("end_ns", .int row.endNs),
    ("raw_bytes", .int rec.folds.bytes), ("raw_sha256", .str (hexdigest rec.folds.hashed))]

/-- A call of the monitor begins: the first one reads the owner. -/
def runnerBegin (file : Value F) : Exchange F :=
  let r := E.runner
  match r.owner with
  | some _ => E.putRunner { r with pc := .dispatch }
  | none =>
    match identity file with
    | .error _ => E.stopRunner r
    | .ok o =>
      match r.link.state.bind (o.toJson : Value F) with
      | (.ok (), s) => E.putRunner { r with pc := .dispatch, owner := some o, link := { r.link with state := s } }
      | (.error _, s) => E.stopRunner { r with owner := some o, link := { r.link with state := s } }

/-- The Runner receives. -/
def runnerReceive (k : ℕ) : Option (Exchange F) :=
  match E.toRunner with
  | [] => none
  | m :: rest =>
    let r := E.runner
    match r.link.receive m (event k) E.now with
    | (true, l) => some { E.putRunner { r with pc := .received k m, link := l } with toRunner := rest }
    | (false, l) => some { E.stopRunner { r with link := l } with toRunner := rest }

/-- A message is recorded, and the phase taken from it. -/
def runnerPhase (m : Value F) : ℕ → Exchange F
  | 0 => E.putRunner { E.runner with pc := .observing, phase := some (phaseOf "readiness" "ready_verified" m) }
  | 2 => E.putRunner { E.runner with pc := .waiting 3 }
  | _ => E.putRunner { E.runner with pc := .observing, phase := some (phaseOf "workload" "release_acknowledged" m) }

/-- An observation. -/
def runnerObserve (o : Identity) (phase : Value F) (site : String) (a : Answers) : Row F :=
  observe o E.runner.recorder.runId E.runner.recorder.folds.samples (some phase) (text site) a

/-- The monitor looks at the row it has stored. -/
def runnerCheck (row : Row F) : Exchange F :=
  let r := E.runner
  if (row.sampleStatus = .complete ∨ row.sampleStatus = .zombieOnly ∨ row.sampleStatus = .noLiveMembers) ∧
      row.findings.memAvailableBytes.isSome then
    if r.link.state.sequence = 1 ∨ r.link.state.sequence = 4 then
      if row.sampleStatus = .complete then E.putRunner { r with pc := .syncing row } else E.stopRunner r
    else E.putRunner { r with pc := .idle }
  else E.stopRunner r

/-- The Runner sends the receipt of a row. -/
def runnerSend (row : Row F) (stamp : ℤ) : Option (Exchange F) :=
  let r := E.runner
  r.owner.map fun o =>
    match r.link.send (if r.link.state.sequence = 1 then event 1 else event 4) o.toJson stamp
        (receipt r.recorder row) E.now with
    | (some m, l) => E.putRunner { r with pc := .framing m, link := l }
    | (none, l) => E.stopRunner { r with link := l }

/-- The phase of the last observation. -/
def cleanup (o : Identity) (stamp : ℤ) : Value F :=
  .record [("name", .str (text "cleanup")), ("event", .record [("kind", .str (text "cleanup_completed")),
    ("monotonic_ns", .int stamp), ("owner", o.toJson)])]

/-- How a call of the Runner ends, and what it is answered. -/
inductive RunnerChoice (F : Type) where
  | go
  /-- `owner.json`. -/
  | read (file : Value F)
  /-- The process table. -/
  | table (a : Answers)
  /-- The clock, for a stamp. -/
  | stamp (t : ℤ)
  /-- It raises: something the monitor turns into a failure of the channel,
  or not. -/
  | raise (done : Bool) (caught : Bool)
  /-- `run_command` returns. -/
  | leave

/-- **The next call of the Runner.** -/
def runnerGo : RunnerPc F → RunnerChoice F → Option (Exchange F)
  | .idle, .read file => some (E.runnerBegin file)
  | .dispatch, .go =>
    let k := E.runner.link.state.sequence
    some (E.putRunner { E.runner with pc := if k = 0 ∨ k = 2 then .waiting k else .observing })
  | .waiting k, .go => E.runnerReceive k
  | .received k m, .go => some (E.runnerPhase m k)
  | .observing, .table a =>
    match E.runner.owner, E.runner.phase with
    | some o, some phase =>
      let row := E.runnerObserve o phase "runner_monitor" a
      some (E.putRunner { E.runner with pc := .appending row, observed := E.runner.observed ++ [row] })
    | _, _ => some (E.stopRunner E.runner)
  | .appending row, .go =>
    match E.runner.recorder.append row.toJson with
    | some rec => some (E.putRunner { E.runner with pc := .checking row, recorder := rec, rows := E.runner.rows ++ [row] })
    | none => some (E.stopRunner { E.runner with recorder := { E.runner.recorder with error := some "storage_failure" } })
  | .checking row, .go => some (E.runnerCheck row)
  | .syncing row, .go => some (E.putRunner { E.runner with pc := .sending row, synced := E.runner.rows.length })
  | .sending row, .stamp t => E.runnerSend row t
  | .framing m, .go => some { E.putRunner { E.runner with pc := .recording } with toSupervisor := E.toSupervisor ++ [m] }
  | .recording, .go => some (E.putRunner { E.runner with pc := .idle })
  | .idle, .leave | .stopped, .leave =>
    if E.runner.owner.isSome && E.runner.recorder.error.isNone then some (E.putRunner { E.runner with pc := .cleaning })
    else some (E.putRunner { E.runner with pc := .finished })
  | .cleaning, .table a =>
    E.runner.owner.map fun o =>
      let row := E.runnerObserve o (cleanup o E.now) "cleanup_check" a
      E.putRunner { E.runner with pc := .closing row, observed := E.runner.observed ++ [row] }
  | .closing row, .go =>
    match E.runner.recorder.append row.toJson with
    | some rec => some (E.putRunner { E.runner with pc := .finished, recorder := rec, rows := E.runner.rows ++ [row] })
    | none => some (E.putRunner { E.runner with pc := .finished })
  | _, _ => none

/-- A call of the Runner raises. Past the monitor nothing is failed. -/
def runnerRaise (done caught : Bool) : RunnerPc F → Option (Exchange F)
  | .framing m =>
    let r := E.runner
    some { E.putRunner { r with pc := .stopped, link := if caught then r.link.fail else r.link } with
      toSupervisor := if done then E.toSupervisor ++ [m] else E.toSupervisor }
  | .cleaning | .closing _ | .finished => some (E.putRunner { E.runner with pc := .finished })
  | .stopped => none
  | _ =>
    let r := E.runner
    some (E.putRunner { r with pc := .stopped, link := if caught then r.link.fail else r.link })

/-! ### All steps -/

/-- **What can happen.** -/
inductive Action (F : Type) where
  | idle
  | supervisor (c : SupervisorChoice)
  | runner (c : RunnerChoice F)
  /-- Time passes. -/
  | tick (t : ℕ)

/-- **The step.** -/
def step : Action F → Option (Exchange F)
  | .idle => some E
  | .supervisor .go => E.supervisorGo E.supervisor.pc
  | .supervisor (.raise done) => E.supervisorRaise done E.supervisor.pc
  | .runner (.raise done caught) => E.runnerRaise done caught E.runner.pc
  | .runner c => E.runnerGo E.runner.pc c
  | .tick t => some { E with now := E.now + t }

end Exchange

/-- Both are connected, and nothing has been said. -/
def start (runId : Text) (target : Value F) (bytes samples : ℕ) (now : ℤ) : Exchange F where
  now := now
  supervisor :=
    { pc := .starting
      link := .new runId
      target := target
      identifiedNs := 0
      releaseBeginNs := none
      ackNs := none
      sent := false
      verified := [] }
  runner :=
    { pc := .idle
      link := .new runId
      owner := none
      phase := none
      recorder := .new runId bytes samples
      observed := []
      rows := []
      synced := 0 }
  toRunner := []
  toSupervisor := []

/-- **The exchange** as a system. -/
def exchange (runId : Text) : System (Exchange F) (Exchange.Action F) where
  init E := ∃ target bytes samples now, E = start runId target bytes samples now
  step := Exchange.step

end Barrier

end Bench

end ZkRuntime
