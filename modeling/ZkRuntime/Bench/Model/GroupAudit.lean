import ZkRuntime.Common.Table
import ZkRuntime.Bench.Model.GroupRss
/-!
# The group RSS auditor: one row

`identity` and `sample` of `tools/bench/group_audit.py`. The auditor reads
a row as untyped JSON and checks it step by step; every refusal carries the
reason it gives. Its loops over the scans and the members are
`auditScan` and `auditMembers`, and what it derives of a row it accepts,
its own status and total among it, is a `Verdict`.
-/

namespace ZkRuntime

namespace Bench

open PyJson

variable {F : Type}

/-- `require`. -/
def require (condition : Bool) (reason : String) : Except String Unit :=
  if condition then .ok () else .error reason

/-- Is the value this string? -/
def isText (v : Value F) (s : String) : Bool := v.str? == some (text s)

/-- The pattern `[A-Za-z]`, matched in full. -/
def isLetter (s : Text) : Bool :=
  match s with
  | [c] => (0x41 ≤ c && c ≤ 0x5A) || (0x61 ≤ c && c ≤ 0x7A)
  | _ => false

/-- A state, where the value has one, is a letter. -/
def stateAllowed (value : Value F) : Bool :=
  match value.find? "state" with
  | none => true
  | some s => s.str?.any isLetter

/-- `identity`: the keys of a process, which are integers in range. -/
def identity (value : Value F) : Except String Identity := do
  require value.isObj "identity mapping"
  match (value.get "pid").int?, (value.get "pgid").int?, (value.get "sid").int?,
      (value.get "start_ticks").int? with
  | some pid, some pgid, some sid, some ticks =>
    require (1 < pid && 1 < pgid && 1 < sid && 0 ≤ ticks) "identity integer fields"
    require (stateAllowed value) "process state"
    return ⟨pid, ticks, pgid, sid⟩
  | _, _, _, _ => throw "identity integer fields"

/-- The state of a process whose identity was read. -/
def stateOf (value : Value F) : Option Text := (value.find? "state").bind Value.str?

/-- An anchor, if it was observed, is the owner. -/
def checkAnchor (expected : Identity) (row : Value F) (name : String) : Except String Unit := do
  require (row.find? name).isSome "missing anchor observation"
  if (row.get name).isNull then return ()
  let found ← identity (row.get name)
  require (found = expected) "anchor identity mismatch"

/-- The loop over a scan: every member is of the owner's group and session
and is listed once. -/
def auditScan (expected : Identity) : List (Value F) → List Process → Except String (List Process)
  | [], found => return found
  | value :: values, found => do
    let key ← identity value
    match stateOf value with
    | none => throw "missing scan state"
    | some state =>
      require (key.pid ∉ found.map (·.key.pid)) "duplicate member PID in scan"
      require (key.pgid = expected.pgid && key.sid = expected.sid) "member PGID/SID"
      auditScan expected values (found ++ [⟨key, state⟩])

/-- A scan of the row. -/
def checkScan (expected : Identity) (row : Value F) (name : String) : Except String (List Process) :=
  match (row.get name).items? with
  | none => throw "membership scan bound/shape"
  | some values => do
    require (values.length ≤ maxMembers) "membership scan bound/shape"
    auditScan expected values []

/-- A list of error texts. -/
def checkErrors (row : Value F) (name reason : String) : Except String (List Text) :=
  match (row.get name).items? with
  | none => throw reason
  | some values => do
    require (values.all fun v => v.str?.isSome) reason
    return values.filterMap Value.str?

/-- What a scan found under a PID. -/
def foundAt (found : List Process) (pid : ℤ) : Option Process := found.find? fun p => p.key.pid = pid

/-! ### Members -/

/-- What the loop over the members carries. -/
structure Tally where
  members : List Identity := []
  liveRss : List ℤ := []
  partly : Bool := false
  /-- The start times the stream has seen, by PID. -/
  seen : Table ℤ ℤ

/-- The identity a member was discovered with. -/
def checkBefore (expected : Identity) (opening closing : List Process) (t : Tally) (before : Value F) :
    Except String (Process × Table ℤ ℤ) := do
  let key ← identity before
  match stateOf before with
  | none => throw "duplicate member or missing state"
  | some state =>
    require (key.pid ∉ t.members.map (·.pid)) "duplicate member or missing state"
    let discovered := (foundAt opening key.pid).or (foundAt closing key.pid)
    require (discovered.any (·.key = key)) "member discovery identity mismatch"
    require (discovered.any (·.state = state)) "member discovery state mismatch"
    require (key.pgid = expected.pgid && key.sid = expected.sid) "member PGID/SID"
    require ((t.seen.lookup key.pid).all (· = key.startTicks)) "PID reused across samples"
    require ((t.seen.insert key.pid key.startTicks).keys.length ≤ maxProcEntries)
      "stream identity history bound"
    return (⟨key, state⟩, t.seen.insert key.pid key.startTicks)

/-- The state of the identity read after the measurement, if there was
one. -/
def checkAfter (before : Process) (after : Value F) : Except String (Option Text) := do
  if after.isNull then return none
  let key ← identity after
  require (key = before.key) "member identity changed during measurement"
  match stateOf after with
  | none => throw "missing after state"
  | some state =>
    require (!isDead before.state || isDead state) "member state resurrection"
    return some state

/-- A process that had ended is still ended in the closing scan. -/
def closingAllowed (closing : List Process) (before : Process) (after : Option Text) : Bool :=
  match foundAt closing before.key.pid with
  | none => true
  | some p => p.key ≠ before.key || !(isDead before.state || after.any isDead) || isDead p.state

/-- What the label of a member says, against what was read. -/
def checkLabel (closing : List Process) (before : Process) (after : Option Text) (rss : Option ℤ)
    (status : Value F) (t : Tally) : Except String Tally := do
  if isText status "LIVE" then
    match rss with
    | none => throw "incomplete live member"
    | some n =>
      require (after.any (!isDead ·) && !isDead before.state) "incomplete live member"
      require ((foundAt closing before.key.pid).any (·.key = before.key)) "live member missing from closing scan"
      return { t with liveRss := t.liveRss ++ [n] }
  else if isText status "ZOMBIE" then
    require (after.any isDead && isDead before.state && rss.isNone) "zombie RSS/identity"
    return t
  else if isText status "MISSING" || isText status "UNREADABLE" || isText status "VANISHED" then
    return { t with partly := true }
  else throw "invalid member observation"

/-- One member of the row. -/
def auditMember (expected : Identity) (opening closing : List Process) (t : Tally) (value : Value F) :
    Except String Tally := do
  require value.isObj "member mapping"
  let (before, seen) ← checkBefore expected opening closing t (value.get "before")
  require ((value.find? "rss_bytes").isSome && (value.find? "after").isSome) "missing member measurement"
  let rss := value.get "rss_bytes"
  require (rss.isNull || rss.int?.any fun n => 0 ≤ n && n ≤ maxRssBytes) "RSS must be nonnegative integer bytes"
  let after ← checkAfter before (value.get "after")
  require (closingAllowed closing before after) "closing discovery state resurrection"
  checkLabel closing before after rss.int? (value.get "status")
    { t with members := t.members ++ [before.key], seen := seen }

/-- The loop over the members. -/
def auditMembers (expected : Identity) (opening closing : List Process) :
    List (Value F) → Tally → Except String Tally
  | [], t => return t
  | value :: values, t => do
    let t' ← auditMember expected opening closing t value
    auditMembers expected opening closing values t'

/-- Two dictionaries from PID to identity are equal. -/
def sameScan (a b : List Process) : Bool :=
  (a.map (·.key)).all (· ∈ b.map (·.key)) && (b.map (·.key)).all (· ∈ a.map (·.key))

/-! ### The row -/

/-- What the row says of its version, run, place, time and owner. -/
def checkHead (row owner : Value F) (sequence lastEnd : ℤ) (runId : Text) :
    Except String (Identity × ℤ × ℤ) := do
  require (row.isObj && (row.get "schema_version").int? == some version) "unsupported sample version"
  require ((row.get "run_id").str? == some runId) "run identity"
  require ((row.get "sequence").int? == some sequence) "sample sequence"
  match (row.get "start_ns").int?, (row.get "end_ns").int? with
  | some start, some stop =>
    require (0 ≤ start && start ≤ stop && lastEnd ≤ start) "sample time ordering"
    let expected ← identity owner
    require (expected.pid = expected.pgid && expected.pgid = expected.sid) "owned session anchor"
    let found ← identity (row.get "owner")
    require (found = expected) "group identity changed"
    return (expected, start, stop)
  | _, _ => throw "sample time ordering"

/-- The status the auditor derives of what it has checked. -/
def deriveStatus (expected : Identity) (row : Value F) (opening closing : List Process)
    (scanErrors samplingErrors : List Text) (t : Tally) : Status :=
  if t.partly || scanErrors ≠ [] || samplingErrors ≠ [] || !sameScan opening closing ||
      (t.members ≠ [] && ((row.get "anchor_before").isNull || (row.get "anchor_after").isNull)) ||
      (!(row.get "anchor_before").isNull && (foundAt opening expected.pid).isNone) ||
      (!(row.get "anchor_after").isNull && (foundAt closing expected.pid).isNone) then .partly
  else if t.members = [] then .noLiveMembers
  else if t.liveRss ≠ [] then .complete
  else .zombieOnly

/-- Only a complete sample claims a total, and it is the sum of its live
members. -/
def checkTotal (status : Status) (liveRss : List ℤ) (row : Value F) : Except String (Option ℤ) :=
  if status = .complete then do
    require ((row.get "group_rss_bytes").int? == some liveRss.sum) "group RSS sum disagreement"
    return some liveRss.sum
  else do
    require (row.get "group_rss_bytes").isNull "incomplete sample claimed complete total"
    return none

/-- A phase by its name. -/
def Phase.ofName (v : Value F) : Option Phase :=
  if isText v "unknown" then some .unknown
  else if isText v "readiness" then some .readiness
  else if isText v "workload" then some .workload
  else if isText v "cleanup" then some .cleanup
  else none

/-- The event a phase is told by. -/
def Phase.event : Phase → String
  | .unknown => ""
  | .readiness => "ready_verified"
  | .workload => "release_acknowledged"
  | .cleanup => "cleanup_completed"

/-- The event of a phase: of the right kind, of the owner, and not later
than the sample. The time of the event is returned. -/
def checkEvent (expected : Identity) (phase : Phase) (event : Value F) (start : ℤ) : Except String ℤ := do
  require event.isObj "missing explicit phase event"
  match (event.get "monotonic_ns").int? with
  | none => throw "phase event identity/time"
  | some ns =>
    require (isText (event.get "kind") phase.event && 0 ≤ ns && ns ≤ start) "phase event identity/time"
    let found ← identity (event.get "owner")
    require (found = expected) "phase event identity/time"
    return ns

/-- The phase of the row, with the time of its event. -/
def checkPhase (expected : Identity) (row : Value F) (start : ℤ) : Except String (Phase × Option ℤ) := do
  require (row.get "phase").isObj "sampling phase"
  match Phase.ofName ((row.get "phase").get "name") with
  | none => throw "sampling phase"
  | some .unknown =>
    require ((row.get "phase").get "event").isNull "unknown phase event"
    return (.unknown, none)
  | some phase =>
    let ns ← checkEvent expected phase ((row.get "phase").get "event") start
    return (phase, some ns)

/-- **What the auditor derives of a row it accepts.** Beside the status, the
total and the phase it returns there is what its caller reads of the row
again. -/
structure Verdict where
  status : Status
  total : Option ℤ
  phase : Phase
  eventNs : Option ℤ
  owner : Identity
  startNs : ℤ
  endNs : ℤ
  onMonitor : Bool
  members : List Identity
  seen : Table ℤ ℤ

/-- **`sample`**: a row, against the owner, its place, the end of the row
before, the run and the start times seen so far. -/
def sample (row owner : Value F) (sequence lastEnd : ℤ) (runId : Text) (seen : Table ℤ ℤ) :
    Except String Verdict := do
  let (expected, start, stop) ← checkHead row owner sequence lastEnd runId
  checkAnchor expected row "anchor_before"
  checkAnchor expected row "anchor_after"
  let opening ← checkScan expected row "scan_before"
  let closing ← checkScan expected row "scan_after"
  let scanErrors ← checkErrors row "scan_errors" "scan errors shape"
  let samplingErrors ← checkErrors row "sampling_errors" "sampling errors shape"
  require (isText (row.get "membership_scan_status") (if scanErrors ≠ [] then "partial" else "complete"))
    "scan status contradiction"
  match (row.get "members").items? with
  | none => throw "member bound/shape"
  | some values =>
    require (values.length ≤ maxMembers) "member bound/shape"
    let t ← auditMembers expected opening closing values { seen := seen }
    require (sameSet (t.members.map (·.pid)) ((opening ++ closing).map (·.key.pid))) "missing discovered member"
    let available := row.get "mem_available_bytes"
    require (available.isNull || available.int?.any fun n => 0 ≤ n && n ≤ maxRssBytes)
      "MemAvailable integer bytes"
    require (!available.isNull || text "mem_available_unreadable" ∈ samplingErrors ||
      text "observation_interrupted" ∈ samplingErrors) "missing MemAvailable reason"
    let status := deriveStatus expected row opening closing scanErrors samplingErrors t
    require (isText (row.get "sample_status") status.name) "sample status contradiction"
    let total ← checkTotal status t.liveRss row
    let (phase, eventNs) ← checkPhase expected row start
    require (isText (row.get "site") "runner_monitor" || isText (row.get "site") "cleanup_check") "sampling site"
    return {
      status := status, total := total, phase := phase, eventNs := eventNs, owner := expected,
      startNs := start, endNs := stop, onMonitor := isText (row.get "site") "runner_monitor",
      members := t.members, seen := t.seen }
where
  /-- Two sets are equal. -/
  sameSet (a b : List ℤ) : Bool := a.all (· ∈ b) && b.all (· ∈ a)

/-! ### How a check succeeds -/

@[simp] theorem require_eq_ok {c : Bool} {reason : String} : require c reason = .ok () ↔ c = true := by
  cases c <;> simp [require]

@[simp] theorem require_bind_eq_ok {c : Bool} {reason : String} {f : Unit → Except String β} {x : β} :
    (require c reason >>= f) = .ok x ↔ c = true ∧ f () = .ok x := by
  cases c <;> simp [require, bind, Except.bind]

/-- **A step that succeeded, and the rest.** -/
@[simp] theorem bind_eq_ok {m : Except String α} {f : α → Except String β} {x : β} :
    (m >>= f) = .ok x ↔ ∃ a, m = .ok a ∧ f a = .ok x := by
  cases m <;> simp [bind, Except.bind]

@[simp] theorem return_eq_ok {a x : α} : (return a : Except String α) = .ok x ↔ a = x := by
  simp [pure, Except.pure]

@[simp] theorem throw_eq_ok {reason : String} {x : α} : (throw reason : Except String α) = .ok x ↔ False := by
  simp [throw, throwThe, MonadExceptOf.throw]

theorem isText_iff {v : Value F} {s : String} : isText v s = true ↔ v = .str (text s) := by
  rw [isText, beq_iff_eq, Value.str?_eq_some]

@[simp] theorem isText_str {s s' : String} : isText (.str (text s) : Value F) s' = decide (s = s') := by
  rw [Bool.eq_iff_iff, isText_iff, decide_eq_true_eq]
  simp

end Bench

end ZkRuntime
