import ZkRuntime.Common.JsonValue
/-!
# Group RSS observations

`tools/bench/group_schema.py` and the observer of
`tools/bench/group_rss.py`. One observation reads the owner's identity,
lists the process group, reads every member once, lists the group again,
reads the owner again and last the available memory. The process table may
fail any of these reads and may change between any two of them, so an
observation is a function of the answers the table gave, each under the
place it was asked at.

The row an observation returns is `observe`'s, and `Row.toJson` is the
dictionary it stands for.
-/

namespace ZkRuntime

namespace Bench

open PyJson

/-! ### The schema -/

def version : ℤ := 1
def contract : String := "g3-raw-group-rss-v1"
def maxMembers : ℕ := 256
def maxProcEntries : ℕ := 65536
def maxRecordBytes : ℕ := 256 * 1024
def maxStreamBytes : ℕ := 16 * 1024 * 1024
def maxSamples : ℕ := 8192
def maxRssBytes : ℤ := 2 ^ 63 - 1

/-- `STATUSES`. -/
inductive Status where
  | complete
  | partly
  | invalid
  | noLiveMembers
  | zombieOnly
  deriving DecidableEq, Repr

def Status.name : Status → String
  | .complete => "COMPLETE"
  | .partly => "PARTIAL"
  | .invalid => "INVALID"
  | .noLiveMembers => "NO_LIVE_MEMBERS"
  | .zombieOnly => "ZOMBIE_ONLY"

/-- `PHASES`, in their order. -/
inductive Phase where
  | unknown
  | readiness
  | workload
  | cleanup
  deriving DecidableEq, Repr

def Phase.name : Phase → String
  | .unknown => "unknown"
  | .readiness => "readiness"
  | .workload => "workload"
  | .cleanup => "cleanup"

/-- What a process is told from another by: `KEYS`. -/
structure Identity where
  pid : ℤ
  startTicks : ℤ
  pgid : ℤ
  sid : ℤ
  deriving DecidableEq, Repr

/-! ### The process table -/

/-- How a read fails: the process is gone, another `OSError`, a
`ValueError`, an `IndexError`. -/
inductive Fault where
  | notFound
  | os
  | value
  | index
  deriving DecidableEq, Repr

/-- What a read of the process table gives. -/
abbrev Answer (α : Type) := Except Fault α

/-- What `/proc/PID/stat` says of a process. -/
structure Stat where
  state : Text
  pgid : ℤ
  sid : ℤ
  startTicks : ℤ
  deriving DecidableEq, Repr

/-- A process as it was read: its identity and its state. -/
structure Process where
  key : Identity
  state : Text
  deriving DecidableEq, Repr

/-- The reader answers about the process it was asked about. -/
def Process.of (pid : ℤ) (s : Stat) : Process := ⟨⟨pid, s.startTicks, s.pgid, s.sid⟩, s.state⟩

@[simp] theorem Process.of_pid (pid : ℤ) (s : Stat) : (Process.of pid s).key.pid = pid := rfl
@[simp] theorem Process.of_pgid (pid : ℤ) (s : Stat) : (Process.of pid s).key.pgid = s.pgid := rfl

/-- An enumeration, each PID with the identity read made right after it. -/
abbrev Listing := List (ℤ × Answer (Option Stat))

/-- **The answers of the process table to one observation**, by the place
they are asked at. The reads of a member go by its place in the opening
scan. -/
structure Answers where
  startNs : ℤ
  anchorBefore : Answer (Option Stat)
  opening : Answer Listing
  rss : ℕ → Answer ℤ
  after : ℕ → Answer (Option Stat)
  closing : Answer Listing
  anchorAfter : Answer (Option Stat)
  available : Answer ℤ
  endNs : ℤ

/-! ### Scanning -/

/-- What a scan could not do. -/
inductive ScanError where
  | enumerationFailed
  | memberBound
  | unreadablePid (pid : ℤ)
  deriving DecidableEq, Repr

/-- A PID as the error text has it. -/
def pidText (pid : ℤ) : Text := text (toString pid)

def ScanError.text : ScanError → Text
  | .enumerationFailed => PyJson.text "enumeration_failed"
  | .memberBound => PyJson.text "member_bound"
  | .unreadablePid pid => PyJson.text "unreadable_pid:" ++ pidText pid

/-- The loop of `scan`. -/
def scanLoop (owner : Identity) : Listing → List Process → List ScanError → List Process × List ScanError
  | [], found, errors => (found, errors)
  | (pid, answer) :: rest, found, errors =>
    match answer with
    -- Even an unreadable unidentified PID might belong to our group.
    | .error _ => scanLoop owner rest found (errors ++ [.unreadablePid pid])
    | .ok none => scanLoop owner rest found errors
    | .ok (some s) =>
      if s.pgid = owner.pgid then
        if maxMembers < (found ++ [Process.of pid s]).length then
          ((found ++ [Process.of pid s]).take maxMembers, errors ++ [.memberBound])
        else scanLoop owner rest (found ++ [Process.of pid s]) errors
      else scanLoop owner rest found errors

/-- `scan`: the members of the owner's group, and what could not be read.
An `IndexError` of the enumeration is not caught here. -/
def scan (owner : Identity) : Answer Listing → Answer (List Process × List ScanError)
  | .ok pids => .ok (scanLoop owner pids [] [])
  | .error .index => .error .index
  | .error _ => .ok ([], [.enumerationFailed])

/-! ### Members -/

/-- The labels of a member. -/
inductive Label where
  | live
  | zombie
  | vanished
  | identityChanged
  | unreadable
  | missing
  deriving DecidableEq, Repr

def Label.name : Label → String
  | .live => "LIVE"
  | .zombie => "ZOMBIE"
  | .vanished => "VANISHED"
  | .identityChanged => "IDENTITY_CHANGED"
  | .unreadable => "UNREADABLE"
  | .missing => "MISSING"

/-- A state of a process that has ended. -/
def isDead (state : Text) : Bool := state = text "Z" || state = text "X"

/-- A member of the group as it was measured. -/
structure Member where
  before : Process
  after : Option Process
  rssBytes : Option ℤ
  label : Label
  deriving DecidableEq, Repr

/-- The label of a member whose read failed. -/
def faultLabel : Fault → Label
  | .notFound => .vanished
  | _ => .unreadable

/-- The identity read that follows a measurement, and what it makes of the
label. -/
def confirm (item : Process) (rss : Option ℤ) (label : Label) : Answer (Option Stat) → Member
  | .error fault => ⟨item, none, rss, faultLabel fault⟩
  | .ok none => ⟨item, none, rss, .vanished⟩
  | .ok (some s) =>
    let after := Process.of item.key.pid s
    ⟨item, some after, rss,
      if after.key ≠ item.key then .identityChanged
      else if after.state ≠ item.state ∧ isDead after.state = true then .vanished
      else label⟩

/-- One member of the opening scan: no RSS is read of a process that has
ended. -/
def measure (item : Process) (rss : Answer ℤ) (after : Answer (Option Stat)) : Member :=
  if isDead item.state then confirm item none .zombie after
  else
    match rss with
    | .error fault => ⟨item, none, none, faultLabel fault⟩
    | .ok n => confirm item (some n) .live after

/-- The members of the opening scan, measured one by one from a place on. -/
def measureAll (a : Answers) : ℕ → List Process → List Member
  | _, [] => []
  | i, item :: items => measure item (a.rss i) (a.after i) :: measureAll a (i + 1) items

/-- The members only the closing scan found. -/
def missing (before after : List Process) : List Member :=
  (after.filter fun item => item.key.pid ∉ before.map (·.key.pid)).map fun item =>
    ⟨item, none, none, .missing⟩

/-! ### Observing -/

inductive SamplingError where
  | memAvailableUnreadable
  | observationInterrupted
  deriving DecidableEq, Repr

def SamplingError.name : SamplingError → String
  | .memAvailableUnreadable => "mem_available_unreadable"
  | .observationInterrupted => "observation_interrupted"

/-- What an observation has read. -/
structure Findings where
  anchorBefore : Option Process := none
  scanBefore : List Process := []
  scanErrors : List ScanError := []
  members : List Member := []
  scanAfter : List Process := []
  anchorAfter : Option Process := none
  memAvailableBytes : Option ℤ := none
  samplingErrors : List SamplingError := []
  deriving DecidableEq, Repr

/-- A read that escapes ends the observation with what it has. -/
def Findings.interrupted (f : Findings) : Findings :=
  { f with samplingErrors := f.samplingErrors ++ [.observationInterrupted] }

/-- The last read: the available memory. -/
def readAvailable (f : Findings) : Answer ℤ → Findings
  | .ok n => { f with memAvailableBytes := some n }
  | .error .index => f.interrupted
  | .error _ => { f with samplingErrors := f.samplingErrors ++ [.memAvailableUnreadable] }

/-- The reads behind the closing scan. -/
def readAnchorAfter (owner : Identity) (a : Answers) (f : Findings) : Findings :=
  match a.anchorAfter with
  | .error _ => f.interrupted
  | .ok anchor => readAvailable { f with anchorAfter := anchor.map (Process.of owner.pid) } a.available

/-- The closing scan and what follows it. -/
def readClosing (owner : Identity) (a : Answers) (f : Findings) : Findings :=
  match scan owner a.closing with
  | .error _ => f.interrupted
  | .ok (after, errors) =>
    readAnchorAfter owner a { f with
      scanAfter := after, scanErrors := f.scanErrors ++ errors,
      members := f.members ++ missing f.scanBefore after }

/-- **The reads of an observation**, in the order it makes them. -/
def findings (owner : Identity) (a : Answers) : Findings :=
  match a.anchorBefore with
  | .error _ => ({} : Findings).interrupted
  | .ok anchor =>
    match scan owner a.opening with
    | .error _ => Findings.interrupted { anchorBefore := anchor.map (Process.of owner.pid) }
    | .ok (before, errors) =>
      readClosing owner a {
        anchorBefore := anchor.map (Process.of owner.pid), scanBefore := before, scanErrors := errors,
        members := measureAll a 0 before }

namespace Findings

/-- Ownership or identity contradicted. -/
def contradicts (owner : Identity) (f : Findings) : Bool :=
  f.anchorBefore.any (·.key ≠ owner) || f.anchorAfter.any (·.key ≠ owner) ||
    f.members.any fun m => m.before.key.sid ≠ owner.sid || m.label = .identityChanged

/-- Something changed, failed or was left out. Two scans have one signature
where their sorted identities agree, that is where one is the other
reordered. -/
def fallsShort (f : Findings) : Bool :=
  f.scanErrors ≠ [] || f.samplingErrors ≠ [] ||
    ¬ (f.scanBefore.map (·.key)).Perm (f.scanAfter.map (·.key)) ||
    f.members.any (fun m => m.label ≠ .live && m.label ≠ .zombie) ||
    f.anchorBefore.any (fun a => f.scanBefore.all (·.key ≠ a.key)) ||
    f.anchorAfter.any (fun a => f.scanAfter.all (·.key ≠ a.key)) ||
    (f.members ≠ [] && (f.anchorBefore.isNone || f.anchorAfter.isNone))

/-- The sum over the live members. -/
def liveTotal (f : Findings) : ℤ :=
  ((f.members.filter (·.label = .live)).map fun m => m.rssBytes.getD 0).sum

/-- `sample_status`. -/
def status (owner : Identity) (f : Findings) : Status :=
  if f.contradicts owner then .invalid
  else if f.fallsShort then .partly
  else if f.members = [] ∧ f.anchorBefore = none ∧ f.anchorAfter = none then .noLiveMembers
  -- A visible anchor was omitted by the scans.
  else if f.members = [] then .partly
  else if f.members.all (·.label = .zombie) then .zombieOnly
  else .complete

/-- `group_rss_bytes`: only a complete sample has a total. -/
def total (owner : Identity) (f : Findings) : Option ℤ :=
  if f.status owner = .complete then some f.liveTotal else none

end Findings

/-- A row of the stream. -/
structure Row (F : Type) where
  runId : Text
  sequence : ℤ
  startNs : ℤ
  endNs : ℤ
  phase : Value F
  site : Text
  owner : Identity
  findings : Findings
  sampleStatus : Status
  groupRssBytes : Option ℤ

variable {F : Type}

/-- The phase of a caller that gave none. -/
def unknownPhase : Value F := .record [("name", .str (text "unknown")), ("event", .null)]

/-- **`observe`**: one observation of the owner's group. -/
def observe (owner : Identity) (runId : Text) (sequence : ℤ) (phase : Option (Value F)) (site : Text)
    (a : Answers) : Row F where
  runId := runId
  sequence := sequence
  startNs := a.startNs
  endNs := a.endNs
  phase := phase.getD unknownPhase
  site := site
  owner := owner
  findings := findings owner a
  sampleStatus := (findings owner a).status owner
  groupRssBytes := (findings owner a).total owner

/-! ### The dictionary of a row -/

/-- A value that may be missing. -/
def orNull (f : α → Value F) : Option α → Value F
  | some x => f x
  | none => .null

def Identity.toJson (i : Identity) : Value F :=
  .record [("pid", .int i.pid), ("start_ticks", .int i.startTicks), ("pgid", .int i.pgid), ("sid", .int i.sid)]

def Process.toJson (p : Process) : Value F :=
  .record [("pid", .int p.key.pid), ("state", .str p.state), ("pgid", .int p.key.pgid), ("sid", .int p.key.sid),
    ("start_ticks", .int p.key.startTicks)]

def Member.toJson (m : Member) : Value F :=
  .record [("before", m.before.toJson), ("after", orNull Process.toJson m.after),
    ("rss_bytes", orNull .int m.rssBytes), ("status", .str (text m.label.name))]

def Row.toJson (r : Row F) : Value F :=
  .record [("schema_version", .int version), ("run_id", .str r.runId), ("sequence", .int r.sequence),
    ("start_ns", .int r.startNs), ("end_ns", .int r.endNs), ("phase", r.phase), ("site", .str r.site),
    ("owner", r.owner.toJson),
    ("anchor_before", orNull Process.toJson r.findings.anchorBefore),
    ("anchor_after", orNull Process.toJson r.findings.anchorAfter),
    ("scan_before", .arr (r.findings.scanBefore.map Process.toJson)),
    ("scan_after", .arr (r.findings.scanAfter.map Process.toJson)),
    ("scan_errors", .arr (r.findings.scanErrors.map fun e => .str e.text)),
    ("members", .arr (r.findings.members.map Member.toJson)),
    ("membership_scan_status", .str (text (if r.findings.scanErrors ≠ [] then "partial" else "complete"))),
    ("sample_status", .str (text r.sampleStatus.name)),
    ("group_rss_bytes", orNull .int r.groupRssBytes),
    ("mem_available_bytes", orNull .int r.findings.memAvailableBytes),
    ("sampling_errors", .arr (r.findings.samplingErrors.map fun e => .str (text e.name)))]

end Bench

end ZkRuntime
