import ZkRuntime.Common.Sha256
import ZkRuntime.Common.TextCodec
import ZkRuntime.Bench.Model.GroupAudit
/-!
# The group RSS stream: its recorder and its auditor

`Recorder` of `tools/bench/group_rss.py` and `audit` of
`tools/bench/group_audit.py`. The recorder appends a row as one line of
JSON and keeps running counts, peaks and the largest gap; `close` gives
them as a summary. The auditor reads the lines back, passes each row to
`sample`, checks the order of the phases, folds the same quantities in its
own way and compares them with the summary.

A file is the bytes in it. What the auditor does with one row is
`auditRow`, without the bytes; `auditLine` adds them.
-/

namespace ZkRuntime

namespace Bench

open PyJson

variable {F : Type} [Floats F]

/-! ### Counts and peaks -/

/-- The counts of a phase. -/
structure PhaseCount where
  samples : ℕ := 0
  complete : ℕ := 0
  peakBytes : Option ℤ := none
  deriving DecidableEq, Repr

def Status.all : List Status := [.complete, .partly, .invalid, .noLiveMembers, .zombieOnly]

def Phase.all : List Phase := [.unknown, .readiness, .workload, .cleanup]

/-- The place of a phase in `PHASES`. -/
def Phase.rank : Phase → ℤ
  | .unknown => 0
  | .readiness => 1
  | .workload => 2
  | .cleanup => 3

/-- `max`, of what there is. -/
def maxOf : List (Option ℤ) → Option ℤ
  | [] => none
  | none :: xs => maxOf xs
  | some x :: xs => some (((maxOf xs).map (max x)).getD x)

/-- The digest of a stream, in hexadecimal. -/
def hexdigest (bs : Bytes) : Text :=
  (Sha256.sum256 bs).flatMap fun b => [hexChar (b.toNat / 16), hexChar (b.toNat % 16)]

/-- What both sides say of the workload. -/
def coverage (workload : PhaseCount) : String :=
  if workload.samples = 0 then "unobserved"
  else if workload.samples = workload.complete then "all_samples_complete_not_lifetime_peak"
  else "partial"

/-- **The quantities of a stream**, which the recorder keeps and the auditor
derives. -/
structure Folds where
  bytes : ℕ := 0
  /-- What the digest was taken of. -/
  hashed : Bytes := []
  samples : ℕ := 0
  statuses : Status → ℕ := fun _ => 0
  phases : Phase → PhaseCount := fun _ => {}
  monitorPeak : Option ℤ := none
  maxGap : Option ℤ := none

def PhaseCount.toJson (c : PhaseCount) : Value F :=
  .record [("samples", .int c.samples), ("complete", .int c.complete), ("peak_bytes", orNull .int c.peakBytes)]

/-- The quantities under their names in the summary. -/
def Folds.toFields (f : Folds) : List (String × Value F) :=
  [("raw", .record [("bytes", .int f.bytes), ("sha256", .str (hexdigest f.hashed))]),
    ("samples", .int f.samples),
    ("status_counts", .record (Status.all.map fun s => (s.name, .int (f.statuses s)))),
    ("phases", .record (Phase.all.map fun p => (p.name, (f.phases p).toJson))),
    ("runner_monitor_peak_bytes", orNull .int f.monitorPeak),
    ("max_gap_ns", orNull .int f.maxGap),
    ("complete_sample_peak_bytes", orNull .int (maxOf (Phase.all.map fun p => (f.phases p).peakBytes))),
    ("workload_coverage", .str (text (coverage (f.phases .workload)))),
    ("actual_lifetime_peak_bytes", .null)]

/-! ### The recorder -/

/-- `Recorder`. -/
structure Recorder where
  runId : Text
  stream : Bytes := []
  maxBytes : ℕ := maxStreamBytes
  maxSamples : ℕ := Bench.maxSamples
  folds : Folds := {}
  lastEnd : Option ℤ := none
  error : Option String := none

/-- `Recorder(path, run_id, max_bytes, max_samples)`. -/
def Recorder.new (runId : Text) (bytes samples : ℕ) : Recorder where
  runId := runId
  maxBytes := min bytes maxStreamBytes
  maxSamples := min samples Bench.maxSamples

/-- `len`, of what has one. -/
def len? : Value F → Option ℕ
  | .arr items => some items.length
  | .obj members => some members.length
  | .str s => some s.length
  | _ => none

/-- A status by its name. -/
def Status.ofName (v : Value F) : Option Status := Status.all.find? fun s => isText v s.name

/-- The line of a row. -/
def rowLine (row : Value F) : Option Bytes := (dumps row).map fun t => encodeText (t ++ [0x0A])

/-- What the recorder keeps of a complete row. -/
def Folds.addPeak (f : Folds) (phase : Phase) (rss : ℤ) (monitor : Bool) : Folds :=
  { f with
    phases := Function.update f.phases phase { f.phases phase with
      complete := (f.phases phase).complete + 1,
      peakBytes := some (max ((f.phases phase).peakBytes.getD 0) rss) }
    monitorPeak := if monitor then some (max (f.monitorPeak.getD 0) rss) else f.monitorPeak }

/-- What the recorder does with a row it has written. -/
def Recorder.count (rec : Recorder) (line : Bytes) (row : Value F) : Option Recorder :=
  match Status.ofName (row.get "sample_status"), Phase.ofName ((row.get "phase").get "name"),
      (row.get "start_ns").int?, (row.get "end_ns").int? with
  | some status, some phase, some start, some stop =>
    let f : Folds := { rec.folds with
      bytes := rec.folds.bytes + line.length, hashed := rec.folds.hashed ++ line,
      samples := rec.folds.samples + 1,
      statuses := Function.update rec.folds.statuses status (rec.folds.statuses status + 1),
      phases := Function.update rec.folds.phases phase { rec.folds.phases phase with
        samples := (rec.folds.phases phase).samples + 1 } }
    let peaked : Option Folds :=
      if status = .complete then
        (row.get "group_rss_bytes").int?.map fun rss => f.addPeak phase rss (isText (row.get "site") "runner_monitor")
      else some f
    peaked.map fun f => { rec with
      stream := rec.stream ++ line
      folds := { f with
        maxGap := match rec.lastEnd with
          | none => f.maxGap
          | some last => some (max (f.maxGap.getD 0) (start - last)) }
      lastEnd := some stop }
  | _, _, _, _ => none

/-- **`append`**, of a write that goes through; `none` where it raises. The
row may be any JSON, and a row without the fields the counts are taken of
raises. -/
def Recorder.append (rec : Recorder) (row : Value F) : Option Recorder := do
  let line ← rowLine row
  let members ← len? (row.get "members")
  if rec.error.isSome || maxMembers < members || maxRecordBytes < line.length ||
      rec.maxBytes < rec.folds.bytes + line.length || rec.maxSamples ≤ rec.folds.samples then none
  else rec.count line row

/-- The rows of a run, one after another. -/
def Recorder.appendAll (rec : Recorder) : List (Value F) → Option Recorder
  | [] => some rec
  | row :: rows => (rec.append row).bind fun r => r.appendAll rows

/-- What `close` returns of what the recorder has kept. -/
def Recorder.summary (rec : Recorder) (legacy : Option ℤ) : Value F :=
  .record ([("contract", .str (text contract)), ("schema_version", .int version), ("run_id", .str rec.runId),
    ("legacy_runner_peak_bytes", orNull .int legacy), ("storage_complete", .bool rec.error.isNone),
    ("storage_error", orNull (fun e => .str (text e)) rec.error)] ++ rec.folds.toFields)

/-- The recorder whose stream is closed. A stream that does not close is a
storage failure. -/
def Recorder.shut (rec : Recorder) (closes : Bool) : Recorder :=
  if closes then rec else { rec with error := some "storage_failure:close" }

/-- **`close`**: the summary. -/
def Recorder.close (rec : Recorder) (closes : Bool) (legacy : Option ℤ) : Value F := (rec.shut closes).summary legacy

/-! ### The auditor's loop -/

/-- What the auditor carries from row to row. -/
structure Ledger (F : Type) where
  folds : Folds := {}
  last : ℤ := -1
  owner : Value F := .null
  seen : Table ℤ ℤ := ∅
  lastRank : ℤ := -1
  lastEventNs : ℤ := -1
  readinessEnd : Option ℤ := none
  cleanupBoundary : Option ℤ := none

/-- What a phase asks of the rows before it, and what it leaves behind. The
end of a readiness row is the boundary of the workload; that of the row
before the first cleanup row is the boundary of the cleanup. -/
def checkBoundary (l : Ledger F) (v : Verdict) (ns : ℤ) : Except String (Ledger F) :=
  match v.phase with
  | .unknown => return l
  | .readiness => return { l with readinessEnd := some v.endNs }
  | .workload => do
    require (0 < (l.folds.phases .readiness).samples) "workload without readiness evidence"
    require (l.readinessEnd.all (· ≤ ns)) "phase chronology: acknowledgement precedes readiness end"
    return l
  | .cleanup => do
    require (l.cleanupBoundary.getD l.last ≤ ns) "phase chronology: cleanup precedes prior observation end"
    return { l with cleanupBoundary := some (l.cleanupBoundary.getD l.last) }

/-- The order of the phases, for a row whose phase has an event. -/
def checkOrder (l : Ledger F) (v : Verdict) : Except String (Ledger F) :=
  match v.eventNs with
  | none => return l
  | some ns => do
    require (l.lastRank ≤ v.phase.rank) "phase order reversed"
    let l' ← checkBoundary l v ns
    require (l.lastEventNs ≤ ns) "phase chronology: event time reversed"
    return { l' with lastEventNs := ns, lastRank := v.phase.rank }

/-- `max`, where there was none before. -/
def raise (x : Option ℤ) (y : ℤ) : Option ℤ := some ((x.map fun p => max p y).getD y)

/-- What the auditor folds of a row. -/
def Folds.tally (f : Folds) (v : Verdict) (last : ℤ) : Folds where
  bytes := f.bytes
  hashed := f.hashed
  samples := f.samples + 1
  statuses := Function.update f.statuses v.status (f.statuses v.status + 1)
  phases := Function.update f.phases v.phase {
    samples := (f.phases v.phase).samples + 1
    complete := if v.total.isSome then (f.phases v.phase).complete + 1 else (f.phases v.phase).complete
    peakBytes := match v.total with
      | some total => raise (f.phases v.phase).peakBytes total
      | none => (f.phases v.phase).peakBytes }
  monitorPeak := match v.total with
    | some total => if v.onMonitor then raise f.monitorPeak total else f.monitorPeak
    | none => f.monitorPeak
  maxGap := if f.samples = 0 then f.maxGap else raise f.maxGap (v.startNs - last)

/-- **One row of the stream.** The owner is the first row's. -/
def auditRow (runId : Text) (l : Ledger F) (row : Value F) : Except String (Ledger F × Verdict) := do
  require row.isObj "sample mapping"
  let owner := if l.owner.isNull then row.get "owner" else l.owner
  let v ← sample row owner l.folds.samples l.last runId l.seen
  let l' ← checkOrder { l with owner := owner, seen := v.seen } v
  return ({ l' with folds := l'.folds.tally v l.last, last := v.endNs }, v)

/-- The rows of a stream, one after another, with what was derived of
each. -/
def auditRows (runId : Text) : Ledger F → List (Value F) → Except String (Ledger F × List Verdict)
  | l, [] => return (l, [])
  | l, row :: rows => do
    let (l', v) ← auditRow runId l row
    let (l'', vs) ← auditRows runId l' rows
    return (l'', v :: vs)

/-! ### Files -/

/-- `decode`. -/
def decode (raw : Bytes) : Except String (Value F) :=
  match loadsBytes raw with
  | some v => return v
  | none => throw "malformed JSON"

/-- The lines of a file, each with its line break; the last one may lack
it. -/
def lines : Bytes → List Bytes
  | [] => []
  | b :: bs =>
    if b = 0x0A then [b] :: lines bs
    else
      match lines bs with
      | [] => [[b]]
      | l :: ls => (b :: l) :: ls

/-- One line of the stream. A line past the bound is refused before it is
read to its end, with the same reason. -/
def auditLine (runId : Text) (l : Ledger F) (raw : Bytes) : Except String (Ledger F × Verdict) := do
  require (raw.length ≤ maxRecordBytes && l.folds.bytes + raw.length ≤ maxStreamBytes &&
    l.folds.samples < maxSamples) "evidence size/sample bound"
  require (raw.getLast? == some 0x0A) "truncated JSONL record"
  let row ← decode raw
  auditRow runId { l with folds := { l.folds with
    bytes := l.folds.bytes + raw.length, hashed := l.folds.hashed ++ raw } } row

/-- The loop over the lines. -/
def auditLines (runId : Text) : Ledger F → List Bytes → Except String (Ledger F × List Verdict)
  | l, [] => return (l, [])
  | l, raw :: raws => do
    let (l', v) ← auditLine runId l raw
    let (l'', vs) ← auditLines runId l' raws
    return (l'', v :: vs)

/-- The pattern `[0-9a-f]{32}`, matched in full. -/
def isRunId (t : Text) : Bool :=
  t.length = 32 && t.all fun c => (0x30 ≤ c && c ≤ 0x39) || (0x61 ≤ c && c ≤ 0x66)

/-- The head of a summary: its run ID. -/
def checkSummary (summary : Value F) : Except String Text := do
  require (summary.isObj && isText (summary.get "contract") contract &&
    (summary.get "schema_version").int? == some version) "summary schema"
  match (summary.get "run_id").str? with
  | none => throw "run ID"
  | some runId => do
    require (isRunId runId) "run ID"
    require (match summary.get "storage_complete" with
      | .bool true => (summary.get "storage_error").isNull
      | _ => false) "incomplete evidence storage"
    return runId

/-- A derived quantity against the summary's, both as canonical JSON. -/
def checkField (summary : Value F) (field : String × Value F) : Except String Unit := do
  require (summary.find? field.1).isSome ("summary disagreement: " ++ field.1)
  match dumps (summary.get field.1), dumps field.2 with
  | some a, some b => require (a = b) ("summary disagreement: " ++ field.1)
  | _, _ => throw "ValueError"

/-- The derived quantities in turn. -/
def checkFields (summary : Value F) : List (String × Value F) → Except String Unit
  | [] => return ()
  | field :: fields => do
    checkField summary field
    checkFields summary fields

/-- The legacy peak against the monitor peak and the published Runner
result, the content of `inner/result.json` if there is one. -/
def checkLegacy (summary owner : Value F) (monitorPeak : Option ℤ) (result : Option Bytes) :
    Except String Unit := do
  let legacy := summary.get "legacy_runner_peak_bytes"
  if legacy.isNull then return ()
  match legacy.int? with
  | none => throw "legacy peak integer bytes"
  | some peak =>
    require (0 ≤ peak) "legacy peak integer bytes"
    require (monitorPeak == some peak) "same-event Runner peak disagreement"
    match result with
    | none => throw "FileNotFoundError"
    | some bytes =>
      require (bytes.length ≤ 2 * 1024 * 1024) "Runner result size bound"
      let runner : Value F ← decode bytes
      require runner.isObj "Runner result owner"
      let found ← identity (runner.get "owner")
      let expected ← identity owner
      require (found = expected) "Runner result owner"
      match (runner.get "sampled_group_peak_rss_kib").int? with
      | none => throw "published Runner peak disagreement"
      | some kib => require (0 ≤ kib && kib * 1024 = peak) "published Runner peak disagreement"

/-- What an accepted stream is reported as. -/
structure Report (F : Type) where
  derived : Folds
  verdicts : List Verdict
  allSamplesComplete : Bool
  hasPartial : Bool

/-- **`audit`**: the stream, its summary and the Runner's result, by the
bytes of their files. -/
def audit (raw summaryBytes : Bytes) (result : Option Bytes) : Except String (Report F) := do
  require (summaryBytes.length ≤ maxRecordBytes) "summary size bound"
  let summary : Value F ← decode summaryBytes
  let runId ← checkSummary summary
  let (l, verdicts) ← auditLines runId ({} : Ledger F) (lines raw)
  require (0 < l.folds.samples) "missing samples"
  checkFields summary l.folds.toFields
  checkLegacy summary l.owner l.folds.monitorPeak result
  return ⟨l.folds, verdicts, l.folds.statuses .complete = l.folds.samples, 0 < l.folds.statuses .partly⟩

end Bench

end ZkRuntime
