import ZkRuntime.Bench.Model.GroupAudit
/-!
# The runner of a command

`run_command` of `tools/bench/run_check.py`, whose monitor is that of
`tools/bench/g4_bootstrap.py`. What the runner asks of the system is
answered by an environment, and by one `Round` for each time its loop goes
round: the signals noted so far, the exit of the command, the clock, the row
the monitor recorded, the output that is new. A call that raises is answered
by the name of its exception.

A time is of any type with a difference and an order, so a floating point
number as well, and `json.loads` is any function of a text.
-/

namespace ZkRuntime

namespace Bench

namespace RunCheck

open PyJson

variable {F T : Type}

/-! ### Limits -/

/-- The limits a decision on resources reads. -/
structure Limits where
  rssStopKib : ℤ
  availableStopKib : ℤ
  stopEscalationKib : ℤ
  phaseSeconds : List (String × ℕ)

/-- `PHASE_BUDGETS`. -/
def phaseBudgets : List (String × ℕ) := [("compile", 30), ("setup", 90), ("setup_wrong_vk", 90), ("prove", 60)]

/-- `RSS_STOP_KIB`. -/
def rssStopKib : ℤ := 2 * 1024 * 1024

/-- `AVAILABLE_STOP_KIB`. -/
def availableStopKib : ℤ := 2 * 1024 * 1024

/-- `ESCALATION_STOP_KIB`. -/
def escalationStopKib : ℤ := 1024 * 1024

/-- `record["limits"]`. -/
def limits : Limits where
  rssStopKib := rssStopKib
  availableStopKib := availableStopKib
  stopEscalationKib := escalationStopKib
  phaseSeconds := phaseBudgets

/-! ### The record -/

/-- An exception, by the name of its type. -/
abbrev Failure := String

/-- `CLD_EXITED`. -/
def cldExited : ℤ := 1

/-- **`record["primary"]`.** -/
inductive Primary where
  | notStarted
  | interrupted (signal : ℤ)
  | exited (code status : ℤ)
  | timeout (reason : String)
  | resourceStop (reason : String)
  | runnerError (f : Failure)
  deriving DecidableEq, Repr

/-- Its `outcome`. -/
def Primary.outcome : Primary → String
  | .notStarted => "not_started"
  | .interrupted _ => "interrupted"
  | .exited code status => if code = cldExited ∧ status = 0 then "command_success" else "command_failed"
  | .timeout _ => "timeout"
  | .resourceStop _ => "resource_stop"
  | .runnerError _ => "runner_error"

/-- What else it tells. -/
def Primary.details : Primary → List (String × Value F)
  | .notStarted => []
  | .interrupted signal => [("signal", .int signal)]
  | .exited code status => [("waitid_code", .int code), ("waitid_status", .int status)]
  | .timeout reason | .resourceStop reason => [("reason", .str (text reason))]
  | .runnerError f => [("error_type", .str (text f))]

def Primary.toJson (p : Primary) : Value F := .record (("outcome", .str (text p.outcome)) :: p.details)

/-- **`record`**, but for what only describes the command, times and raw
output. -/
structure Record (F : Type) where
  primary : Primary
  executionErrors : List Failure
  evidenceErrors : List (String × Failure)
  evidenceComplete : Bool
  stageObservations : List (Value F)
  sampledGroupPeakRssKib : ℤ
  minimumMemavailableKib : Option ℤ
  cleanupSuccess : Bool
  runnerSignals : List ℤ
  stopEscalation : Bool
  overallSuccess : Bool

/-- The dictionary of the record. -/
def Record.toJson (r : Record F) : Value F :=
  .record ([("primary", r.primary.toJson), ("evidence_complete", .bool r.evidenceComplete),
    ("evidence_errors", .arr (r.evidenceErrors.map fun e =>
      .record [("stage", .str (text e.1)), ("error_type", .str (text e.2))])),
    ("stage_observations", .arr r.stageObservations),
    ("sampled_group_peak_rss_kib", .int r.sampledGroupPeakRssKib),
    ("minimum_memavailable_kib", orNull .int r.minimumMemavailableKib),
    ("cleanup", .record [("success", .bool r.cleanupSuccess)]),
    ("runner_signals", .arr (r.runnerSignals.map .int)), ("stop_escalation", .bool r.stopEscalation),
    ("overall_success", .bool r.overallSuccess)] ++
    if r.executionErrors = [] then [] else
      [("execution_errors", .arr (r.executionErrors.map fun f => (Primary.runnerError f).toJson))])

/-! ### The monitor -/

/-- **What the monitor returns** of a row it has recorded: the RSS of the
group and the available memory, in KiB. -/
def returned (row : Row F) : Except Failure (ℤ × ℤ) :=
  if row.sampleStatus = .complete ∨ row.sampleStatus = .zombieOnly ∨ row.sampleStatus = .noLiveMembers then
    match row.findings.memAvailableBytes with
    | none => .error "InterfaceError"
    | some available =>
      if row.sampleStatus = .complete then
        match row.groupRssBytes with
        | none => .error "TypeError"
        | some rss => .ok (rss / 1024, available / 1024)
      else .ok (0, available / 1024)
  else .error "InterfaceError"

/-! ### The stages of the command -/

/-- `"MIMCCHAIN_STAGE "`. -/
def stageMark : Text := text "MIMCCHAIN_STAGE "

/-- What is behind the first mark of a line, if it has one. -/
def behindMark : Text → Option Text
  | [] => none
  | c :: cs => if stageMark.isPrefixOf (c :: cs) then some ((c :: cs).drop stageMark.length) else behindMark cs

/-- **What the markers have told**: all of them, and the phase with its start;
outside of a phase both are `None`. -/
structure Stages (F T : Type) where
  observations : List (Value F) := []
  phase : Option (Value F × T) := none

/-- `value[key]`. -/
def subscript (v : Value F) (key : String) : Except Failure (Value F) :=
  match v.find? key with
  | some w => .ok w
  | none => .error (if v.isObj then "KeyError" else "TypeError")

/-- What a marker does. -/
def Stages.take (s : Stages F T) (now : T) (marker : Value F) : Stages F T × Option Failure :=
  match subscript marker "event" with
  | .error f => (s, some f)
  | .ok event =>
    if isText event "start" then
      match subscript marker "stage" with
      | .error f => (s, some f)
      | .ok stage => ({ s with phase := some (stage, now) }, none)
    else ({ s with phase := none }, none)

/-- A line of the output. -/
def Stages.line (s : Stages F T) (loads : Text → Except Failure (Value F)) (now : T) (line : Text) :
    Stages F T × Option Failure :=
  match behindMark line with
  | none => (s, none)
  | some rest =>
    match loads rest with
    | .error f => (s, some f)
    | .ok marker => { s with observations := s.observations ++ [marker] }.take now marker

/-- The lines, until one raises. -/
def Stages.lines (loads : Text → Except Failure (Value F)) (now : T) : Stages F T → List Text →
    Stages F T × Option Failure
  | s, [] => (s, none)
  | s, l :: ls =>
    match s.line loads now l with
    | (s', some f) => (s', some f)
    | (s', none) => Stages.lines loads now s' ls

/-- The budget of a phase, if it has one. A list and a dictionary have no
hash. -/
def budgetOf : Value F → Except Failure (Option (String × ℕ))
  | .arr _ | .obj _ => .error "TypeError"
  | phase => .ok (phaseBudgets.find? fun b => isText phase b.1)

/-! ### The loop -/

/-- **What the environment answers**, but for the rounds. -/
structure Environment (F T : Type) where
  loads : Text → Except Failure (Value F)
  wallSeconds : T
  /-- Up to the loop: the start of the command and its record. -/
  begins : Except Failure Unit
  start : T
  /-- Closing the files of the output. -/
  closes : Except Failure Unit
  cleanupSuccess : Bool
  /-- The signals noted by the end of the cleanup. -/
  signals : List ℤ
  /-- What capturing the output raised, by file. -/
  captures : List Failure
  reports : Except Failure Unit

/-- **What it answers in a round.** -/
structure Round (F T : Type) where
  signals : List ℤ
  exit : Except Failure (Option (ℤ × ℤ))
  now : T
  monitor : Except Failure (Row F)
  read : Except Failure Text
  sleeps : Except Failure Unit

/-- **What the loop keeps**: the samples it has had of the monitor, what it
has made of them, the markers, and the line that is not complete. -/
structure Loop (F T : Type) where
  samples : List (Row F) := []
  peak : ℤ := 0
  minimum : Option ℤ := none
  stages : Stages F T := {}
  rest : Text := []

section

variable [Sub T] [LT T] [DecidableLT T] [NatCast T]

/-- What ends a round before the monitor is called. -/
def Environment.beforeMonitor (env : Environment F T) (r : Round F T) : Option (Except Failure Primary) :=
  match r.signals with
  | signal :: _ => some (.ok (.interrupted signal))
  | [] =>
    match r.exit with
    | .error f => some (.error f)
    | .ok (some (code, status)) => some (.ok (.exited code status))
    | .ok none => if env.wallSeconds < r.now - env.start then some (.ok (.timeout "overall wall watchdog")) else none

/-- A sample of the monitor is counted. -/
def Loop.count (l : Loop F T) (row : Row F) (rssKib available : ℤ) : Loop F T :=
  { l with
    samples := l.samples ++ [row], peak := max l.peak rssKib,
    minimum := some (match l.minimum with
      | none => available
      | some m => min available m) }

/-- The output that is new is read. -/
def Loop.output (l : Loop F T) (loads : Text → Except Failure (Value F)) (now : T) (new : Text) :
    Loop F T × Option Failure :=
  let lines := (l.rest ++ new).splitOn 0x0A
  let (stages, failure) := Stages.lines loads now l.stages lines.dropLast
  ({ l with stages := stages, rest := lines.getLastD [] }, failure)

/-- The phase that is over its budget. -/
def Loop.overdue (l : Loop F T) (now : T) : Except Failure (Option String) :=
  match l.stages.phase with
  | none => .ok none
  | some (phase, since) =>
    match budgetOf phase with
    | .error f => .error f
    | .ok none => .ok none
    | .ok (some (name, budget)) => .ok (if (budget : T) < now - since then some name else none)

/-- What ends a round behind the output: the watchdog of the phase, and then
the resources. -/
def Loop.verdict (l : Loop F T) (now : T) (rssKib available : ℤ) : Option (Except Failure Primary) :=
  match l.overdue now with
  | .error f => some (.error f)
  | .ok (some phase) => some (.ok (.timeout ("phase watchdog: " ++ phase)))
  | .ok none =>
    if rssStopKib < rssKib ∨ available < availableStopKib then
      some (.ok (.resourceStop (if rssStopKib < rssKib then "group RSS" else "system MemAvailable")))
    else none

/-- A round behind the monitor, whose sample is counted. -/
def Environment.behindMonitor (env : Environment F T) (l : Loop F T) (r : Round F T) (rssKib available : ℤ) :
    Loop F T × Option (Except Failure Primary) :=
  match r.read with
  | .error f => (l, some (.error f))
  | .ok new =>
    match l.output env.loads r.now new with
    | (l, some f) => (l, some (.error f))
    | (l, none) =>
      match l.verdict r.now rssKib available with
      | some e => (l, some e)
      | none =>
        match r.sleeps with
        | .error f => (l, some (.error f))
        | .ok () => (l, none)

/-- **A round**, of the loop, and what ends it. -/
def Environment.round (env : Environment F T) (l : Loop F T) (r : Round F T) :
    Loop F T × Option (Except Failure Primary) :=
  match env.beforeMonitor r with
  | some e => (l, some e)
  | none =>
    match r.monitor with
    | .error f => (l, some (.error f))
    | .ok row =>
      match returned row with
      | .error f => (l, some (.error f))
      | .ok (rssKib, available) => env.behindMonitor (l.count row rssKib available) r rssKib available

/-- **The loop**, over the rounds there are; `none` where they do not end
it. -/
def Environment.loop (env : Environment F T) : Loop F T → List (Round F T) →
    Option (Loop F T × Except Failure Primary)
  | _, [] => none
  | l, r :: rs =>
    match env.round l r with
    | (l', some e) => some (l', e)
    | (l', none) => env.loop l' rs

/-! ### The end -/

/-- Leaving the files of the output: `primary`, and the errors behind it. -/
def Environment.leave (env : Environment F T) : Except Failure Primary → Primary × List Failure
  | .ok p =>
    match env.closes with
    | .ok () => (p, [])
    | .error f => (p, [f])
  | .error f =>
    match env.closes with
    | .ok () => (.runnerError f, [])
    | .error g => (.runnerError g, [])

/-- A signal turns a success into an interruption. -/
def Environment.settle (env : Environment F T) (p : Primary) : Primary :=
  match env.signals with
  | [] => p
  | signal :: _ => if p.outcome = "command_success" then .interrupted signal else p

/-- **What is returned**, of a loop that has ended. -/
def Environment.finish (env : Environment F T) (l : Loop F T) (p : Primary) (errors : List Failure) : Record F :=
  let primary := env.settle p
  let escalation : Bool := decide (escalationStopKib < l.peak)
  let complete : Bool := errors.isEmpty && env.captures.isEmpty
  let record : Record F := {
    primary := primary
    executionErrors := errors
    evidenceErrors := env.captures.map fun f => ("raw_capture", f)
    evidenceComplete := complete
    stageObservations := l.stages.observations
    sampledGroupPeakRssKib := l.peak
    minimumMemavailableKib := l.minimum
    cleanupSuccess := env.cleanupSuccess
    runnerSignals := env.signals
    stopEscalation := escalation
    overallSuccess := primary.outcome = "command_success" && env.cleanupSuccess && complete && !escalation &&
      env.signals.isEmpty }
  match env.reports with
  | .ok () => record
  | .error f => { record with
      evidenceErrors := record.evidenceErrors ++ [("report", f)]
      evidenceComplete := false
      overallSuccess := false }

/-- **`run_command`**: what the loop kept, and the record. -/
def runCommand (env : Environment F T) (rounds : List (Round F T)) : Option (Loop F T × Record F) :=
  match env.begins with
  | .error f => some ({}, env.finish {} (.runnerError f) [])
  | .ok () => (env.loop {} rounds).map fun (l, e) => (l, env.finish l (env.leave e).1 (env.leave e).2)

end

end RunCheck

end Bench

end ZkRuntime
