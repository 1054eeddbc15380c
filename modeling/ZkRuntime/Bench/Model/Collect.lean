import ZkRuntime.Common.JsonValue
import Mathlib.Data.List.Dedup
import Mathlib.Data.List.Infix
/-!
# The outer collector

`collect` of `tools/bench/d2_collect.py`, from the record it sets up to the
record it publishes. Before that an exception leaves nothing behind. What
the collector asks of the system is answered by an environment, and so is
where a signal arrives and which call raises: any call may, at any place.
Until the handlers are installed an interrupt is an exception, and another
one may end `except BaseException` as well. The write of the record may
raise before the record is at its path, and behind that.

A place is a `Point`. Each is passed once at most, so the environment gives
one answer for it, and a run is the iteration of `step`.
-/

namespace ZkRuntime

namespace Bench

namespace Collect

open PyJson

variable {F : Type}

/-! ### The rows of the children -/

/-- The phases, in the order of `commands`. -/
inductive Phase where
  | guardian
  | verification
  deriving DecidableEq, Repr

def Phase.name : Phase → String
  | .guardian => "guardian"
  | .verification => "verification"

/-- What stopped a child. -/
inductive Stop where
  | outerTimeout
  | collectorInterrupted
  | unexpectedDescendants
  | outerResourceStop
  | collectorException
  deriving DecidableEq, Repr

def Stop.name : Stop → String
  | .outerTimeout => "outer_timeout"
  | .collectorInterrupted => "collector_interrupted"
  | .unexpectedDescendants => "unexpected_descendants"
  | .outerResourceStop => "outer_resource_stop"
  | .collectorException => "collector_exception"

/-- What `waitid` reports of an exit. -/
structure Waited where
  code : ℤ
  status : ℤ
  deriving DecidableEq, Repr

/-- **What `child` returns.** Of a signal sent the number and the PID are
kept. -/
structure Row where
  waitid : Option Waited
  rawExitCode : Option ℤ
  signal : Option ℤ
  stop : Option Stop
  exitedBeforeDeadline : Bool
  cleanupComplete : Bool
  residualChildren : Option (List ℕ)
  signals : List (ℕ × ℕ)
  errors : List String
  startNs : ℤ
  endNs : ℤ
  deriving DecidableEq, Repr

/-- The `reason` the collector finds in a row. -/
def Row.reason (r : Row) : Option String :=
  match r.stop with
  | some s => some s.name
  | none =>
    if r.cleanupComplete = false then some "cleanup_incomplete"
    else if r.errors ≠ [] then some "cleanup_error"
    else if r.signals ≠ [] then some "emergency_cleanup"
    else if r.rawExitCode ≠ some 0 then some "child_nonzero"
    else none

/-! ### The record -/

/-- An entry of `failures`. -/
structure Failure where
  phase : String
  reason : String
  deriving DecidableEq, Repr

/-- **`result`**, but for what only identifies the experiment. -/
structure Record (F : Type) where
  runId : String
  deadlineNs : ℤ
  phases : List (Phase × Row)
  primaryFailure : Option String
  failures : List Failure
  collectorErrors : List String
  outerTimedOut : Bool
  sourceBindingValid : Bool
  artifactIntegrityValid : Bool
  g4EvidenceAccepted : Bool
  cryptoEvidenceAccepted : Bool
  cleanupComplete : Bool
  verificationReport : Option (List (Text × Value F))
  accepted : Bool
  interrupts : List ℕ
  endNs : Option ℤ

namespace Record

/-- The record as it is set up. -/
def initial (runId : String) (deadlineNs : ℤ) : Record F where
  runId := runId
  deadlineNs := deadlineNs
  phases := []
  primaryFailure := none
  failures := []
  collectorErrors := []
  outerTimedOut := false
  sourceBindingValid := false
  artifactIntegrityValid := false
  g4EvidenceAccepted := false
  cryptoEvidenceAccepted := false
  cleanupComplete := false
  verificationReport := none
  accepted := false
  interrupts := []
  endNs := none

/-- `result['primary_failure'] = result['primary_failure'] or reason`. -/
def blame (r : Record F) (reason : String) : Record F :=
  { r with primaryFailure := r.primaryFailure.or (some reason) }

/-- `result['failures'].append(...)`. -/
def fail (r : Record F) (phase reason : String) : Record F :=
  { r with failures := r.failures ++ [⟨phase, reason⟩] }

end Record

/-! ### The environment -/

/-- The place of a call. -/
inductive Point where
  /-- The handlers are installed. -/
  | install
  /-- The head of the loop. -/
  | head (p : Phase)
  /-- `checked`, before a child. -/
  | recheck (p : Phase)
  /-- `child`. -/
  | launch (p : Phase)
  /-- What becomes of its row. -/
  | judge (p : Phase)
  /-- Whether there is a report. -/
  | present
  /-- The report is read. -/
  | read
  /-- Its run is compared, and its verdicts taken over. -/
  | identify
  /-- The last `checked`. -/
  | rebind
  /-- `failures`. -/
  | diagnose
  /-- The children that are left. -/
  | reap
  /-- The preliminary verdict. -/
  | weigh
  /-- `except BaseException`, of an exception of this name. -/
  | caught (name : String)
  /-- The handlers are restored. -/
  | restore
  /-- The record is completed and written. -/
  | commit
  /-- It is there. -/
  | published
  /-- `collect` raised before it was. -/
  | lost
  deriving DecidableEq, Repr

/-- An exception: its class, and whether that is an `OSError`, a
`ValueError` or a `TypeError`. -/
structure Raised where
  name : String
  handled : Bool
  deriving DecidableEq, Repr

/-- What `failures` finds on the disk: which files are there, the text each
of three documents says why it stopped in, unless it cannot be read, and
the text of the errors of the report. -/
structure Evidence where
  guardianResult : Bool
  g4Evidence : Bool
  cryptoLedger : Bool
  documents : List (Option Text)
  reportErrors : Text
  deriving DecidableEq, Repr

/-- **What the collector is answered**, by the place it asks at. -/
structure Env (F : Type) where
  runId : String
  deadlineNs : ℤ
  /-- The signals that arrive before the place is passed. -/
  arrivals : Point → List ℕ
  /-- The class of what the call there raises. -/
  raises : Point → Option String
  /-- The clock. -/
  now : Point → ℤ
  /-- The clock, read a second time at the head of the loop. -/
  again : Phase → ℤ
  child : Phase → Row
  /-- Whether the output of the verification is a file. -/
  present : Bool
  /-- What it decodes to, or what reading it raises. -/
  report : Except Raised (Value F)
  evidence : Evidence
  /-- The direct children at the end. -/
  children : List ℕ
  /-- How many statements of `except BaseException` are run, where an
  interrupt may end it. -/
  handled : ℕ
  /-- Whether the record is at its path where the commit raises. -/
  written : Bool

/-! ### The diagnostic labels -/

/-- `value is True`. -/
def isTrue : Option (Value F) → Bool
  | some (.bool b) => b
  | _ => false

/-- `isinstance(audit.get('crypto'), dict)`, and its members. -/
def crypto (audit : List (Text × Value F)) : Option (List (Text × Value F)) :=
  match lookup (text "crypto") audit with
  | some (.obj ms) => some ms
  | _ => none

/-- The labels of the words a text contains. -/
def labelsOf (words : List (String × String)) (t : Text) : List String :=
  (words.filter fun w => text w.1 <:+: t).map Prod.snd

/-- **`failures`.** -/
def failures (e : Evidence) (audit : Option (List (Text × Value F))) : List String :=
  let missing :=
    (if e.guardianResult then [] else ["missing_guardian_result"]) ++
    (if e.g4Evidence then [] else ["missing_g4_evidence"]) ++
    (if e.cryptoLedger then [] else ["missing_crypto_ledger"])
  let stops := e.documents.flatMap fun d => (d.map <| labelsOf
    [("resource", "resource_stop"), ("headroom", "resource_stop"), ("barrier", "barrier_failure"),
      ("timeout", "guardian_or_execution_timeout")]).getD []
  let rejected :=
    match audit with
    | none => []
    | some ms =>
      if isTrue (lookup (text "final_accepted") ms) then []
      else ["evidence_rejected"] ++
        (match crypto ms with
          | some cs => if isTrue (lookup (text "evidence_valid") cs) then [] else ["crypto_evidence_rejected"]
          | none => []) ++
        labelsOf [("artifact", "artifact_corruption"), ("binding", "source_policy_binding_failure"),
          ("source", "source_policy_binding_failure"), ("crypto", "crypto_evidence_rejected")] e.reportErrors
  (missing ++ stops ++ rejected).dedup.mergeSort

/-! ### The steps -/

/-- **The collector between two calls.** -/
structure Config (F : Type) where
  pc : Point
  /-- `pending`, the signals the handlers have noted. -/
  pending : List ℕ
  result : Record F
  stage : String
  audit : Option (List (Text × Value F))
  /-- Whether the handlers are installed. -/
  installed : Bool

namespace Config

variable (env : Env F) (c : Config F)

def goto (pc : Point) : Config F := { c with pc := pc }

/-- A call raises, unless it returns. -/
def call (next : Config F → Config F) : Config F :=
  match env.raises c.pc with
  | some name => c.goto (.caught name)
  | none => next c

/-- `b.require`. -/
def require (condition : Bool) (next : Config F → Config F) : Config F :=
  if condition then next c else c.goto (.caught "PolicyError")

/-- After a phase that does not end the loop. -/
def next : Phase → Point
  | .guardian => .head .verification
  | .verification => .present

/-- The head of the loop. -/
def head (p : Phase) : Config F :=
  if env.deadlineNs ≤ env.now c.pc ∨ c.pending ≠ [] then
    let late := decide (env.deadlineNs ≤ env.again p)
    { c with
      pc := .present
      result := { c.result with outerTimedOut := late }.blame
        (if late then "outer_timeout" else "collector_interrupted") }
  else c.goto (.recheck p)

/-- `child` returned. -/
def launch (p : Phase) : Config F :=
  { c with
    pc := .judge p
    result := { c.result with phases := c.result.phases ++ [(p, env.child p)] } }

/-- What its row says. -/
def judge (p : Phase) : Config F :=
  let row := env.child p
  let late := c.result.outerTimedOut || row.stop = some .outerTimeout || env.deadlineNs ≤ env.now c.pc
  let timed := { c.result with outerTimedOut := late }
  { c with
    pc := if late || !row.cleanupComplete then .present else next p
    result :=
      match row.reason with
      | some reason => (timed.fail p.name reason).blame reason
      | none => timed }

/-- The report is looked for where the verification ran. -/
def present : Config F :=
  c.goto (if env.present then .read else .rebind)

/-- It is read. -/
def read : Config F :=
  let c := { c with stage := "invalid_verification_report" }
  let invalid := { c with pc := .rebind, result := c.result.fail "verification" c.stage }
  match env.report with
  | .ok (.obj ms) =>
    { c with
      pc := if (c.result.phases.lookup .verification).bind Row.rawExitCode = some 0 then .identify else .rebind
      audit := some ms
      result := { c.result with verificationReport := some ms } }
  | .ok _ => invalid
  | .error e => if e.handled then invalid else c.goto (.caught e.name)

/-- The verdicts of a report of this run. -/
def identify (ms : List (Text × Value F)) : Config F :=
  let c := { c with stage := "verification_run_id_mismatch" }
  c.require (match lookup (text "run_id") ms with | some (.str t) => t = text env.runId | _ => false) fun c =>
    { c with
      pc := .rebind
      result := { c.result with
        g4EvidenceAccepted := isTrue (lookup (text "final_accepted") ms)
        cryptoEvidenceAccepted := ((crypto ms).map fun cs => isTrue (lookup (text "evidence_valid") cs)).getD false
        artifactIntegrityValid := isTrue (lookup (text "evidence_valid") ms) } }

/-- The labels are entered. -/
def diagnose : Config F :=
  { c with
    pc := .reap
    result := { c.result with
      failures := c.result.failures ++ (Collect.failures env.evidence c.audit).map (Failure.mk "evidence") } }

/-- Whether the children are gone. -/
def reap : Config F :=
  { c with
    pc := .weigh
    result := { c.result with
      cleanupComplete := env.children = [] && !c.result.phases.isEmpty &&
        c.result.phases.all fun x => x.2.cleanupComplete } }

/-- `guardian_ok`. -/
def guardianOk : Bool :=
  match c.result.phases.lookup .guardian with
  | some row => row.rawExitCode = some 0 && row.stop = none && row.exitedBeforeDeadline
  | none => false

/-- The preliminary verdict. -/
def weigh : Config F :=
  let r := { c.result with outerTimedOut := c.result.outerTimedOut || env.deadlineNs ≤ env.now c.pc }
  let accepted := c.guardianOk && !r.outerTimedOut && c.pending.isEmpty && r.cleanupComplete &&
    r.g4EvidenceAccepted && r.cryptoEvidenceAccepted && r.sourceBindingValid && r.artifactIntegrityValid &&
    r.failures.isEmpty
  let r := { r with accepted := accepted }
  { c with
    pc := .restore
    result :=
      if accepted then r
      else r.blame (if r.outerTimedOut then "outer_timeout" else "evidence_rejected_or_unknown") }

/-- The handlers are there. -/
def install : Config F := { c with pc := .head .guardian, installed := true }

/-- The statements of `except BaseException`. -/
def handling (name stage : String) : List (Record F → Record F) :=
  [fun r => { r with accepted := false }, fun r => r.blame "collector_exception",
    fun r => { r with collectorErrors := r.collectorErrors ++ [name] }, fun r => r.fail "collector" stage]

/-- `except BaseException`. With no handler there an interrupt ends it, and
the rest is not run. -/
def handle (name : String) : Config F :=
  let statements := handling name c.stage
  { c with
    pc := .restore
    result := (if c.installed then statements else statements.take env.handled).foldl (fun r f => f r) c.result }

/-- The commit. -/
def commit : Config F :=
  let endNs := env.now c.pc
  let r : Record F := { c.result with
    interrupts := c.pending
    endNs := some endNs
    outerTimedOut := c.result.outerTimedOut || c.result.deadlineNs ≤ endNs }
  let r := if r.interrupts = [] then r else (r.blame "collector_interrupted").fail "collector" "collector_interrupted"
  { c with
    pc := .published
    result := { r with accepted := r.accepted && r.interrupts.isEmpty && !r.outerTimedOut } }

/-- The calls at a place. -/
def act : Config F :=
  match c.pc with
  | .install => c.call env install
  | .head p => c.call env (head env · p)
  | .recheck p => call env { c with stage := "source_policy_binding_failure" } (goto · (.launch p))
  | .launch p => call env { c with stage := p.name } (launch env · p)
  | .judge p => c.call env (judge env · p)
  | .present =>
    if (c.result.phases.lookup .verification).isSome then c.call env (present env) else c.goto .rebind
  | .read => c.read env
  | .identify => c.call env fun c => (c.audit.map (identify env c)).getD (c.goto .rebind)
  | .rebind =>
    call env { c with stage := "source_policy_binding_failure" } fun c =>
      { c with
        pc := .diagnose
        stage := "collector_exception"
        result := { c.result with sourceBindingValid := true } }
  | .diagnose => c.call env (diagnose env)
  | .reap => c.call env (reap env)
  | .weigh => c.call env (weigh env)
  | .caught name => c.handle env name
  | .restore => if (env.raises .restore).isSome then c.goto .lost else c.goto .commit
  | .commit => if (env.raises .commit).isSome && !env.written then c.goto .lost else c.commit env
  | .published => c
  | .lost => c

/-- The handlers note a signal until they are restored. -/
def arrive : Config F :=
  match c.pc with
  | .commit | .published | .lost => c
  | pc => { c with pending := c.pending ++ env.arrivals pc }

/-- **One step.** -/
def step : Config F := (c.arrive env).act env

end Config

/-- Where the record has been set up. -/
def start (env : Env F) : Config F where
  pc := .install
  pending := []
  result := .initial env.runId env.deadlineNs
  stage := "preflight"
  audit := none
  installed := false

/-- **A run**, after so many steps. -/
def config (env : Env F) (n : ℕ) : Config F := (Config.step env)^[n] (start env)

/-- **What is published.** -/
def Publishes (env : Env F) (r : Record F) : Prop :=
  ∃ n, (config env n).pc = .published ∧ (config env n).result = r

end Collect

end Bench

end ZkRuntime
