import ZkRuntime.Bench.Model.RunCheck
/-!
# The resource policy of a run

`resource_decision` of `tools/bench/g4_verify.py`. It goes over the rows of
the monitor, which the auditor has validated, decides at each of them
whether the runner had to stop there, and reconciles that with what the
runner's record says. The record is any JSON.
-/

namespace ZkRuntime

namespace Bench

namespace ResourcePolicy

open PyJson RunCheck

variable {F : Type}

/-- What the rows so far have come to. -/
structure Replay where
  peak : ℤ := 0
  minimum : Option ℤ := none
  trigger : Option (ℕ × String) := none
  deriving DecidableEq, Repr

/-- The RSS of a row in KiB, zero for one that is not complete, as the monitor
returned it. -/
def rssOf (row : Row F) : Except String ℤ :=
  if row.sampleStatus = .complete then
    match row.groupRssBytes with
    | none => .error "TypeError"
    | some rss => .ok (rss / 1024)
  else .ok 0

/-- Is the value this boolean? -/
def isBool (v : Value F) (b : Bool) : Bool :=
  match v with
  | .bool b' => b' == b
  | _ => false

/-- A row. -/
def replayRow (limits : Limits) (a : Replay) (n : ℕ) (row : Row F) : Except String Replay := do
  let name ← subscript row.phase "name"
  require ((isText name "readiness" || isText name "workload") && (row.sampleStatus = .complete ||
    row.sampleStatus = .zombieOnly || row.sampleStatus = .noLiveMembers)) "resource policy: ineligible monitor sample"
  match row.findings.memAvailableBytes with
  | none => throw "resource policy: missing MemAvailable"
  | some bytes => do
    let rssKib ← rssOf row
    let availableKib := bytes / 1024
    let reason : Option String :=
      if limits.rssStopKib < rssKib then some "group RSS"
      else if availableKib < limits.availableStopKib then some "system MemAvailable"
      else none
    return {
      peak := max a.peak rssKib
      minimum := some (match a.minimum with
        | none => availableKib
        | some m => min m availableKib)
      trigger := match a.trigger, reason with
        | none, some reason => some (n, reason)
        | t, _ => t }

/-- The rows from a place on. -/
def replayRows (limits : Limits) : Replay → ℕ → List (Row F) → Except String Replay
  | a, _, [] => return a
  | a, n, row :: rows => do
    let a' ← replayRow limits a n row
    replayRows limits a' (n + 1) rows

/-- Whether another branch of the runner comes before its resources. The
reason of a timeout is looked up in a set. -/
def preempted (limits : Limits) (primary outcome : Value F) : Except String Bool :=
  if isText outcome "runner_error" then return true
  else if isText outcome "timeout" then
    match primary.get "reason" with
    | .arr _ | .obj _ => throw "TypeError"
    | reason => return limits.phaseSeconds.any fun b => isText reason ("phase watchdog: " ++ b.1)
  else return false

/-- A trigger against the outcome. -/
def checkTrigger (limits : Limits) (monitor : List (Row F)) (primary outcome : Value F) :
    Option (ℕ × String) → Except String Unit
  | none => return ()
  | some (n, _) => do
    require (!isText outcome "command_success") "resource policy: trigger contradicts command_success"
    require (n + 1 = monitor.length) "resource policy: monitor continued after stop trigger"
    let p ← preempted limits primary outcome
    require (isText outcome "resource_stop" || p) "resource policy: trigger/outcome disagreement"

/-- A stop against the trigger. -/
def checkStop (primary outcome : Value F) (trigger : Option (ℕ × String)) : Except String Unit :=
  if isText outcome "resource_stop" then
    match trigger with
    | none => throw "resource policy: stop without common trigger"
    | some (_, reason) => require (isText (primary.get "reason") reason) "resource policy: stop reason disagreement"
  else return ()

/-- **What is decided.** -/
structure Decision where
  monitorSamples : ℕ
  sampledPeakKib : ℤ
  minimumMemavailableKib : Option ℤ
  observedStopRequired : Bool
  firstTriggerSequence : Option ℤ
  stopReason : Option String
  stopEscalation : Bool
  deriving DecidableEq, Repr

/-- **`resource_decision`.** -/
def resourceDecision (monitor : List (Row F)) (core : Value F) (limits : Limits) : Except String Decision := do
  require (!monitor.isEmpty) "resource policy: missing common monitor samples"
  let a ← replayRows limits {} 0 monitor
  require ((core.get "sampled_group_peak_rss_kib").int? == some a.peak) "resource policy: published peak disagreement"
  require ((core.get "minimum_memavailable_kib").int?.isSome &&
    (core.get "minimum_memavailable_kib").int? == a.minimum) "resource policy: same-sample MemAvailable"
  let escalation : Bool := limits.stopEscalationKib < a.peak
  require (isBool (core.get "stop_escalation") escalation) "resource policy: stop_escalation disagreement"
  let primary ← subscript core "primary"
  let outcome ← subscript primary "outcome"
  checkTrigger limits monitor primary outcome a.trigger
  checkStop primary outcome a.trigger
  return {
    monitorSamples := monitor.length
    sampledPeakKib := a.peak
    minimumMemavailableKib := a.minimum
    observedStopRequired := a.trigger.isSome
    firstTriggerSequence := a.trigger.bind fun t => (monitor[t.1]?).map (·.sequence)
    stopReason := a.trigger.map (·.2)
    stopEscalation := escalation }

end ResourcePolicy

end Bench

end ZkRuntime
