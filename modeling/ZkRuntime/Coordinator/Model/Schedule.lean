import Mathlib.Data.List.AList
import ZkRuntime.Coordinator.Model.State
/-!
# The recovery schedule

`recoverySchedule` of `recovery_schedule.go`: which recovering jobs wait,
until when, and after how many failed sessions. The clock and `sample` are
arguments of the operations that read them; `sample` is any function into
the range it is asked for. Durations are 64-bit nanoseconds, as the code
computes them.
-/

namespace ZkRuntime

namespace Coordinator

/-- `retryEntry`. -/
structure RetryEntry where
  generation : AttemptID
  specHash : Bytes
  failures : UInt32
  nextRetry : Time
  deriving DecidableEq

/-- `retryEntry{}`. -/
def RetryEntry.zero : RetryEntry := ⟨0, List.replicate 32 0, 0, 0⟩

/-- `incrementRecoveryFailures`: the count saturates. -/
def incrementRecoveryFailures (n : UInt32) : UInt32 := if n < 0xFFFFFFFF then n + 1 else n

/-! ## The backoff -/

/-- `sample`: a number in `[0, n)`, where there is one. -/
def Sampler := { f : Int64 → Int64 // ∀ n, 0 < n → 0 ≤ f n ∧ f n < n }

/-- `time.Second`. -/
def second : Int64 := 1000000000

/-- The loop of `recoveryBackoff`, with the rounds its counter leaves it. -/
def backoffLoop : ℕ → Int64 → Int64
  | 0, delay => delay
  | n + 1, delay =>
    if delay < 30 * second then
      backoffLoop n (if 15 * second ≤ delay then 30 * second else delay * 2)
    else delay

/-- **`recoveryBackoff`.** -/
def recoveryBackoff (failures : UInt32) (sample : Sampler) : Int64 :=
  let delay := backoffLoop (failures.toNat - 1) second
  let half := delay / 2
  half + sample.1 (delay - half + 1)

/-- `q.now().Add(recoveryBackoff(failures, q.sample))`. -/
def retryAt (now : Time) (failures : UInt32) (sample : Sampler) : Time :=
  now + (recoveryBackoff failures sample).toInt.toNat

/-! ## The schedule -/

/-- `recoverySchedule`. -/
structure RecoverySchedule where
  entries : AList fun _ : JobID => RetryEntry
  scan : RetryEntry

/-- `newRecoverySchedule`. -/
def newRecoverySchedule : RecoverySchedule := ⟨∅, .zero⟩

namespace RecoverySchedule

variable (isPrint : ℕ → Bool) (q : RecoverySchedule)

/-- `q.entries[j]`, the zero entry where there is none. -/
def entry (j : JobID) : RetryEntry := (q.entries.lookup j).getD .zero

/-- `q.entries[j] = e`. -/
def set (j : JobID) (e : RetryEntry) : RecoverySchedule :=
  { q with entries := q.entries.insert j e }

/-- `delete(q.entries, j)`. -/
def delete (j : JobID) : RecoverySchedule := { q with entries := q.entries.erase j }

/-- The first loop of `reconcile`, one record: an entry of another
generation or specification goes. -/
def reconcileRecord (q : RecoverySchedule) (r : JobRecord) : RecoverySchedule :=
  match q.entries.lookup r.jobID with
  | some e =>
    if e.generation ≠ r.attemptID ∨ e.specHash ≠ recoverySpecHash isPrint r then q.delete r.jobID
    else q
  | none => q

/-- **`reconcile`**: the entries of jobs that were not listed go as well. -/
def reconcile (records : List JobRecord) : RecoverySchedule :=
  let q := records.foldl (reconcileRecord isPrint) q
  q.entries.keys.foldl
    (fun q id => if id ∈ records.map JobRecord.jobID then q else q.delete id) q

/-- `eligible`. -/
def eligible (r : JobRecord) (now : Time) : Bool := !decide (now < (q.entry r.jobID).nextRetry)

/-- **`recheck`** does not count a failure. -/
def recheck (r : JobRecord) (now : Time) (sample : Sampler) : RecoverySchedule :=
  let e := q.entry r.jobID
  let hash := recoverySpecHash isPrint r
  let e := if e.generation ≠ r.attemptID ∨ e.specHash ≠ hash then .zero else e
  q.set r.jobID
    { e with generation := r.attemptID, specHash := hash, nextRetry := retryAt now 1 sample }

/-- What `completed` does with the entry, before it reads the clock. -/
inductive Completion where
  | delete
  /-- The entry is deleted, and the record the store has is rechecked. -/
  | replaced (r : JobRecord)
  | recheck (r : JobRecord)
  /-- The failure is counted in the entry; its retry is to be set. -/
  | failure (e : RetryEntry)
  deriving DecidableEq

/-- **`completed`**, up to its reading of the clock. `loaded` is what its
`Load` returned, if it did. -/
def completed (snapshot : JobRecord) (result : RecoveryExecution) (failed : Bool)
    (loaded : Option (Option JobRecord)) : Completion :=
  let e := q.entry snapshot.jobID
  let e := if e.specHash ≠ result.specHash then .zero else e
  let counted :=
    if result.executed ∧ failed then
      Completion.failure { e with
        failures := incrementRecoveryFailures e.failures
        generation := result.generation
        specHash := result.specHash }
    else .recheck { snapshot with attemptID := result.generation }
  match loaded with
  | none => counted
  | some none => .delete
  | some (some current) =>
    if current.state ≠ .recovering then .delete
    else if current.attemptID ≠ result.generation ∨
        recoverySpecHash isPrint current ≠ result.specHash then .replaced current
    else counted

/-- The failed listing is counted, and the next one put off. -/
def scanFailed (now : Time) (sample : Sampler) : RecoverySchedule :=
  let failures := incrementRecoveryFailures q.scan.failures
  { q with scan := { q.scan with failures := failures, nextRetry := retryAt now failures sample } }

/-- **`deadline`**, zero where there is nothing to wait for. -/
def deadline : Time :=
  if q.scan.nextRetry ≠ 0 then q.scan.nextRetry
  else
    q.entries.entries.foldl
      (fun next e => if next = 0 ∨ e.2.nextRetry < next then e.2.nextRetry else next) 0

end RecoverySchedule

end Coordinator

end ZkRuntime
