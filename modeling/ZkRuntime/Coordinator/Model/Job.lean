import ZkRuntime.Zk.Model.Payload
/-!
# Jobs, their specifications and their store

`cmd/coordinator/jobs.go` and `job_spec.go`, with the `JobStore` behind
them. A record is stored under its own job ID and there is one record for
each, in both of the repository's stores, so the store carries that as a
field. Integers are the 64-bit ones of the source, and wrap as they do.
-/

namespace ZkRuntime

namespace Coordinator

/-- A job's identity. -/
abbrev JobID := Int64

/-- A generation of a job: its attempts are numbered. -/
abbrev AttemptID := Int64

/-- `JobState`. -/
inductive JobState where
  | queued
  | running
  | succeeded
  | failed
  | cancelled
  | recovering
  deriving DecidableEq, Repr

/-- The states an attempt ends in for good. -/
def JobState.isTerminal : JobState → Bool
  | .succeeded | .failed | .cancelled => true
  | _ => false

/-- `JobRecord`. -/
structure JobRecord where
  jobID : JobID
  state : JobState
  attemptID : AttemptID
  workerID : Bytes
  taskType : Bytes
  payload : Bytes
  timeoutMs : Int64
  deriving DecidableEq

/-- `JobSpec`: a job's inputs. -/
structure JobSpec where
  jobID : JobID
  taskType : Bytes
  payload : Bytes
  timeoutMs : Int64
  deriving DecidableEq

/-- `SubmitJobRequest`. -/
structure SubmitJobRequest where
  jobID : JobID
  taskType : Bytes
  payload : Bytes
  timeoutMs : Int64
  deriving DecidableEq

/-- `ExecuteJobRequest`. -/
structure ExecuteJobRequest where
  jobID : JobID
  taskType : Bytes
  payload : Bytes
  timeoutMs : Int64
  attemptID : AttemptID
  deriving DecidableEq

/-- `ExecuteJobResponse`. -/
structure ExecuteJobResponse where
  jobID : JobID
  status : Bytes
  output : Bytes
  error : Bytes
  attemptID : AttemptID
  deriving DecidableEq

/-- `SubmitJobResponse`. -/
structure SubmitJobResponse where
  jobID : JobID
  status : Bytes
  output : Bytes
  error : Bytes
  attemptID : AttemptID
  deriving DecidableEq

def jobSpecFromRequest (req : SubmitJobRequest) : JobSpec :=
  ⟨req.jobID, req.taskType, req.payload, req.timeoutMs⟩

def jobSpecFromRecord (r : JobRecord) : JobSpec := ⟨r.jobID, r.taskType, r.payload, r.timeoutMs⟩

/-- The task type the proof system is behind. -/
def zkTaskType : Bytes := ascii "zk_preimage_prove"

/-! ## Validation -/

/-- `maxTaskTimeoutMs`, the milliseconds a `time.Duration` can hold. -/
def maxTaskTimeoutMs : Int64 := 9223372036854

/-- `runtime.TaskTimeoutFromMilliseconds` succeeds. -/
def validTimeout (ms : Int64) : Bool := !(ms < 1 || maxTaskTimeoutMs < ms)

/-- What `validateJobSpec` refuses. -/
inductive SpecError where
  | timeout
  | payload (e : Zk.PayloadError)
  deriving DecidableEq, Repr

/-- **`validateJobSpec`**: the budget must be explicit and representable,
and a preimage payload is replaced by its canonical form. -/
def validateJobSpec (spec : JobSpec) : Except SpecError JobSpec :=
  if !validTimeout spec.timeoutMs then .error .timeout
  else if spec.taskType = zkTaskType then
    match Zk.parsePreimagePublicPayload spec.payload with
    | .error e => .error (.payload e)
    | .ok v => .ok { spec with payload := v.canonicalJSON }
  else .ok spec

/-- One character of `strings.ToLower`, as far as a comparison with an
ASCII word can see it: besides the Latin capitals, `U+0130` lowers to `i`
and `U+212A` to `k`, and nothing else lowers to ASCII. -/
def lowerStatus : Bytes → Bytes
  | [] => []
  | b₀ :: bs =>
    if 0x41 ≤ b₀.toNat ∧ b₀.toNat ≤ 0x5A then (b₀ + 0x20) :: lowerStatus bs
    else
      match bs with
      | b₁ :: bs' =>
        if b₀ = 0xC4 ∧ b₁ = 0xB0 then 0x69 :: lowerStatus bs'
        else
          match bs' with
          | b₂ :: bs'' =>
            if b₀ = 0xE2 ∧ b₁ = 0x84 ∧ b₂ = 0xAA then 0x6B :: lowerStatus bs''
            else b₀ :: lowerStatus (b₁ :: b₂ :: bs'')
          | [] => b₀ :: lowerStatus [b₁]
      | [] => [b₀]
termination_by structural bs => bs

/-- `jobStateFromStatus`. -/
def jobStateFromStatus (status : Bytes) : Option JobState :=
  if lowerStatus status = ascii "succeeded" then some .succeeded
  else if lowerStatus status = ascii "failed" then some .failed
  else if lowerStatus status = ascii "cancelled" then some .cancelled
  else none

/-! ## The store -/

/-- **The contents of a `JobStore`**: at most one record for a job ID. -/
structure Store where
  rows : List JobRecord
  nodup : (rows.map JobRecord.jobID).Nodup

namespace Store

/-- `Load`, where it does not fail. -/
def load (s : Store) (j : JobID) : Option JobRecord := s.rows.find? fun r => r.jobID == j

/-- `Save`, where it takes effect: insert, or replace on conflict. -/
def save (s : Store) (r : JobRecord) : Store where
  rows := r :: s.rows.filter fun r' => r'.jobID != r.jobID
  nodup := by
    rw [List.map_cons, List.nodup_cons]
    refine ⟨?_, s.nodup.sublist (List.filter_sublist.map _)⟩
    intro h
    obtain ⟨r', hr', heq⟩ := List.mem_map.1 h
    simp [List.mem_filter, heq] at hr'

/-- `ListByState`, where it does not fail, in some order. -/
def listByState (s : Store) (st : JobState) : List JobRecord := s.rows.filter fun r => r.state == st

/-- A store with nothing in it. -/
def empty : Store := ⟨[], by simp⟩

theorem jobID_of_load {s : Store} {j : JobID} {r : JobRecord} (h : s.load j = some r) :
    r.jobID = j := by
  simpa using List.find?_some h

theorem mem_of_load {s : Store} {j : JobID} {r : JobRecord} (h : s.load j = some r) :
    r ∈ s.rows :=
  List.mem_of_find?_eq_some h

/-- A row is what its job ID loads. -/
theorem load_of_mem {s : Store} {r : JobRecord} (h : r ∈ s.rows) : s.load r.jobID = some r := by
  obtain ⟨rows, hnd⟩ := s
  simp only [load] at h ⊢
  induction rows with
  | nil => cases h
  | cons a rows ih =>
    rw [List.map_cons, List.nodup_cons] at hnd
    rcases List.mem_cons.1 h with rfl | h'
    · simp
    · have hne : a.jobID ≠ r.jobID := fun heq => hnd.1 (heq ▸ List.mem_map_of_mem h')
      rw [List.find?_cons_of_neg (by simpa using hne)]
      exact ih hnd.2 h'

@[simp] theorem load_save_self (s : Store) (r : JobRecord) : (s.save r).load r.jobID = some r := by
  simp [load, save]

theorem load_save_of_ne {s : Store} {r : JobRecord} {j : JobID} (h : j ≠ r.jobID) :
    (s.save r).load j = s.load j := by
  simp only [load, save]
  rw [List.find?_cons_of_neg (by simpa using h.symm), List.find?_filter]
  congr 1
  funext r'
  by_cases hj : r'.jobID = j
  · simp [hj, h]
  · simp [hj]

theorem mem_listByState {s : Store} {st : JobState} {r : JobRecord} :
    r ∈ s.listByState st ↔ s.load r.jobID = some r ∧ r.state = st := by
  simp only [listByState, List.mem_filter, beq_iff_eq]
  exact ⟨fun h => ⟨load_of_mem h.1, h.2⟩, fun h => ⟨mem_of_load h.1, h.2⟩⟩

end Store

end Coordinator

end ZkRuntime
