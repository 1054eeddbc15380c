import ZkRuntime.Coordinator.Model.Job
import ZkRuntime.Zk.Payload
/-!
# Validated specifications

What `validateJobSpec` returns, and that validating again changes nothing:
a canonical payload is its own canonical form. And what states a status
stands for.
-/

namespace ZkRuntime

namespace Coordinator

variable {spec spec' : JobSpec}

theorem terminal_of_status {status : Bytes} {st : JobState}
    (h : jobStateFromStatus status = some st) :
    st = .succeeded ∨ st = .failed ∨ st = .cancelled := by
  unfold jobStateFromStatus at h
  split at h
  · cases h; exact .inl rfl
  · split at h
    · cases h; exact .inr (.inl rfl)
    · split at h
      · cases h; exact .inr (.inr rfl)
      · cases h

theorem ne_recovering_of_status {status : Bytes} {st : JobState}
    (h : jobStateFromStatus status = some st) : st ≠ .recovering := by
  rcases terminal_of_status h with rfl | rfl | rfl <;> simp

/-- **What validation checks and what it replaces.** -/
theorem validateJobSpec_ok (h : validateJobSpec spec = .ok spec') :
    validTimeout spec.timeoutMs = true ∧
      ((spec.taskType ≠ zkTaskType ∧ spec' = spec) ∨
        (spec.taskType = zkTaskType ∧ ∃ v, Zk.parsePreimagePublicPayload spec.payload = .ok v ∧
          spec' = { spec with payload := v.canonicalJSON })) := by
  unfold validateJobSpec at h
  split at h
  · cases h
  · rename_i ht
    refine ⟨by simpa using ht, ?_⟩
    split at h
    · rename_i hzk
      split at h
      · cases h
      · rename_i v hv
        cases h
        exact .inr ⟨hzk, v, hv, rfl⟩
    · rename_i hzk
      cases h
      exact .inl ⟨hzk, rfl⟩

theorem jobID_of_validateJobSpec (h : validateJobSpec spec = .ok spec') :
    spec'.jobID = spec.jobID := by
  obtain ⟨-, ⟨-, rfl⟩ | ⟨-, v, -, rfl⟩⟩ := validateJobSpec_ok h <;> rfl

theorem taskType_of_validateJobSpec (h : validateJobSpec spec = .ok spec') :
    spec'.taskType = spec.taskType := by
  obtain ⟨-, ⟨-, rfl⟩ | ⟨-, v, -, rfl⟩⟩ := validateJobSpec_ok h <;> rfl

theorem timeoutMs_of_validateJobSpec (h : validateJobSpec spec = .ok spec') :
    spec'.timeoutMs = spec.timeoutMs := by
  obtain ⟨-, ⟨-, rfl⟩ | ⟨-, v, -, rfl⟩⟩ := validateJobSpec_ok h <;> rfl

/-- A specification that validation leaves as it is. -/
def JobSpec.Canonical (spec : JobSpec) : Prop := validateJobSpec spec = .ok spec

/-- **Validation is idempotent.** -/
theorem canonical_of_validateJobSpec (h : validateJobSpec spec = .ok spec') : spec'.Canonical := by
  obtain ⟨ht, ⟨hzk, rfl⟩ | ⟨hzk, v, hv, rfl⟩⟩ := validateJobSpec_ok h
  · exact h
  · simp [JobSpec.Canonical, validateJobSpec, ht, hzk, Zk.parse_canonicalJSON hv]

/-- The payload of a canonical preimage specification is the canonical
form of itself. -/
theorem JobSpec.Canonical.parse (h : spec.Canonical) (hzk : spec.taskType = zkTaskType) :
    ∃ v, Zk.parsePreimagePublicPayload spec.payload = .ok v ∧ v.canonicalJSON = spec.payload := by
  obtain ⟨-, ⟨hne, -⟩ | ⟨-, v, hv, heq⟩⟩ := validateJobSpec_ok h
  · exact absurd hzk hne
  · exact ⟨v, hv, (congrArg JobSpec.payload heq).symm⟩

theorem JobSpec.Canonical.timeout (h : spec.Canonical) : validTimeout spec.timeoutMs = true :=
  (validateJobSpec_ok h).1

end Coordinator

end ZkRuntime
