import ZkRuntime.Common.Unquote
import ZkRuntime.Coordinator.Model.Fingerprint
import ZkRuntime.Zk.Payload
/-!
# Recovery fingerprints

What `recoverySpecHash` hashes determines the task type, the payload it was
taken of and the timeout, since each is written so that its end can be seen.
The payload it is taken of is canonical where it parses, and a canonical
payload parses to itself, so two payloads share it exactly when they are
equal or two spellings of one public payload.
-/

namespace ZkRuntime

namespace Coordinator

open Zk

/-- `%d` writes a number in one way only. -/
theorem formatInt_inj {m n : Int64} (h : formatInt m = formatInt n) : m = n := by
  have hdash : ∀ k, Bytes.decimal k ≠ [] ∧ (Bytes.decimal k).head? ≠ some 0x2D := by
    intro k
    refine ⟨Bytes.decimal_ne_nil k, fun hhead => ?_⟩
    have := Bytes.isDigit_of_mem_decimal (List.mem_of_mem_head? hhead)
    exact absurd this (by decide)
  have hval : ∀ j k, Bytes.decimal j = Bytes.decimal k → j = k := by
    intro j k hjk
    rw [← Bytes.decimalValue_decimal j, hjk, Bytes.decimalValue_decimal]
  have hneg : ∀ k : Int64, k < 0 ↔ k.toInt < 0 := fun k => Int64.lt_iff_toInt_lt
  apply Int64.toInt_inj.1
  unfold formatInt at h
  split_ifs at h with hm hn hn
  · have := hval _ _ (List.tail_eq_of_cons_eq h)
    rw [hneg] at hm hn
    omega
  · exact absurd (by rw [← h]; rfl) (hdash n.toInt.natAbs).2
  · exact absurd (by rw [h]; rfl) (hdash m.toInt.natAbs).2
  · have := hval _ _ h
    rw [hneg] at hm hn
    omega

variable {isPrint : ℕ → Bool} {r r' : JobRecord}

/-- **The hashed string determines its three parts.** -/
theorem recoverySpecInput_inj : recoverySpecInput isPrint r = recoverySpecInput isPrint r' ↔
    r.taskType = r'.taskType ∧ fingerprintPayload r = fingerprintPayload r' ∧ r.timeoutMs = r'.timeoutMs := by
  constructor
  · intro h
    simp only [recoverySpecInput, List.append_assoc] at h
    obtain ⟨htype, h⟩ := Quote.quoted_cut h
    obtain ⟨hpayload, h⟩ := Quote.quoted_cut (List.tail_eq_of_cons_eq h)
    exact ⟨htype, hpayload, formatInt_inj (List.tail_eq_of_cons_eq h)⟩
  · rintro ⟨htype, hpayload, htime⟩
    rw [recoverySpecInput, recoverySpecInput, htype, hpayload, htime]

theorem fingerprintPayload_parsed {v : ValidatedPreimagePayload} (hz : r.taskType = zkTaskType)
    (hv : parsePreimagePublicPayload r.payload = .ok v) : fingerprintPayload r = v.canonicalJSON := by
  rw [fingerprintPayload, if_pos hz, hv]

theorem fingerprintPayload_unparsed {e : PayloadError}
    (hv : parsePreimagePublicPayload r.payload = .error e) : fingerprintPayload r = r.payload := by
  rw [fingerprintPayload, hv]
  split <;> rfl

/-- **A payload that does not parse is no other's canonical form.** -/
theorem canonicalJSON_ne_of_error {raw raw' : Bytes} {v : ValidatedPreimagePayload} {e : PayloadError}
    (hv : parsePreimagePublicPayload raw = .ok v) (he : parsePreimagePublicPayload raw' = .error e) :
    v.canonicalJSON ≠ raw' := by
  rintro rfl
  rw [parse_canonicalJSON hv] at he
  cases he

/-- Two payloads a fingerprint does not tell apart. -/
def SameTask (r r' : JobRecord) : Prop :=
  r.payload = r'.payload ∨
    r.taskType = zkTaskType ∧ ∃ v v', parsePreimagePublicPayload r.payload = .ok v ∧
      parsePreimagePublicPayload r'.payload = .ok v' ∧ v.witnessRef = v'.witnessRef ∧ v.digest = v'.digest

theorem fingerprintPayload_eq_iff (htype : r.taskType = r'.taskType) :
    fingerprintPayload r = fingerprintPayload r' ↔ SameTask r r' := by
  by_cases hz : r.taskType = zkTaskType
  · have hz' : r'.taskType = zkTaskType := htype ▸ hz
    cases hv : parsePreimagePublicPayload r.payload with
    | ok v =>
      rw [fingerprintPayload_parsed hz hv]
      cases hv' : parsePreimagePublicPayload r'.payload with
      | ok v' =>
        rw [fingerprintPayload_parsed hz' hv', canonicalJSON_inj hv hv']
        constructor
        · exact fun h => .inr ⟨hz, v, v', hv, hv', h⟩
        · rintro (heq | ⟨-, w, w', hw, hw', h⟩)
          · rw [heq, hv'] at hv
            obtain rfl := Except.ok.inj hv
            exact ⟨rfl, rfl⟩
          · rw [hv] at hw
            rw [hv'] at hw'
            obtain rfl := Except.ok.inj hw
            obtain rfl := Except.ok.inj hw'
            exact h
      | error e' =>
        rw [fingerprintPayload_unparsed hv']
        refine ⟨fun h => absurd h (canonicalJSON_ne_of_error hv hv'), ?_⟩
        rintro (heq | ⟨-, w, w', hw, hw', h⟩)
        · rw [heq, hv'] at hv
          cases hv
        · rw [hv'] at hw'
          cases hw'
    | error e =>
      rw [fingerprintPayload_unparsed hv]
      constructor
      · intro h
        cases hv' : parsePreimagePublicPayload r'.payload with
        | ok v' =>
          rw [fingerprintPayload_parsed hz' hv'] at h
          exact absurd h.symm (canonicalJSON_ne_of_error hv' hv)
        | error e' =>
          rw [fingerprintPayload_unparsed hv'] at h
          exact .inl h
      · rintro (heq | ⟨-, w, w', hw, hw', h⟩)
        · rw [heq] at hv ⊢
          exact (fingerprintPayload_unparsed hv).symm
        · rw [hv] at hw
          cases hw
  · have hz' : ¬ r'.taskType = zkTaskType := htype ▸ hz
    rw [fingerprintPayload, if_neg hz, fingerprintPayload, if_neg hz']
    refine ⟨.inl, ?_⟩
    rintro (heq | ⟨h, -⟩)
    · exact heq
    · exact absurd h hz

/-- **Recovery fingerprints.** -/
theorem recovery_fingerprint (isPrint : ℕ → Bool) (r r' : JobRecord) :
    (recoverySpecInput isPrint r = recoverySpecInput isPrint r' ↔
      r.taskType = r'.taskType ∧ r.timeoutMs = r'.timeoutMs ∧
        (r.payload = r'.payload ∨
          r.taskType = zkTaskType ∧ ∃ v v', parsePreimagePublicPayload r.payload = .ok v ∧
            parsePreimagePublicPayload r'.payload = .ok v' ∧
            v.witnessRef = v'.witnessRef ∧ v.digest = v'.digest)) ∧
    (∀ v, r.taskType = zkTaskType → parsePreimagePublicPayload r.payload = .ok v →
      recoverySpecInput isPrint { r with payload := v.canonicalJSON } = recoverySpecInput isPrint r) ∧
    ∀ v e, parsePreimagePublicPayload r.payload = .ok v →
      parsePreimagePublicPayload r'.payload = .error e →
      recoverySpecInput isPrint r ≠ recoverySpecInput isPrint r' := by
  refine ⟨?_, fun v hz hv => ?_, fun v e hv he heq => ?_⟩
  · rw [recoverySpecInput_inj]
    constructor
    · rintro ⟨htype, hpayload, htime⟩
      exact ⟨htype, htime, (fingerprintPayload_eq_iff htype).1 hpayload⟩
    · rintro ⟨htype, htime, hsame⟩
      exact ⟨htype, (fingerprintPayload_eq_iff htype).2 hsame, htime⟩
  · refine recoverySpecInput_inj.2 ⟨rfl, ?_, rfl⟩
    rw [fingerprintPayload_parsed hz hv]
    exact fingerprintPayload_parsed hz (parse_canonicalJSON hv)
  · obtain ⟨htype, hpayload, -⟩ := recoverySpecInput_inj.1 heq
    rcases (fingerprintPayload_eq_iff htype).1 hpayload with hraw | ⟨-, w, w', -, hw', -⟩
    · rw [hraw, he] at hv
      cases hv
    · rw [he] at hw'
      cases hw'

end Coordinator

end ZkRuntime
