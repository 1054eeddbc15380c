import Mathlib.Tactic.IntervalCases
import ZkRuntime.Coordinator.Helpers.Spec
import ZkRuntime.Coordinator.Model.Schedule
/-!
# What the operations of the schedule do

One lemma for each operation, in terms of `lookup`; the range of the
backoff; and that the fingerprint does not see what validation does to a
payload.
-/

namespace ZkRuntime

namespace Coordinator

variable {isPrint : ℕ → Bool}

/-! ## The backoff -/

/-- The capped delay behind the `k`-th failure, in seconds. -/
def cappedDelay (k : ℕ) : ℕ := min (2 ^ (k - 1)) 30

theorem backoffLoop_cap (n : ℕ) : backoffLoop n (30 * second) = 30 * second := by
  cases n with
  | zero => rfl
  | succ n =>
    have h : ¬ (30 * second < 30 * second) := by decide
    rw [backoffLoop, if_neg h]

/-- Five rounds reach the cap. -/
theorem backoffLoop_add_five (n : ℕ) : backoffLoop (n + 5) second = 30 * second := by
  have h : backoffLoop (n + 5) second = backoffLoop n (30 * second) := by
    have h1 : second < 30 * second := by decide
    have h2 : second * 2 < 30 * second := by decide
    have h3 : second * 2 * 2 < 30 * second := by decide
    have h4 : second * 2 * 2 * 2 < 30 * second := by decide
    have h5 : second * 2 * 2 * 2 * 2 < 30 * second := by decide
    have l1 : ¬ (15 * second ≤ second) := by decide
    have l2 : ¬ (15 * second ≤ second * 2) := by decide
    have l3 : ¬ (15 * second ≤ second * 2 * 2) := by decide
    have l4 : ¬ (15 * second ≤ second * 2 * 2 * 2) := by decide
    have l5 : 15 * second ≤ second * 2 * 2 * 2 * 2 := by decide
    simp only [backoffLoop, h1, h2, h3, h4, h5, l1, l2, l3, l4, l5, if_true, if_false]
  rw [h, backoffLoop_cap]

/-- **The delay the loop comes to**, and its half, as integers. -/
theorem backoffLoop_eq (n : ℕ) :
    (backoffLoop n second).toInt = (min (2 ^ n) 30 : ℕ) * 1000000000 ∧
      (backoffLoop n second / 2).toInt = (min (2 ^ n) 30 : ℕ) * 500000000 ∧
      (backoffLoop n second - backoffLoop n second / 2 + 1).toInt =
        (min (2 ^ n) 30 : ℕ) * 500000000 + 1 := by
  rcases Nat.lt_or_ge n 5 with h | h
  · interval_cases n <;> decide +kernel
  · obtain ⟨m, rfl⟩ := Nat.exists_eq_add_of_le' h
    have hpow : 30 ≤ 2 ^ (m + 5) := by
      have h1 : 1 ≤ 2 ^ m := Nat.one_le_two_pow
      rw [Nat.pow_add]
      omega
    rw [backoffLoop_add_five, Nat.min_eq_right hpow]
    decide +kernel

/-- **The backoff as an unbounded sum**: no operation on the way to it leaves
the 64-bit integers. -/
theorem recoveryBackoff_eq (failures : UInt32) (sample : Sampler) :
    (recoveryBackoff failures sample).toInt = cappedDelay failures.toNat * 500000000 +
        (sample.1 (Int64.ofInt (cappedDelay failures.toNat * 500000000 + 1))).toInt ∧
      0 ≤ (sample.1 (Int64.ofInt (cappedDelay failures.toNat * 500000000 + 1))).toInt ∧
      (sample.1 (Int64.ofInt (cappedDelay failures.toNat * 500000000 + 1))).toInt ≤
        cappedDelay failures.toNat * 500000000 := by
  obtain ⟨-, hh, hn⟩ := backoffLoop_eq (failures.toNat - 1)
  have hcap : min (2 ^ (failures.toNat - 1)) 30 = cappedDelay failures.toNat := rfl
  rw [hcap] at hh hn
  have hle : cappedDelay failures.toNat ≤ 30 := Nat.min_le_right _ _
  have hdef : recoveryBackoff failures sample = backoffLoop (failures.toNat - 1) second / 2 +
      sample.1 (backoffLoop (failures.toNat - 1) second -
        backoffLoop (failures.toNat - 1) second / 2 + 1) := rfl
  generalize backoffLoop (failures.toNat - 1) second = delay at hh hn hdef
  have harg : Int64.ofInt (cappedDelay failures.toNat * 500000000 + 1) = delay - delay / 2 + 1 := by
    rw [← hn, Int64.ofInt_toInt]
  have hpos : (0 : Int64) < delay - delay / 2 + 1 := by
    rw [Int64.lt_iff_toInt_lt, hn]
    have h0 : (0 : Int64).toInt = 0 := by decide
    omega
  obtain ⟨h1, h2⟩ := sample.2 _ hpos
  have h0 : (0 : Int64).toInt = 0 := by decide
  rw [Int64.le_iff_toInt_le, h0] at h1
  rw [Int64.lt_iff_toInt_lt, hn] at h2
  rw [harg]
  refine ⟨?_, h1, by omega⟩
  rw [hdef, Int64.toInt_add, hh, Int.bmod_eq_of_le (by omega) (by omega)]

/-- **The range of the backoff**: from half the capped delay to all of it. -/
theorem recoveryBackoff_range (failures : UInt32) (sample : Sampler) :
    (cappedDelay failures.toNat : ℤ) * 500000000 ≤ (recoveryBackoff failures sample).toInt ∧
      (recoveryBackoff failures sample).toInt ≤ cappedDelay failures.toNat * 1000000000 := by
  obtain ⟨heq, hlow, hhigh⟩ := recoveryBackoff_eq failures sample
  omega

/-- The capped delay is at least a second, and at most thirty. -/
theorem cappedDelay_pos (k : ℕ) : 1 ≤ cappedDelay k := by
  have h : 1 ≤ 2 ^ (k - 1) := Nat.one_le_two_pow
  exact Nat.le_min.2 ⟨h, by omega⟩

/-- A retry is at least half a capped delay away. -/
theorem le_retryAt (now : Time) (failures : UInt32) (sample : Sampler) :
    now + cappedDelay failures.toNat * 500000000 ≤ retryAt now failures sample := by
  have h := (recoveryBackoff_range failures sample).1
  have hle : cappedDelay failures.toNat * 500000000 ≤
      (recoveryBackoff failures sample).toInt.toNat := by omega
  exact Nat.add_le_add_left hle now

theorem lt_retryAt (now : Time) (failures : UInt32) (sample : Sampler) :
    now < retryAt now failures sample := by
  have hpos := cappedDelay_pos failures.toNat
  have hlt : 0 < cappedDelay failures.toNat * 500000000 := by omega
  exact Nat.lt_of_lt_of_le (Nat.lt_add_of_pos_right hlt) (le_retryAt now failures sample)

/-- Saturating, as a number. -/
theorem toNat_incrementRecoveryFailures (n : UInt32) :
    (incrementRecoveryFailures n).toNat = min (n.toNat + 1) 4294967295 := by
  unfold incrementRecoveryFailures
  have hlt := n.toNat_lt
  split
  · rename_i h
    have h' : n.toNat < 4294967295 := by simpa [UInt32.lt_iff_toNat_lt] using h
    rw [UInt32.toNat_add]
    have h1 : (1 : UInt32).toNat = 1 := rfl
    rw [h1, Nat.mod_eq_of_lt (by omega)]
    omega
  · rename_i h
    have h' : ¬ n.toNat < 4294967295 := by simpa [UInt32.lt_iff_toNat_lt] using h
    omega

/-! ## The fingerprint -/

/-- The fingerprint is one of the specification. -/
theorem recoverySpecHash_congr {r r' : JobRecord} (h : jobSpecFromRecord r' = jobSpecFromRecord r) :
    recoverySpecHash isPrint r' = recoverySpecHash isPrint r := by
  simp only [jobSpecFromRecord, JobSpec.mk.injEq] at h
  simp only [recoverySpecHash, recoverySpecInput, fingerprintPayload, h]

/-- **Validation keeps the fingerprint.** -/
theorem recoverySpecHash_of_validateJobSpec {r r' : JobRecord}
    (h : validateJobSpec (jobSpecFromRecord r) = .ok (jobSpecFromRecord r')) :
    recoverySpecHash isPrint r' = recoverySpecHash isPrint r := by
  obtain ⟨-, ⟨-, heq⟩ | ⟨hzk, v, hv, heq⟩⟩ := validateJobSpec_ok h
  · exact recoverySpecHash_congr heq
  · simp only [jobSpecFromRecord, JobSpec.mk.injEq] at heq hzk hv
    obtain ⟨-, ht, hp, hms⟩ := heq
    have hcan := Zk.parse_canonicalJSON hv
    simp only [recoverySpecHash, recoverySpecInput, fingerprintPayload, ht, hp, hms, hzk, hv, hcan,
      if_true]

/-- An entry is of the generation and the specification of a record. -/
structure RetryEntry.Matches (isPrint : ℕ → Bool) (e : RetryEntry) (r : JobRecord) : Prop where
  generation : e.generation = r.attemptID
  specHash : e.specHash = recoverySpecHash isPrint r

namespace RecoverySchedule

variable {q : RecoverySchedule} {j k : JobID} {e e' : RetryEntry} {r : JobRecord}

/-! ## Entries -/

@[simp] theorem lookup_set_self : (q.set j e).entries.lookup j = some e := AList.lookup_insert _

theorem lookup_set_of_ne (h : k ≠ j) : (q.set j e).entries.lookup k = q.entries.lookup k :=
  AList.lookup_insert_ne h

@[simp] theorem lookup_delete_self : (q.delete j).entries.lookup j = none := AList.lookup_erase _ _

theorem lookup_delete_of_ne (h : k ≠ j) : (q.delete j).entries.lookup k = q.entries.lookup k :=
  AList.lookup_erase_ne h

theorem lookup_delete_eq_some :
    (q.delete j).entries.lookup k = some e ↔ k ≠ j ∧ q.entries.lookup k = some e := by
  by_cases h : k = j
  · subst h
    simp
  · rw [lookup_delete_of_ne h]
    exact ⟨fun he => ⟨h, he⟩, fun he => he.2⟩

theorem lookup_set_eq_some (h : (q.set j e).entries.lookup k = some e') :
    (k = j ∧ e' = e) ∨ (k ≠ j ∧ q.entries.lookup k = some e') := by
  by_cases hk : k = j
  · subst hk
    rw [lookup_set_self] at h
    exact .inl ⟨rfl, (Option.some.inj h).symm⟩
  · rw [lookup_set_of_ne hk] at h
    exact .inr ⟨hk, h⟩

/-! ## `reconcile` -/

theorem lookup_reconcileRecord :
    (reconcileRecord isPrint q r).entries.lookup j = some e ↔
      q.entries.lookup j = some e ∧ (r.jobID = j → e.Matches isPrint r) := by
  unfold reconcileRecord
  cases hr : q.entries.lookup r.jobID with
  | none =>
    refine ⟨fun h => ⟨h, fun hj => ?_⟩, fun h => h.1⟩
    rw [hj, h] at hr
    cases hr
  | some e' =>
    dsimp only
    by_cases hm : e'.generation ≠ r.attemptID ∨ e'.specHash ≠ recoverySpecHash isPrint r
    · rw [if_pos hm, lookup_delete_eq_some]
      refine ⟨fun ⟨hne, h⟩ => ⟨h, fun hj => absurd hj.symm hne⟩, fun ⟨h, hmatch⟩ => ⟨?_, h⟩⟩
      rintro rfl
      rw [h] at hr
      cases hr
      rcases hm with hm | hm
      · exact hm (hmatch rfl).generation
      · exact hm (hmatch rfl).specHash
    · rw [if_neg hm]
      push Not at hm
      refine ⟨fun h => ⟨h, fun hj => ?_⟩, fun h => h.1⟩
      rw [hj, h] at hr
      cases hr
      exact ⟨hm.1, hm.2⟩

theorem lookup_reconcileRecords (rows : List JobRecord) :
    (rows.foldl (reconcileRecord isPrint) q).entries.lookup j = some e ↔
      q.entries.lookup j = some e ∧ ∀ r ∈ rows, r.jobID = j → e.Matches isPrint r := by
  induction rows generalizing q with
  | nil => simp
  | cons r rows ih =>
    rw [List.foldl_cons, ih, lookup_reconcileRecord]
    simp only [List.forall_mem_cons, and_assoc]

theorem lookup_deleteAll (p : JobID → Prop) [DecidablePred p] (ids : List JobID) :
    (ids.foldl (fun q id => if p id then q else q.delete id) q).entries.lookup j = some e ↔
      q.entries.lookup j = some e ∧ (j ∈ ids → p j) := by
  induction ids generalizing q with
  | nil => simp
  | cons id ids ih =>
    rw [List.foldl_cons, ih]
    by_cases hp : p id
    · rw [if_pos hp]
      refine and_congr_right fun _ => ⟨fun h hj => ?_, fun h hj => h (List.mem_cons_of_mem _ hj)⟩
      rcases List.mem_cons.1 hj with rfl | hj
      · exact hp
      · exact h hj
    · rw [if_neg hp, lookup_delete_eq_some]
      constructor
      · rintro ⟨⟨hne, h⟩, hids⟩
        refine ⟨h, fun hj => ?_⟩
        rcases List.mem_cons.1 hj with rfl | hj
        · exact absurd rfl hne
        · exact hids hj
      · rintro ⟨h, hids⟩
        refine ⟨⟨?_, h⟩, fun hj => hids (List.mem_cons_of_mem _ hj)⟩
        rintro rfl
        exact hp (hids List.mem_cons_self)

/-- **What `reconcile` keeps**: the entries of listed jobs that match what
was listed. -/
theorem lookup_reconcile (rows : List JobRecord) :
    (q.reconcile isPrint rows).entries.lookup j = some e ↔
      q.entries.lookup j = some e ∧ (∀ r ∈ rows, r.jobID = j → e.Matches isPrint r) ∧
        j ∈ rows.map JobRecord.jobID := by
  unfold reconcile
  rw [lookup_deleteAll fun id => id ∈ rows.map JobRecord.jobID]
  constructor
  · rintro ⟨h, hkeys⟩
    have hmem : j ∈ (rows.foldl (reconcileRecord isPrint) q).entries.keys := by
      rw [← AList.mem_keys, ← AList.lookup_isSome, h]
      rfl
    obtain ⟨h1, h2⟩ := (lookup_reconcileRecords rows).1 h
    exact ⟨h1, h2, hkeys hmem⟩
  · rintro ⟨h1, h2, h3⟩
    exact ⟨(lookup_reconcileRecords rows).2 ⟨h1, h2⟩, fun _ => h3⟩

/-! ## `recheck` -/

/-- The failures an entry counts, none where there is no entry. -/
def failures (q : RecoverySchedule) (j : JobID) : UInt32 := (q.entry j).failures

theorem failures_congr {q' : RecoverySchedule} (h : q'.entries.lookup j = q.entries.lookup j) :
    q'.failures j = q.failures j := by
  simp [failures, entry, h]

theorem failures_of_lookup (h : q.entries.lookup j = some e) : q.failures j = e.failures := by
  simp [failures, entry, h]

theorem failures_of_none (h : q.entries.lookup j = none) : q.failures j = 0 := by
  simp [failures, entry, h, RetryEntry.zero]

/-- **What `recheck` leaves**: an entry of the record, to be retried later,
with the failures of the entry it replaces where that was of the record. -/
theorem lookup_recheck (isPrint : ℕ → Bool) (q : RecoverySchedule) (r : JobRecord) (now : Time)
    (sample : Sampler) :
    ∃ e, (q.recheck isPrint r now sample).entries.lookup r.jobID = some e ∧ e.Matches isPrint r ∧
      now < e.nextRetry ∧
      ((∀ e', q.entries.lookup r.jobID = some e' → e'.Matches isPrint r) →
        e.failures = q.failures r.jobID) := by
  refine ⟨_, lookup_set_self, ⟨rfl, rfl⟩, lt_retryAt now 1 sample, fun hm => ?_⟩
  dsimp only
  cases h : q.entries.lookup r.jobID with
  | none =>
    rw [failures_of_none h]
    simp only [entry, h, Option.getD_none]
    split <;> rfl
  | some e' =>
    have hm' := hm e' h
    rw [failures_of_lookup h]
    simp [entry, h, hm'.generation, hm'.specHash]

theorem lookup_recheck_of_ne {now : Time} {sample : Sampler} (h : j ≠ r.jobID) :
    (q.recheck isPrint r now sample).entries.lookup j = q.entries.lookup j :=
  lookup_set_of_ne h

/-! ## `eligible` and `deadline` -/

/-- A job that is not eligible has an entry, whose retry is to come. -/
theorem lookup_of_not_eligible {now : Time} (h : q.eligible r now = false) :
    ∃ e, q.entries.lookup r.jobID = some e ∧ now < e.nextRetry := by
  simp only [eligible, Bool.not_eq_false', decide_eq_true_eq] at h
  cases he : q.entries.lookup r.jobID with
  | none =>
    simp only [entry, he, Option.getD_none, RetryEntry.zero] at h
    exact absurd h (Nat.not_lt_zero _)
  | some e =>
    simp only [entry, he, Option.getD_some] at h
    exact ⟨e, rfl, h⟩

theorem nextRetry_le_of_eligible {now : Time} (h : q.eligible r now = true)
    (he : q.entries.lookup r.jobID = some e) : e.nextRetry ≤ now := by
  simp only [eligible, entry, he, Option.getD_some, Bool.not_eq_true', decide_eq_false_iff_not] at h
  exact Nat.not_lt.1 h

theorem deadline_of_scan (h : q.scan.nextRetry ≠ 0) : q.deadline ≠ 0 := by
  unfold deadline
  rwa [if_pos h]

/-- **With an entry there is a deadline**, where every retry has a time. -/
theorem deadline_of_lookup (hpos : ∀ j e, q.entries.lookup j = some e → e.nextRetry ≠ 0)
    (h : q.entries.lookup j = some e) : q.deadline ≠ 0 := by
  unfold deadline
  split
  · assumption
  · have hmem : ∀ s ∈ q.entries.entries, s.2.nextRetry ≠ 0 := fun s hs =>
      hpos s.1 s.2 (AList.mem_lookup_iff.2 hs)
    have hne : q.entries.entries ≠ [] := by
      intro hnil
      have hin := AList.mem_lookup_iff.1 (Option.mem_def.2 h)
      rw [hnil] at hin
      cases hin
    -- Past the first entry the minimum so far is the time of a retry.
    have hfold : ∀ (l : List (Sigma fun _ : JobID => RetryEntry)) (t : Time),
        (∀ s ∈ l, s.2.nextRetry ≠ 0) → (t ≠ 0 ∨ l ≠ []) →
        l.foldl (fun next e => if next = 0 ∨ e.2.nextRetry < next then e.2.nextRetry else next)
          t ≠ 0 := by
      intro l
      induction l with
      | nil =>
        intro t _ ht
        exact ht.resolve_right (fun h => h rfl)
      | cons s l ih =>
        intro t hl _
        rw [List.foldl_cons]
        refine ih _ (fun s' hs' => hl s' (List.mem_cons_of_mem _ hs')) (.inl ?_)
        split
        · exact hl s List.mem_cons_self
        · rename_i hc
          exact fun h0 => hc (.inl h0)
    exact hfold _ 0 hmem (.inr hne)

end RecoverySchedule

end Coordinator

end ZkRuntime
