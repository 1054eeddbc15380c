import ZkRuntime.Coordinator.Helpers.Tally
import ZkRuntime.Coordinator.Scheduling
/-!
# The cooldown of a recovering job

Where a failed `Save` leaves the store unchanged. Behind an uncancelled
pass the entry of a job that is still `Recovering` counts its consecutive
executed-and-failed sessions; nothing but such a session changes the count
of an entry; and after the `k`-th failure the job, while its record is the
one that session left, is not executed before half the capped delay has
passed. An entry whose record a submission has replaced since the listing
keeps its count until the next listing, so the count is claimed of
recovering jobs only.
-/

namespace ZkRuntime

namespace Coordinator

variable {isPrint : ℕ → Bool} {S S' : Scheduler} {L : Loop} {act : SchedulerAction} {j : JobID}

/-! ## What changes the count of an entry -/

/-- What is counted for `j` stays, or the entry goes with the record. -/
def KeepsFailures (S S' : Scheduler) (j : JobID) : Prop :=
  S'.loop.schedule.failures j = S.loop.schedule.failures j ∨
    S'.loop.schedule.entries.lookup j = none ∧ ∀ row, ¬ RecoveringRow S.core j row

theorem keepsFailures_of_lookup
    (h : S'.loop.schedule.entries.lookup j = S.loop.schedule.entries.lookup j) :
    KeepsFailures S S' j := .inl (RecoverySchedule.failures_congr h)

/-- The entry of a job that is not `Recovering` goes. -/
theorem keepsFailures_delete {i : JobID} {p : Place} (hnone : ∀ row, ¬ RecoveringRow S.core i row) :
    KeepsFailures S
      { S with loop := { S.loop with schedule := S.loop.schedule.delete i, place := p } } j := by
  by_cases hj : j = i
  · subst hj
    exact .inr ⟨RecoverySchedule.lookup_delete_self, hnone⟩
  · exact keepsFailures_of_lookup (RecoverySchedule.lookup_delete_of_ne hj)

/-- **A step of the loop keeps what an entry counts**, unless it sets the
retry of a counted failure. -/
theorem Known.keepsFailures {m : Sampler} {c : LoopChoice} (h : Known isPrint S)
    (hr : Rounds isPrint S.core S.loop m c L) (hp : ∀ e, S.loop.place ≠ .failure j e) :
    KeepsFailures S { S with loop := L } j := by
  have hwork := h.working
  cases hr with
  | stopped _ _ hq => exact keepsFailures_of_lookup (congrArg (fun q => q.entries.lookup j) hq)
  | @listed rows h' hperm =>
    by_cases hrow : ∃ row, RecoveringRow S.core j row
    · obtain ⟨row, hrow⟩ := hrow
      have hjob : S.loop.place.job ≠ some j := by rw [h']; simp [Place.job]
      refine keepsFailures_of_lookup (Option.ext fun e => ⟨fun he => ?_, fun he => ?_⟩)
      · exact ((RecoverySchedule.lookup_reconcile rows).1 he).1
      · exact h.lookup_listed hjob hperm hrow rfl he
    · refine .inr ⟨?_, fun row hr => hrow ⟨row, hr⟩⟩
      by_contra hsome
      obtain ⟨e', he'⟩ := Option.ne_none_iff_exists'.1 hsome
      obtain ⟨r, hr, hj⟩ := List.mem_map.1 ((RecoverySchedule.lookup_reconcile rows).1 he').2.2
      exact hrow ⟨r, hj ▸ Store.mem_listByState.1 (hperm.mem_iff.1 hr)⟩
  | load_gone h' hnone => exact keepsFailures_delete hnone
  | @load_stale snapshot current h' hr hne =>
    rw [h'] at hwork
    exact absurd (congrArg JobRecord.attemptID (hwork.1 current hr)) hne
  | @rechecked r failed h' =>
    rw [h'] at hwork
    by_cases hj : j = r.jobID
    · subst hj
      obtain ⟨e, he, -, -, hsame⟩ := RecoverySchedule.lookup_recheck isPrint S.loop.schedule r
        S.core.now m
      exact .inl ((RecoverySchedule.failures_of_lookup he).trans (hsame hwork.2))
    · exact keepsFailures_of_lookup (RecoverySchedule.lookup_recheck_of_ne hj)
  | @completed_closed current result failed h' hclosed =>
    rw [h'] at hwork
    refine keepsFailures_delete fun row hr => ?_
    obtain ⟨-, -, hterm, hrep⟩ := hwork.row row hr
    simp [hterm, hrep] at hclosed
  | completed_gone h' hnone => exact keepsFailures_delete hnone
  | @completed_replaced current r result failed h' hr hne =>
    rw [h'] at hwork
    obtain ⟨hgen, hhash, -⟩ := hwork.row r hr
    rcases hne with hne | hne
    · exact absurd hgen hne
    · exact absurd (hhash.trans hwork.hash.symm) hne
  | @failed i e h' =>
    have hj : j ≠ i := fun heq => hp e (heq ▸ h')
    exact keepsFailures_of_lookup (RecoverySchedule.lookup_set_of_ne hj)
  | _ => exact keepsFailures_of_lookup rfl

/-- **Every step of the scheduler** keeps what an entry counts, but for the
one that sets the retry of a counted failure. -/
theorem keepsFailures_step (h : S.loop.place ≠ .stopped → Known isPrint S)
    (hs : Schedules isPrint S act S') (hp : ∀ e, S.loop.place ≠ .failure j e) :
    KeepsFailures S S' j := by
  rcases hs.moves with ⟨c, m, L, hr, rfl⟩ | ⟨hq, -⟩ | ⟨_, -, -, hq⟩
  · by_cases hstop : S.loop.place = .stopped
    · cases hr with
      | stopped _ _ hq => exact keepsFailures_of_lookup (congrArg (fun q => q.entries.lookup j) hq)
      | _ => simp_all
    · exact (h hstop).keepsFailures hr hp
  · exact keepsFailures_of_lookup (congrArg (fun q => q.entries.lookup j) hq)
  · exact keepsFailures_of_lookup (congrArg (fun q => q.entries.lookup j) hq)

/-- The place a failure is counted at is reached from an executed session
that failed. -/
theorem executed_of_failure {e : RetryEntry} (hs : Schedules isPrint S act S')
    (hp : S'.loop.place = .failure j e) (hne : S.loop.place ≠ .failure j e) :
    ∃ current result, S.loop.place = .completed current result true ∧ current.jobID = j ∧
      result.executed = true := by
  rcases hs.moves with ⟨c, m, L, hr, rfl⟩ | ⟨-, hp'⟩ | ⟨r, -, ⟨_, _, hp'⟩ | ⟨_, hp'⟩, -⟩
  · cases hr with
    | stopped _ _ _ hstop => exact absurd (hstop.symm.trans hp) (by simp)
    | skipped h' => exact absurd (h'.symm.trans hp) (by simp)
    | cooling h' => exact absurd (h'.symm.trans hp) (by simp)
    | completed_failure h' hex =>
      cases hp
      exact ⟨_, _, h', rfl, hex⟩
    | _ => cases hp
  · exact absurd (hp'.symm.trans hp) hne
  · exact absurd (hp'.symm.trans hp) (by simp)
  · exact absurd (hp'.symm.trans hp) (by simp)

/-! ## What keeps a job from being executed -/

/-- Saturation does not show in the delay. -/
theorem cappedDelay_min (k : ℕ) : cappedDelay (min k maxFailures) = cappedDelay k := by
  rcases Nat.le_total k maxFailures with h | h
  · rw [Nat.min_eq_left h]
  · have hbig : ∀ n, 6 ≤ n → cappedDelay n = 30 := fun n hn => by
      obtain ⟨d, rfl⟩ := Nat.exists_eq_add_of_le' hn
      have h1 : 1 ≤ 2 ^ d := Nat.one_le_two_pow
      have h2 : 2 ^ (d + 6 - 1) = 2 ^ d * 32 := by
        rw [show d + 6 - 1 = d + 5 by omega, Nat.pow_add]
      unfold cappedDelay
      rw [h2]
      omega
    rw [Nat.min_eq_right h, hbig _ (by unfold maxFailures; omega),
      hbig k (by unfold maxFailures at h; omega)]

/-- When a job that failed for the `k`-th time at `since` may be executed
again, at the earliest. -/
def earliest (k : ℕ) (since : Time) : Time := since + cappedDelay k * 500000000

/-- **Why `j` is not executed**, after its `k`-th failure at `since`. -/
inductive Guarded (S : Scheduler) (j : JobID) (k : ℕ) (since : Time) : Prop
  | past (h : earliest k since ≤ S.core.now)
  | stopped (hp : S.loop.place = .stopped)
  | gone (hrow : ∀ row, ¬ RecoveringRow S.core j row)
      (hp : ∀ current, S.loop.place = .claim current → current.jobID ≠ j)
  /-- The failure is on its way into the entry. -/
  | counting {row current : JobRecord} {result : RecoveryExecution}
      (hrow : RecoveringRow S.core j row) (hp : S.loop.place = .returned current result true ∨
        S.loop.place = .completed current result true) (hj : current.jobID = j)
      (hex : result.executed = true)
      (hk : (incrementRecoveryFailures (S.loop.schedule.failures j)).toNat = min k maxFailures)
  | counted {row : JobRecord} {e : RetryEntry} (hrow : RecoveringRow S.core j row)
      (hp : S.loop.place = .failure j e) (hk : e.failures.toNat = min k maxFailures)
  /-- The entry is to be retried later, and the job is not in hand. -/
  | cooling {row : JobRecord} {e : RetryEntry} (hrow : RecoveringRow S.core j row)
      (hp : S.loop.place.job ≠ some j) (he : S.loop.schedule.entries.lookup j = some e)
      (ht : earliest k since ≤ e.nextRetry)

variable {k : ℕ} {since : Time}

/-- A job about to be executed was found `Recovering`. -/
theorem recovering_of_claim {current : JobRecord} (hs : Schedules isPrint S act S')
    (hp : S'.loop.place = .claim current) :
    S.loop.place = .claim current ∨ RecoveringRow S.core current.jobID current := by
  rcases hs.moves with ⟨c, m, L, hr, rfl⟩ | ⟨-, hp'⟩ | ⟨r, -, ⟨_, _, hp'⟩ | ⟨_, hp'⟩, -⟩
  · cases hr with
    | stopped _ _ _ hstop => exact absurd (hstop.symm.trans hp) (by simp)
    | skipped h' => exact absurd (h'.symm.trans hp) (by simp)
    | cooling h' => exact absurd (h'.symm.trans hp) (by simp)
    | @loaded snapshot _ h' hrow =>
      cases hp
      have hid : current.jobID = snapshot.jobID := Store.jobID_of_load hrow.1
      exact .inr (hid ▸ hrow)
    | _ => cases hp
  · exact .inl (hp'.symm.trans hp)
  · exact absurd (hp'.symm.trans hp) (by simp)
  · exact absurd (hp'.symm.trans hp) (by simp)

/-- **A job that is cooling down stays so through a step of the loop**, or
its time has come. -/
theorem Known.cooling {m : Sampler} {c : LoopChoice} {row : JobRecord} {e : RetryEntry}
    (h : Known isPrint S) (hr : Rounds isPrint S.core S.loop m c L) (hp : L.place ≠ .stopped)
    (hrow : RecoveringRow S.core j row) (hj : S.loop.place.job ≠ some j)
    (he : S.loop.schedule.entries.lookup j = some e) :
    (L.place.job ≠ some j ∧ L.schedule.entries.lookup j = some e) ∨ e.nextRetry ≤ S.core.now := by
  have hwork := h.working
  cases hr with
  | stopped _ _ _ hstop => exact absurd hstop hp
  | @listed rows h' hperm =>
    exact .inl ⟨by simp [Place.job], h.lookup_listed hj hperm hrow rfl he⟩
  | @taken snapshot rows h' hrows hs hel =>
    by_cases hid : snapshot.jobID = j
    · subst hid
      exact .inr (RecoverySchedule.nextRetry_le_of_eligible hel he)
    · exact .inl ⟨by simpa [Place.job] using hid, he⟩
  | skipped => exact .inl ⟨hj, he⟩
  | cooling => exact .inl ⟨hj, he⟩
  | load_fails h' => rw [h'] at hj; exact .inl ⟨hj, he⟩
  | @loaded snapshot current h' hrow' =>
    have hid : current.jobID = snapshot.jobID := Store.jobID_of_load hrow'.1
    rw [h'] at hj
    exact .inl ⟨by simpa [Loop.goto, Place.job, hid] using hj, he⟩
  | @load_gone snapshot h' =>
    rw [h'] at hj
    refine .inl ⟨by simp [Place.job], (RecoverySchedule.lookup_delete_of_ne ?_).trans he⟩
    exact fun hid => hj (congrArg some hid.symm)
  | @load_stale snapshot current h' hr hne =>
    rw [h'] at hwork
    exact absurd (congrArg JobRecord.attemptID (hwork.1 current hr)) hne
  | @rechecked r failed h' =>
    rw [h'] at hj
    refine .inl ⟨by simp [Place.job], (RecoverySchedule.lookup_recheck_of_ne ?_).trans he⟩
    exact fun hid => hj (congrArg some hid.symm)
  | returned h' => rw [h'] at hj; exact .inl ⟨hj, he⟩
  | @completed_closed current result failed h' =>
    rw [h'] at hj
    refine .inl ⟨by simp [Place.job], (RecoverySchedule.lookup_delete_of_ne ?_).trans he⟩
    exact fun hid => hj (congrArg some hid.symm)
  | @completed_gone current result failed h' =>
    rw [h'] at hj
    refine .inl ⟨by simp [Place.job], (RecoverySchedule.lookup_delete_of_ne ?_).trans he⟩
    exact fun hid => hj (congrArg some hid.symm)
  | @completed_replaced current r result failed h' hr hne =>
    rw [h'] at hwork
    obtain ⟨hgen, hhash, -⟩ := hwork.row r hr
    rcases hne with hne | hne
    · exact absurd hgen hne
    · exact absurd (hhash.trans hwork.hash.symm) hne
  | completed_recheck h' => rw [h'] at hj; exact .inl ⟨hj, he⟩
  | completed_failure h' => rw [h'] at hj; exact .inl ⟨hj, he⟩
  | @failed i e' h' =>
    rw [h'] at hj
    refine .inl ⟨by simp [Place.job], (RecoverySchedule.lookup_set_of_ne ?_).trans he⟩
    exact fun hid => hj (congrArg some hid.symm)
  | _ => exact .inl ⟨by simp [Loop.goto, Place.job], he⟩

/-- **What keeps a job from being executed holds on**, while its record
stays as it is. -/
theorem Guarded.step (h : Guarded S j k since) (hsince : since ≤ S.core.now)
    (hk : S.loop.place ≠ .stopped → Known isPrint S) (hs : Schedules isPrint S act S') (hnow : S.core.now ≤ S'.core.now)
    (hrow : S'.core.store.load j = S.core.store.load j) : Guarded S' j k since := by
  have hto : ∀ {row}, RecoveringRow S.core j row → RecoveringRow S'.core j row := fun hr =>
    ⟨hrow.trans hr.1, hr.2⟩
  by_cases hstop : S'.loop.place = .stopped
  · exact .stopped hstop
  have halive := hs.alive hstop
  cases h with
  | past h => exact .past (Nat.le_trans h hnow)
  | stopped hp => exact absurd hp halive
  | gone hnone hp =>
    refine .gone (fun row hr => hnone row ⟨hrow ▸ hr.1, hr.2⟩) fun current hc hj => ?_
    rcases recovering_of_claim hs hc with hc' | hr
    · exact hp current hc' hj
    · exact hnone current (hj ▸ hr)
  | @counting row current result hr hp hj hex hcount =>
    subst hj
    have hjob : S.loop.place ≠ .stopped ∧ (∀ r sid, S.loop.place ≠ .running r sid) ∧
        ∀ r, S.loop.place ≠ .claim r := by rcases hp with hp | hp <;> simp [hp]
    have hwork := (hk halive).working
    rcases hs.moves with ⟨c, m, L, hround, rfl⟩ | ⟨hq, hp'⟩ | ⟨r, hp', -⟩
    · rcases hp with hp | hp
      · cases hround with
        | stopped _ _ _ hstop' => exact absurd hstop' hstop
        | returned h' =>
          rw [hp] at h'
          cases h'
          exact .counting hr (.inr rfl) rfl hex hcount
        | _ => simp_all
      · rw [hp] at hwork
        cases hround with
        | stopped _ _ _ hstop' => exact absurd hstop' hstop
        | completed_closed h' hclosed =>
          rw [hp] at h'
          cases h'
          obtain ⟨-, -, hterm, hrep⟩ := hwork.row row hr
          simp [hterm, hrep] at hclosed
        | completed_gone h' hnone =>
          rw [hp] at h'
          cases h'
          exact absurd hr (hnone row)
        | completed_replaced h' hr' hne =>
          rw [hp] at h'
          cases h'
          obtain ⟨hgen, hhash, -⟩ := hwork.row _ hr'
          rcases hne with hne | hne
          · exact absurd hgen hne
          · exact absurd (hhash.trans hwork.hash.symm) hne
        | completed_recheck h' _ hnot =>
          rw [hp] at h'
          cases h'
          exact absurd ⟨hex, rfl⟩ hnot
        | completed_failure h' =>
          rw [hp] at h'
          cases h'
          exact .counted hr rfl (by rw [failures_counted hwork]; exact hcount)
        | _ => simp_all
    · exact .counting (hto hr) (by rw [hp']; exact hp) rfl hex (by rw [hq]; exact hcount)
    · rcases hp' with hp' | ⟨sid, hp'⟩
      · exact absurd hp' (hjob.2.2 _)
      · exact absurd hp' (hjob.2.1 _ _)
  | @counted row e hr hp hcount =>
    rcases hs.moves with ⟨c, m, L, hround, rfl⟩ | ⟨-, hp'⟩ | ⟨r, hp', -⟩
    · cases hround with
      | stopped _ _ _ hstop' => exact absurd hstop' hstop
      | failed h' =>
        rw [hp] at h'
        cases h'
        refine .cooling hr (by simp [Place.job]) RecoverySchedule.lookup_set_self ?_
        have hle := le_retryAt S.core.now e.failures m
        rw [hcount, cappedDelay_min] at hle
        exact Nat.le_trans (Nat.add_le_add_right hsince _) hle
      | _ => simp_all
    · exact .counted (hto hr) (hp'.trans hp) hcount
    · rcases hp' with hp' | ⟨sid, hp'⟩ <;> simp [hp] at hp'
  | @cooling row e hr hp he ht =>
    rcases hs.moves with ⟨c, m, L, hround, rfl⟩ | ⟨hq, hp'⟩ | ⟨r, hp', hp'', hq⟩
    · rcases (hk halive).cooling hround hstop hr hp he with ⟨hj, he'⟩ | hle
      · exact .cooling hr hj he' ht
      · exact .past (Nat.le_trans ht hle)
    · exact .cooling (hto hr) (by rw [hp']; exact hp) (by rw [hq]; exact he) ht
    · have hj : S.loop.place.job = some r.jobID := by rcases hp' with hp' | ⟨sid, hp'⟩ <;> rw [hp'] <;> rfl
      have hj' : S'.loop.place.job = some r.jobID := by
        rcases hp'' with ⟨_, _, hp''⟩ | ⟨sid, hp''⟩ <;> rw [hp''] <;> rfl
      exact .cooling (hto hr) (by rw [hj', ← hj]; exact hp) (by rw [hq]; exact he) ht

/-! ## Over a run -/

section Runs

variable (r : (scheduler isPrint).Run)

/-- A recovery session of `j` that executed it fails in the step. -/
def FailsAt (n : ℕ) (j : JobID) : Prop := (r.state n).finishes (r.act n) = some (j, true)

/-- The record of `j` stays as step `n` left it, up to the state `m`. -/
def LeftAlone (n m : ℕ) (j : JobID) : Prop :=
  ∀ i, n < i → i ≤ m →
    (r.state i).core.store.load j = (r.state (n + 1)).core.store.load j

/-- A pass begins to execute `j` in the step. -/
def ExecutesAt (m : ℕ) (j : JobID) : Prop :=
  ∃ current sid, (r.state m).loop.place = .claim current ∧ current.jobID = j ∧
    (r.state (m + 1)).loop.place = .running current sid

variable {r} {n m : ℕ}

theorem now_le_step (hs : Schedules isPrint S act S') : S.core.now ≤ S'.core.now := by
  cases hs with
  | process hserves hs => exact now_le hs
  | shut_running hp hs => exact now_le hs
  | _ => exact Nat.le_refl _

/-- **A failure guards the job.** -/
theorem FailsAt.guarded (hat : AtomicRun r) (h : FailsAt r n j) :
    Guarded (r.state (n + 1)) j (failureCount r j (n + 1)) (r.state n).core.now := by
  obtain ⟨current, sid, c, x, out, hp, hact, hx, hpc, hex, rfl, hfail⟩ := finishes_eq_some h
  have hplace : (r.state (n + 1)).loop.place = .returned current x.result true ∧
      (r.state (n + 1)).loop.schedule = (r.state n).loop.schedule := by
    have hs := schedules_of_step (r.next n)
    rw [hact] at hs
    generalize r.state (n + 1) = S' at hs
    cases hs with
    | process hserves hs =>
      rcases awaited_cases (S := r.state n) (.session sid c) with
        ⟨-, hne⟩ | ⟨current', sid', c', x', out', hp', ha', hx', hpc', heq⟩
      · exact absurd hpc (hne _ _ _ _ _ hp rfl hx)
      · cases ha'
        rw [hp] at hp'
        cases hp'
        obtain rfl : x = x' := Option.some.inj (hx.symm.trans hx')
        rw [hpc] at hpc'
        cases hpc'
        rw [heq, hfail]
        exact ⟨rfl, rfl⟩
  by_cases hrow : ∃ row, RecoveringRow (r.state (n + 1)).core current.jobID row
  · obtain ⟨row, hrow⟩ := hrow
    have hcount := (tallied r hat (n + 1) (by simp [hplace.1])).rows hrow
    simp only [Loop.pending, hplace.1, hex, and_self, if_true] at hcount
    exact .counting hrow (.inl hplace.1) rfl hex hcount
  · exact .gone (fun row hr => hrow ⟨row, hr⟩) fun _ hc => by simp [hplace.1] at hc

/-- **After its `k`-th failure a job is not executed before its delay has
passed**, while its record stays as it was left. -/
theorem FailsAt.delayed (hat : AtomicRun r) (h : FailsAt r n j) (hnm : n < m)
    (hleft : LeftAlone r n m j) (hexec : ExecutesAt r m j) :
    earliest (failureCount r j (n + 1)) (r.state n).core.now ≤ (r.state m).core.now := by
  have hstep : ∀ i, (r.state i).core.now ≤ (r.state (i + 1)).core.now := fun i =>
    now_le_step (schedules_of_step (r.next i))
  have hguard : ∀ d, n + 1 + d ≤ m → (r.state n).core.now ≤ (r.state (n + 1 + d)).core.now ∧
      Guarded (r.state (n + 1 + d)) j (failureCount r j (n + 1)) (r.state n).core.now := by
    intro d
    induction d with
    | zero => exact fun _ => ⟨hstep n, h.guarded hat⟩
    | succ d ih =>
      intro hd
      obtain ⟨hnow, hg⟩ := ih (by omega)
      refine ⟨Nat.le_trans hnow (hstep _), hg.step hnow (attended_known r hat _).2
        (schedules_of_step (r.next _)) (hstep _) ?_⟩
      exact (hleft _ (by omega) hd).trans (hleft _ (by omega) (by omega)).symm
  obtain ⟨current, sid, hp, hj, -⟩ := hexec
  have hm := (hguard (m - (n + 1)) (by omega)).2
  rw [show n + 1 + (m - (n + 1)) = m by omega] at hm
  cases hm with
  | past h => exact h
  | stopped hp' => simp [hp] at hp'
  | gone _ hp' => exact absurd hj (hp' current hp)
  | counting _ hp' => simp [hp] at hp'
  | counted _ hp' => simp [hp] at hp'
  | cooling _ hp' => exact absurd (by rw [hp, ← hj]; rfl) hp'

/-- Behind an uncancelled pass the entries of recovering jobs count their
failed sessions. -/
theorem PassEndsAt.failures {e : RetryEntry} {row : JobRecord} (hat : AtomicRun r)
    (h : PassEndsAt r n) (he : (r.state (n + 1)).loop.schedule.entries.lookup j = some e)
    (hrow : RecoveringRow (r.state (n + 1)).core j row) :
    e.failures.toNat = min (failureCount r j (n + 1)) maxFailures := by
  have hcount := (tallied r hat (n + 1) (by simp [h.2])).rows hrow
  simp only [Loop.pending, h.2] at hcount
  rw [← hcount, RecoverySchedule.failures_of_lookup he]

end Runs

/-- **The cooldown law.** Where a failed `Save` leaves the store unchanged:
behind an uncancelled pass the entry of every job that is still `Recovering`
counts its consecutive executed-and-failed sessions; no step but the one
that sets the retry of such a session changes what is counted, or the job
is not `Recovering` and its entry goes; after the `k`-th failure the job is
not executed, while its record is left alone, before half the capped delay
has passed; and the delay is between half the capped one and all of it, for
every count and every sample, as the unbounded sum gives it. -/
theorem cooldown (r : (scheduler isPrint).Run) (hat : AtomicRun r) :
    (∀ n j e row, PassEndsAt r n → (r.state (n + 1)).loop.schedule.entries.lookup j = some e →
      RecoveringRow (r.state (n + 1)).core j row →
      e.failures.toNat = min (failureCount r j (n + 1)) maxFailures) ∧
    (∀ n j, ((∀ e, (r.state n).loop.place ≠ .failure j e) →
        KeepsFailures (r.state n) (r.state (n + 1)) j) ∧
      ∀ e, (r.state (n + 1)).loop.place = .failure j e → (r.state n).loop.place ≠ .failure j e →
        ∃ current result, (r.state n).loop.place = .completed current result true ∧
          current.jobID = j ∧ result.executed = true) ∧
    (∀ n m j, FailsAt r n j → n < m → LeftAlone r n m j → ExecutesAt r m j →
      earliest (failureCount r j (n + 1)) (r.state n).core.now ≤ (r.state m).core.now) ∧
    ∀ (failures : UInt32) (sample : Sampler),
      (recoveryBackoff failures sample).toInt = cappedDelay failures.toNat * 500000000 +
          (sample.1 (Int64.ofInt (cappedDelay failures.toNat * 500000000 + 1))).toInt ∧
        (cappedDelay failures.toNat : ℤ) * 500000000 ≤ (recoveryBackoff failures sample).toInt ∧
        (recoveryBackoff failures sample).toInt ≤ cappedDelay failures.toNat * 1000000000 := by
  refine ⟨fun n j e row hends he hrow => hends.failures hat he hrow, fun n j => ⟨fun hp => ?_, ?_⟩,
    fun n m j hf hnm hleft hexec => hf.delayed hat hnm hleft hexec, fun failures sample =>
      ⟨(recoveryBackoff_eq failures sample).1, recoveryBackoff_range failures sample⟩⟩
  · exact keepsFailures_step (attended_known r hat n).2 (schedules_of_step (r.next n)) hp
  · exact fun e => executed_of_failure (schedules_of_step (r.next n))

/-! ## Runs of scripts -/

def listExample : SchedulerAction := .loop (.listed [recoveringExample]) leastSample

/-- A pass over the job without a worker: its session fails, and the loop
waits for the retry. -/
def failScript : List SchedulerAction :=
  [go, go, go, listExample, go, go, go] ++ List.replicate 8 (.process (.session 0 .go)) ++
    [go, go, go, go, go, go]

/-- The retry, when its time has come. -/
def againScript : List SchedulerAction :=
  failScript ++ [.process (.tick 500000000), .loop .timer leastSample, go, go, listExample,
    go, go, go]

theorem plays_againScript :
    (scheduler asciiPrint).plays (fresh recoveringStore 5) againScript = true := by decide +kernel

section Scripts

variable {st : Store} {now : Time} {as : List SchedulerAction}
  (h : (scheduler asciiPrint).plays (fresh st now) as = true)

theorem passEndsAt_scheduled (n : ℕ)
    (hp : ((scheduler asciiPrint).play (fresh st now) as n).loop.place = .next)
    (hp' : ((scheduler asciiPrint).play (fresh st now) as (n + 1)).loop.place = .after) :
    PassEndsAt (scheduled st now as h) n := ⟨hp, hp'⟩

theorem executesAt_scheduled (m : ℕ) {current : JobRecord} (sid : SessionID)
    (hp : ((scheduler asciiPrint).play (fresh st now) as m).loop.place = .claim current)
    (hp' : ((scheduler asciiPrint).play (fresh st now) as (m + 1)).loop.place =
      .running current sid) : ExecutesAt (scheduled st now as h) m current.jobID :=
  ⟨current, sid, hp, rfl, hp'⟩

theorem failsAt_scheduled (n : ℕ) (hf : ((scheduler asciiPrint).play (fresh st now) as n).finishes
    (as.getD n (.process (.tick 0))) = some (j, true)) : FailsAt (scheduled st now as h) n j := hf

theorem exists_entry_scheduled (n : ℕ) {f : UInt32}
    (he : (((scheduler asciiPrint).play (fresh st now) as n).loop.schedule.entries.lookup j).map
      RetryEntry.failures = some f) :
    ∃ e, ((scheduled st now as h).state n).loop.schedule.entries.lookup j = some e ∧
      e.failures = f := Option.map_eq_some_iff.1 he

theorem recoveringRow_scheduled (n : ℕ) {row : JobRecord}
    (hr : ((scheduler asciiPrint).play (fresh st now) as n).core.store.load j = some row)
    (hst : row.state = .recovering) :
    RecoveringRow ((scheduled st now as h).state n).core j row := ⟨hr, hst⟩

theorem leftAlone_scheduled (n m : ℕ) (row : JobRecord) (hnm : n < m)
    (hr : ∀ i < m + 1, ((scheduler asciiPrint).play (fresh st now) as i).core.store.load j =
      some row) : LeftAlone (scheduled st now as h) n m j := by
  intro i _ hi
  exact (hr i (by omega)).trans (hr (n + 1) (by omega)).symm

end Scripts

theorem cooldown_again : ∃ (r : (scheduler asciiPrint).Run) (e : RetryEntry),
    AtomicRun r ∧ PassEndsAt r 19 ∧ (r.state (19 + 1)).loop.schedule.entries.lookup 7 = some e ∧
      e.failures.toNat = min 1 maxFailures ∧ failureCount r 7 (19 + 1) = 1 ∧ FailsAt r 14 7 ∧
      LeftAlone r 14 28 7 ∧ ExecutesAt r 28 7 ∧
      earliest 1 (r.state 14).core.now ≤ (r.state 28).core.now := by
  have hat := atomicRun_scheduled plays_againScript (by decide +kernel)
  have hends := passEndsAt_scheduled plays_againScript 19 (by decide +kernel) (by decide +kernel)
  have hrow := recoveringRow_scheduled (j := 7) plays_againScript (19 + 1)
    (show _ = some recoveringExample by decide +kernel) rfl
  have hcount : failureCount (scheduled _ _ _ plays_againScript) 7 (19 + 1) = 1 := by
    decide +kernel
  have hcount' : failureCount (scheduled _ _ _ plays_againScript) 7 (14 + 1) = 1 := by
    decide +kernel
  have hfails := failsAt_scheduled (j := 7) plays_againScript 14 (by decide +kernel)
  have hleft := leftAlone_scheduled (j := 7) plays_againScript 14 28 recoveringExample (by omega)
    (by decide +kernel)
  have hexec := executesAt_scheduled plays_againScript 28 1
    (show _ = Place.claim recoveringExample by decide +kernel) (by decide +kernel)
  obtain ⟨e, he, -⟩ := exists_entry_scheduled (j := 7) plays_againScript (19 + 1)
    (show _ = some 1 by decide +kernel)
  obtain ⟨hfail, -, hdelay, -⟩ := cooldown _ hat
  have hf := hfail 19 7 e recoveringExample hends he hrow
  have hd := hdelay 14 28 7 hfails (by omega) hleft hexec
  rw [hcount] at hf
  rw [hcount'] at hd
  exact ⟨_, e, hat, hends, he, hf, hcount, hfails, hleft, hexec, hd⟩

/-- In the second pass, past its listing, a submission replaces the record. -/
def replacedScript : List SchedulerAction :=
  failScript ++ [.notify, .loop .ready leastSample, go, go, listExample,
    .process (.registerWorker exampleWorker.id exampleWorker.address),
    .process (.submit exampleRequest none)] ++
    List.replicate 6 (.process (.session 1 .go)) ++ [go, go]

theorem plays_replacedScript :
    (scheduler asciiPrint).plays (fresh recoveringStore 5) replacedScript = true := by
  decide +kernel

/-- **For a job that is not `Recovering` any more the count fails**: a
submission publishes the next generation past the listing of a pass, and
behind that pass the entry still counts the failure of the generation that
was replaced. -/
theorem cooldown_replaced : ¬ ∀ r : (scheduler asciiPrint).Run, AtomicRun r →
    ∀ n j e, PassEndsAt r n → (r.state (n + 1)).loop.schedule.entries.lookup j = some e →
      e.failures.toNat = min (failureCount r j (n + 1)) maxFailures := by
  intro h
  have hat := atomicRun_scheduled plays_replacedScript (by decide +kernel)
  have hends := passEndsAt_scheduled plays_replacedScript 35 (by decide +kernel) (by decide +kernel)
  have hcount : failureCount (scheduled _ _ _ plays_replacedScript) 7 (35 + 1) = 0 := by
    decide +kernel
  obtain ⟨e, he, hone⟩ := exists_entry_scheduled (j := 7) plays_replacedScript (35 + 1)
    (show _ = some 1 by decide +kernel)
  have hf := h _ hat 35 7 e hends he
  rw [hcount, hone] at hf
  cases hf

end Coordinator

end ZkRuntime
