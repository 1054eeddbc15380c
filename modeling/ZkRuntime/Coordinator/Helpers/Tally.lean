import ZkRuntime.Coordinator.Helpers.Pass
/-!
# Counting failed sessions

`failureCount` counts on a run, without the schedule, the recovery sessions
of a job that executed it and failed, one after the other, since its record
was last replaced by others. Where a failed `Save` leaves the store
unchanged the schedule counts the same for every job that is `Recovering`.
-/

namespace ZkRuntime

namespace Coordinator

variable {isPrint : ℕ → Bool}

/-! ## The count -/

/-- The loop's own session takes the step: its record, and its number. -/
def Scheduler.own (S : Scheduler) : SchedulerAction → Option (JobRecord × SessionID)
  | .process (.session sid _) =>
    match S.loop.place with
    | .running current i => if i = sid then some (current, sid) else none
    | _ => none
  | _ => none

/-- A recovery session that executed its job ends: the job, and whether the
session failed. -/
def Scheduler.finishes (S : Scheduler) (a : SchedulerAction) : Option (JobID × Bool) :=
  (S.own a).bind fun (current, sid) =>
    (Scheduler.returns S.core sid).bind fun (result, failed) =>
      if result.executed then some (current.jobID, failed) else none

/-- The generation and the specification a job's record is of. -/
def provenance (s : State) (j : JobID) : Option (AttemptID × JobSpec) :=
  (s.store.load j).map fun r => (r.attemptID, jobSpecFromRecord r)

/-- The record of `j` is replaced by one of another generation or
specification, and not by a recovery session of `j`. -/
def Scheduler.replaces (S : Scheduler) (a : SchedulerAction) (S' : Scheduler) (j : JobID) : Bool :=
  (S.own a).all (fun (current, _) => current.jobID ≠ j) &&
    provenance S'.core j ≠ provenance S.core j

/-- The count of `j` behind a step, from the one before it. -/
def Scheduler.tally (S : Scheduler) (a : SchedulerAction) (S' : Scheduler) (j : JobID) (n : ℕ) : ℕ :=
  if S.replaces a S' j then 0
  else
    match S.finishes a with
    | some (i, failed) => if i = j then (if failed then n + 1 else 0) else n
    | none => n

/-- **The consecutive executed-and-failed recovery sessions of a job**, since
its record was last replaced by others. -/
def failureCount (r : (scheduler isPrint).Run) (j : JobID) : ℕ → ℕ
  | 0 => 0
  | n + 1 => (r.state n).tally (r.act n) (r.state (n + 1)) j (failureCount r j n)

variable {S S' : Scheduler} {L : Loop} {act : SchedulerAction} {j : JobID} {n : ℕ}

theorem own_eq_some {current : JobRecord} {sid : SessionID} :
    S.own act = some (current, sid) ↔
      S.loop.place = .running current sid ∧ ∃ c, act = .process (.session sid c) := by
  constructor
  · intro h
    unfold Scheduler.own at h
    split at h
    · split at h
      · rename_i hp
        split at h
        · rename_i hi
          cases h
          exact ⟨hi ▸ hp, _, rfl⟩
        · cases h
      · cases h
    · cases h
  · rintro ⟨hp, c, rfl⟩
    simp [Scheduler.own, hp]

theorem returns_eq_some {s : State} {sid : SessionID} {result : RecoveryExecution} {failed : Bool}
    (h : Scheduler.returns s sid = some (result, failed)) :
    ∃ x out, s.sessions sid = some x ∧ x.pc = .release out ∧ x.result = result ∧
      failed = !out.isOk := by
  unfold Scheduler.returns at h
  split at h
  · rename_i x hx
    split at h
    · rename_i out hpc
      cases h
      exact ⟨x, out, hx, hpc, rfl, rfl⟩
    · cases h
  · cases h

/-- **An executed session ends** with its release. -/
theorem finishes_eq_some {failed : Bool} (h : S.finishes act = some (j, failed)) :
    ∃ current sid c x out, S.loop.place = .running current sid ∧
      act = .process (.session sid c) ∧ S.core.sessions sid = some x ∧ x.pc = .release out ∧
      x.result.executed = true ∧ current.jobID = j ∧ failed = !out.isOk := by
  unfold Scheduler.finishes at h
  obtain ⟨⟨current, sid⟩, hown, h⟩ := Option.bind_eq_some_iff.1 h
  obtain ⟨⟨result, failed'⟩, hret, h⟩ := Option.bind_eq_some_iff.1 h
  obtain ⟨hp, c, ha⟩ := own_eq_some.1 hown
  obtain ⟨x, out, hx, hpc, rfl, rfl⟩ := returns_eq_some hret
  dsimp only at h
  split at h
  · rename_i hex
    cases h
    exact ⟨current, sid, c, x, out, hp, ha, hx, hpc, hex, rfl, rfl⟩
  · cases h

theorem finishes_of_release {current : JobRecord} {sid : SessionID} {c : Choice} {x : Session}
    {out : Outcome} (hp : S.loop.place = .running current sid)
    (hx : S.core.sessions sid = some x) (hpc : x.pc = .release out) :
    S.finishes (.process (.session sid c)) =
      if x.result.executed then some (current.jobID, !out.isOk) else none := by
  simp [Scheduler.finishes, own_eq_some.2 ⟨hp, c, rfl⟩, Scheduler.returns, hx, hpc]

/-- A step that leaves the record and ends no session of the job. -/
theorem tally_eq (hf : ∀ failed, S.finishes act ≠ some (j, failed))
    (hrow : S'.core.store.load j = S.core.store.load j ∨
      ∃ current sid, S.own act = some (current, sid) ∧ current.jobID = j) :
    S.tally act S' j n = n := by
  have hrep : S.replaces act S' j = false := by
    rcases hrow with hrow | ⟨current, sid, hown, rfl⟩
    · simp [Scheduler.replaces, provenance, hrow]
    · simp [Scheduler.replaces, hown]
  unfold Scheduler.tally
  rw [hrep]
  simp only [Bool.false_eq_true, if_false]
  split
  · rename_i i failed hfin
    rw [if_neg]
    rintro rfl
    exact hf failed hfin
  · rfl

/-- A step that no session takes, and that leaves the store. -/
theorem tally_of_store (hown : S.own act = none) (hstore : S'.core.store = S.core.store) :
    S.tally act S' j n = n :=
  tally_eq (by simp [Scheduler.finishes, hown]) (.inl (by rw [hstore]))

/-- A session of the job ends that executed it. -/
theorem tally_finishes {current : JobRecord} {sid : SessionID} {failed : Bool}
    (hown : S.own act = some (current, sid))
    (hf : S.finishes act = some (current.jobID, failed)) :
    S.tally act S' current.jobID n = if failed then n + 1 else 0 := by
  have hrep : S.replaces act S' current.jobID = false := by simp [Scheduler.replaces, hown]
  unfold Scheduler.tally
  rw [hrep, hf]
  simp

/-! ## What the schedule counts -/

/-- The failures of a job's entry, with the one that is being counted. -/
def Loop.pending (L : Loop) (j : JobID) : UInt32 :=
  match L.place with
  | .returned current result failed | .completed current result failed =>
    if current.jobID = j ∧ result.executed = true ∧ failed = true then
      incrementRecoveryFailures (L.schedule.failures j)
    else L.schedule.failures j
  | .failure i e => if i = j then e.failures else L.schedule.failures j
  | _ => L.schedule.failures j

/-- `math.MaxUint32`, where the count saturates. -/
def maxFailures : ℕ := 4294967295

/-- **The schedule counts what `count` counts**: for the recovering jobs, and
for the job in hand, unless its session has found it not to be one. -/
structure Tallied (S : Scheduler) (count : JobID → ℕ) : Prop where
  rows : ∀ {j row}, RecoveringRow S.core j row →
    (S.loop.pending j).toNat = min (count j) maxFailures
  hand : ∀ {current sid}, S.loop.place = .running current sid →
    (S.loop.pending current.jobID).toNat = min (count current.jobID) maxFailures ∨
      (∀ row, ¬ RecoveringRow S.core current.jobID row) ∧
        ∃ x, S.core.sessions sid = some x ∧ (x.pc = .reload ∨ x.pc.over = true)

/-- `completed` counts one failure more. -/
theorem failures_counted {current : JobRecord} {result : RecoveryExecution} {failed : Bool}
    {s : State} {q : RecoverySchedule} (h : Reported isPrint s q current result failed) :
    (counted q current.jobID result).failures =
      incrementRecoveryFailures (q.failures current.jobID) := by
  unfold counted RecoverySchedule.failures
  dsimp only
  cases he : q.entries.lookup current.jobID with
  | none =>
    have hz : q.entry current.jobID = .zero := by simp [RecoverySchedule.entry, he]
    rw [hz]
    split <;> rfl
  | some e =>
    have hz : q.entry current.jobID = e := by simp [RecoverySchedule.entry, he]
    have hm := (h.entry e he).specHash.trans h.hash.symm
    rw [hz]
    simp [hm]

/-- A listing keeps the entry of a recovering job: it is of the record that
is listed. -/
theorem Known.lookup_listed {rows : List JobRecord} {row : JobRecord} {e : RetryEntry}
    {q : RecoverySchedule} (h : Known isPrint S) (hj : S.loop.place.job ≠ some j)
    (hperm : rows.Perm (S.core.store.listByState .recovering)) (hrow : RecoveringRow S.core j row)
    (hq : q.entries = S.loop.schedule.entries) (he : S.loop.schedule.entries.lookup j = some e) :
    (q.reconcile isPrint rows).entries.lookup j = some e := by
  refine (RecoverySchedule.lookup_reconcile rows).2 ⟨by rw [hq]; exact he, fun r hr hid => ?_, ?_⟩
  · have hload := (Store.mem_listByState.1 (hperm.mem_iff.1 hr)).1
    rw [hid] at hload
    obtain rfl : row = r := Option.some.inj (hrow.1.symm.trans hload)
    exact h.fits he hrow hj
  · have hid : row.jobID = j := Store.jobID_of_load hrow.1
    subst hid
    exact List.mem_map_of_mem (hperm.mem_iff.2 (Store.mem_listByState.2 hrow))

/-- **A step of the loop moves no count of a recovering job.** -/
theorem Known.pending_round {m : Sampler} {c : LoopChoice} {row : JobRecord}
    (h : Known isPrint S) (hr : Rounds isPrint S.core S.loop m c L) (hp : L.place ≠ .stopped)
    (hrow : RecoveringRow S.core j row) : L.pending j = S.loop.pending j := by
  have hwork := h.working
  -- The entry that goes is not of a recovering job.
  have hdelete : ∀ {i}, (∀ row, ¬ RecoveringRow S.core i row) →
      (S.loop.schedule.delete i).failures j = S.loop.schedule.failures j := fun hi =>
    RecoverySchedule.failures_congr (RecoverySchedule.lookup_delete_of_ne fun heq =>
      hi row (heq ▸ hrow))
  cases hr with
  | stopped _ _ _ hstop => exact absurd hstop hp
  | started h' => simp [Loop.pending, h']
  | put_off h' => simp [Loop.pending, Loop.goto, h']
  | due h' => simp [Loop.pending, Loop.goto, h']
  | began h' => simp [Loop.pending, h']
  | list_fails h' => simp [Loop.pending, Loop.goto, h']
  | @listed rows h' hperm =>
    simp only [Loop.pending, h']
    refine RecoverySchedule.failures_congr (Option.ext fun e => ⟨fun he => ?_, fun he => ?_⟩)
    · exact ((RecoverySchedule.lookup_reconcile rows).1 he).1
    · exact h.lookup_listed (by rw [h']; simp [Place.job]) hperm hrow rfl he
  | scan_failed h' =>
    simp only [Loop.pending, h']
    exact RecoverySchedule.failures_congr rfl
  | passed h' => simp [Loop.pending, Loop.goto, h']
  | skipped h' => simp [Loop.pending, h']
  | cooling h' => simp [Loop.pending, h']
  | taken h' => simp [Loop.pending, h']
  | load_fails h' => simp [Loop.pending, Loop.goto, h']
  | load_gone h' hnone => simpa [Loop.pending, h'] using hdelete hnone
  | @load_stale snapshot current h' hr hne =>
    rw [h'] at hwork
    exact absurd (congrArg JobRecord.attemptID (hwork.1 current hr)) hne
  | loaded h' => simp [Loop.pending, Loop.goto, h']
  | @rechecked r failed h' =>
    rw [h'] at hwork
    simp only [Loop.pending, h']
    by_cases hj : j = r.jobID
    · subst hj
      obtain ⟨e, he, -, -, hsame⟩ := RecoverySchedule.lookup_recheck isPrint S.loop.schedule r
        S.core.now m
      exact (RecoverySchedule.failures_of_lookup he).trans (hsame hwork.2)
    · exact RecoverySchedule.failures_congr (RecoverySchedule.lookup_recheck_of_ne hj)
  | returned h' => simp [Loop.pending, Loop.goto, h']
  | returned_ended h' => simp [Loop.pending, Loop.goto, h']
  | @completed_closed current result failed h' hclosed =>
    rw [h'] at hwork
    have hnone : ∀ row, ¬ RecoveringRow S.core current.jobID row := fun row hr => by
      obtain ⟨-, -, hterm, hrep⟩ := hwork.row row hr
      simp [hterm, hrep] at hclosed
    have hj : current.jobID ≠ j := fun heq => hnone row (heq ▸ hrow)
    simpa [Loop.pending, h', hj] using hdelete hnone
  | @completed_gone current result failed h' hnone =>
    have hj : current.jobID ≠ j := fun heq => hnone row (heq ▸ hrow)
    simpa [Loop.pending, h', hj] using hdelete hnone
  | @completed_replaced current r result failed h' hr hne =>
    rw [h'] at hwork
    obtain ⟨hgen, hhash, -⟩ := hwork.row r hr
    rcases hne with hne | hne
    · exact absurd hgen hne
    · exact absurd (hhash.trans hwork.hash.symm) hne
  | completed_recheck h' hterm hnot =>
    simp only [Loop.pending, Loop.goto, h']
    rw [if_neg fun hc => hnot hc.2]
  | @completed_failure _ current result h' hex =>
    rw [h'] at hwork
    simp only [Loop.pending, Loop.goto, h', hex]
    by_cases hj : current.jobID = j
    · subst hj
      simpa using failures_counted hwork
    · simp [hj]
  | @failed i e h' =>
    simp only [Loop.pending, h']
    by_cases hj : i = j
    · subst hj
      rw [RecoverySchedule.failures_of_lookup RecoverySchedule.lookup_set_self, if_pos rfl]
    · rw [if_neg hj]
      exact RecoverySchedule.failures_congr (RecoverySchedule.lookup_set_of_ne (Ne.symm hj))
  | settled h' => simp [Loop.pending, Loop.goto, h']
  | armed h' => simp [Loop.pending, Loop.goto, h']
  | notified h' => simp [Loop.pending, h']
  | fired h' => simp [Loop.pending, Loop.goto, h']

/-! ## Steps of the process -/

section Process

variable {s s' : State} {a : Action} {sid : SessionID} {x : Session}

/-- Others leave the record of a session's job. -/
theorem row_of_other (hs : Steps isPrint s a s') (hrun : a.running = true) (ht : Tracked s)
    (hx : s.sessions sid = some x) (ha : ∀ c, a ≠ .session sid c) :
    s'.store.load x.jobID = s.store.load x.jobID := by
  cases hs with
  | marked => simp [Action.running] at hrun
  | mark_fails => simp [Action.running] at hrun
  | @session i c y m hy hmu hm =>
    rcases load_apply (s := s) (e := m.effect) (j := y.jobID) (k := x.jobID) with h | ⟨r, he, hj, -⟩
    · exact h
    · have hw := ((moves_of_move hm).writes (ht.tracks hy) he).jobID_eq
      obtain rfl := ht.owned.unique hy hx (hw.symm.trans hj.symm)
      exact absurd rfl (ha c)
  | _ => rfl

/-- A recovery of a job that is not `Recovering` is over with its first
`Load`. -/
theorem over_of_reload {c : Choice} (hs : Steps isPrint s (.session sid c) s') (ht : Tracked s)
    (hx : s.sessions sid = some x) (hpc : x.pc = .reload)
    (hnone : ∀ row, ¬ RecoveringRow s x.jobID row) :
    s'.store = s.store ∧ ∃ x', s'.sessions sid = some x' ∧ x'.pc.over = true := by
  rcases session_after ht hs hx with ⟨c', m, -, htook⟩ | ⟨-, -, -, hne⟩ | hoff
  · have hmoves := htook.moves
    have hnext : s'.sessions sid = m.next := by rw [htook.eq, sessions_advance_self]
    have hstore : s'.store = (s.apply x.jobID m.effect).store := by rw [htook.eq]; rfl
    rw [hnext, hstore]
    generalize m.effect = e at hmoves ⊢
    generalize m.next = next at hmoves ⊢
    cases hmoves with
    | reload_fails => exact ⟨rfl, _, rfl, rfl⟩
    | reload_stale => exact ⟨rfl, _, rfl, rfl⟩
    | reload_current _ hr hst => exact absurd ⟨hr, hst⟩ (hnone _)
    | _ => simp_all [Pc.readsContext, Pc.attempt]
  · simp [Action.session?] at hne
  · cases hoff

theorem Pc.over_iff {pc : Pc} : pc.over = true ↔ ∃ out, pc = .release out := by
  cases pc <;> simp [Pc.over]

end Process

variable {count : JobID → ℕ}

/-- **A step of the process that leaves the loop where it was.** -/
theorem Tallied.process {a : Action} {s' : State} (h : Tallied S count) (ha : Attended isPrint S)
    (hs : Steps isPrint S.core a s') (hrun : a.running = true)
    (hne : ∀ current sid c x out, S.loop.place = .running current sid →
      a = .session sid c → S.core.sessions sid = some x → x.pc ≠ .release out) :
    Tallied ⟨s', S.loop⟩ fun j => S.tally (.process a) ⟨s', S.loop⟩ j (count j) := by
  have hfin : ∀ j failed, S.finishes (.process a) ≠ some (j, failed) := by
    intro j failed hf
    obtain ⟨current, sid, c, x, out, hp, hact, hx, hpc, -⟩ := finishes_eq_some hf
    cases hact
    exact hne _ _ _ _ _ hp rfl hx hpc
  refine ⟨fun {j row} hrow => ?_, fun {current sid} hp => ?_⟩
  · rcases recovering_before hs hrun ha.tracked (fun hx => (ha.knows hx).sided) hrow with
      hold | ⟨sid, x, c, rfl, hx, hj, hsrc⟩
    · rw [tally_eq (hfin j) (.inl (hrow.1.trans hold.1.symm))]
      exact h.rows hold
    · cases hx' : x.source with
      | submit req => rw [hx'] at hsrc; cases hsrc
      | recovery current =>
        have hp := ha.awaited hx hx'
        have hid : x.jobID = current.jobID := ((ha.knows hx).retrying current hx').jobID
        rw [hid] at hj
        subst hj
        rw [tally_eq (hfin _) (.inr ⟨current, sid, own_eq_some.2 ⟨hp, c, rfl⟩, rfl⟩)]
        rcases h.hand hp with hcount | ⟨hnone, y, hy, hpc⟩
        · exact hcount
        · obtain rfl : x = y := Option.some.inj (hx.symm.trans hy)
          rcases hpc with hpc | hpc
          · obtain ⟨hstore, -⟩ := over_of_reload hs ha.tracked hx hpc (by rw [hid]; exact hnone)
            exact absurd ⟨hstore ▸ hrow.1, hrow.2⟩ (hnone row)
          · obtain ⟨out, hpc⟩ := Pc.over_iff.1 hpc
            exact absurd hpc (hne _ _ _ _ _ hp rfl hx)
  · have hp' : S.loop.place = .running current sid := hp
    obtain ⟨x, hx, hsrc⟩ := ha.runs hp'
    have hid : x.jobID = current.jobID := ((ha.knows hx).retrying current hsrc).jobID
    by_cases hact : ∃ c, a = .session sid c
    · obtain ⟨c, rfl⟩ := hact
      rw [tally_eq (hfin _) (.inr ⟨current, sid, own_eq_some.2 ⟨hp', c, rfl⟩, rfl⟩)]
      refine (h.hand hp').imp_right fun ⟨hnone, y, hy, hpc⟩ => ?_
      obtain rfl : x = y := Option.some.inj (hx.symm.trans hy)
      rcases hpc with hpc | hpc
      · obtain ⟨hstore, x', hx', hover⟩ := over_of_reload hs ha.tracked hx hpc (by rw [hid]; exact hnone)
        exact ⟨fun row hr => hnone row ⟨hstore ▸ hr.1, hr.2⟩, x', hx', .inr hover⟩
      · obtain ⟨out, hpc⟩ := Pc.over_iff.1 hpc
        exact absurd hpc (hne _ _ _ _ _ hp' rfl hx)
    · have hact' : ∀ c, a ≠ .session sid c := fun c hc => hact ⟨c, hc⟩
      have hrow := row_of_other hs hrun ha.tracked hx hact'
      rw [hid] at hrow
      rw [tally_eq (hfin _) (.inl hrow)]
      refine (h.hand hp').imp_right fun ⟨hnone, y, hy, hpc⟩ => ?_
      obtain rfl : x = y := Option.some.inj (hx.symm.trans hy)
      rcases session_after ha.tracked hs hx with ⟨c, m, hc, -⟩ | ⟨x', hx', hidle, -⟩ | hoff
      · exact absurd hc (hact' c)
      · exact ⟨fun row hr => hnone row ⟨hrow ▸ hr.1, hr.2⟩, x', hx', by rw [hidle.pc]; exact hpc⟩
      · rw [hrun] at hoff
        cases hoff

/-- **The session the loop waited for has released its job.** -/
theorem Tallied.returned {current : JobRecord} {sid : SessionID} {c : Choice} {x : Session}
    {out : Outcome} {s' : State} (h : Tallied S count) (hp : S.loop.place = .running current sid)
    (hx : S.core.sessions sid = some x) (hr : Retrying isPrint S.core current x)
    (hpc : x.pc = .release out) (hstore : s'.store = S.core.store) (S' : Scheduler)
    (hS' : S' = ⟨s', S.loop.goto (.returned current x.result (!out.isOk))⟩) :
    Tallied S' fun j => S.tally (.process (.session sid c)) S' j (count j) := by
  have hown := own_eq_some.2 ⟨hp, c, rfl⟩
  have hfin := finishes_of_release (c := c) hp hx hpc
  have hpend : ∀ j, S.loop.pending j = S.loop.schedule.failures j := fun j => by
    simp [Loop.pending, hp]
  refine ⟨fun {j row} hrow => ?_, fun hp' => by subst hS'; cases hp'⟩
  have hrow' : RecoveringRow S.core j row := by
    subst hS'
    exact ⟨hstore ▸ hrow.1, hrow.2⟩
  have hcount := h.rows hrow'
  rw [hpend] at hcount
  have hpend' : S'.loop.pending j = if current.jobID = j ∧ x.result.executed = true ∧
      (!out.isOk) = true then incrementRecoveryFailures (S.loop.schedule.failures j)
      else S.loop.schedule.failures j := by
    subst hS'
    rfl
  rw [hpend']
  by_cases hj : current.jobID = j
  · subst hj
    by_cases hex : x.result.executed = true
    · rw [hex, if_pos rfl] at hfin
      cases hok : out.isOk with
      | true =>
        -- A success is a result, and leaves no `Recovering` row.
        have hterm := hr.ok out hpc hok hex
        rw [(hr.leaves (by rw [hpc]; rfl) row hrow').2.2.1] at hterm
        cases hterm
      | false =>
        rw [tally_finishes hown hfin, hok]
        simp only [hex, Bool.not_false, and_self, if_true]
        rw [toNat_incrementRecoveryFailures, hcount]
        unfold maxFailures
        omega
    · rw [if_neg hex] at hfin
      rw [tally_eq (by simp [hfin]) (.inr ⟨current, sid, hown, rfl⟩), if_neg fun hc => hex hc.2.1]
      exact hcount
  · have hload : S'.core.store.load j = S.core.store.load j := by
      subst hS'
      rw [← hstore]
    rw [tally_eq (fun failed hf => ?_) (.inl hload), if_neg fun hc => hj hc.1]
    · exact hcount
    · rw [hfin] at hf
      split at hf
      · cases hf
        exact hj rfl
      · cases hf

/-! ## Every step -/

theorem Tallied.of_store (hown : S.own act = none) (hstore : S'.core.store = S.core.store)
    (h : Tallied S' count) : Tallied S' fun j => S.tally act S' j (count j) := by
  simpa only [tally_of_store hown hstore] using h

theorem store_of_cancel {s s' : State} {sid : SessionID} {e : ContextError}
    (hs : Steps isPrint s (.cancel sid e) s') : s'.store = s.store := by
  generalize ha : Action.cancel sid e = a at hs
  cases hs with
  | stopped hs => subst ha; simp [Action.stops] at hs
  | _ => first | rfl | cases ha

/-- **Every step of the scheduler keeps the count**, unless the loop stops. -/
theorem Tallied.step (h : Tallied S count) (hk : Known isPrint S) (ha : Attended isPrint S)
    (hs : Schedules isPrint S act S') (hp : S'.loop.place ≠ .stopped) :
    Tallied S' fun j => S.tally act S' j (count j) := by
  cases hs with
  | @process a core hserves hs =>
    have hrun := Action.running_of_serves hserves
    rcases awaited_cases (S := S) a with
      ⟨heq, hne⟩ | ⟨current, sid, c, x, out, hpl, rfl, hx, hpc, heq⟩
    · rw [heq]
      exact h.process ha hs hrun hne
    · obtain ⟨x', hx', hsrc⟩ := ha.runs hpl
      obtain rfl : x = x' := Option.some.inj (hx.symm.trans hx')
      exact h.returned hpl hx ((ha.knows hx).retrying current hsrc) hpc
        (store_of_release hs hx hpc) _ (by rw [heq])
  | notified => exact Tallied.of_store rfl rfl ⟨h.rows, h.hand⟩
  | shut => exact Tallied.of_store rfl rfl ⟨h.rows, h.hand⟩
  | shut_running hpl hs =>
    have hstore := store_of_cancel hs
    have hback : ∀ {j row}, RecoveringRow _ j row → RecoveringRow S.core j row := fun hr =>
      ⟨hstore ▸ hr.1, hr.2⟩
    refine Tallied.of_store rfl hstore ⟨fun hrow => h.rows (hback hrow), fun hpl' => ?_⟩
    refine (h.hand hpl').imp_right fun ⟨hnone, x, hx, hpc⟩ => ⟨fun row hr => hnone row (hback hr), ?_⟩
    rcases session_after ha.tracked hs hx with ⟨c, m, hc, -⟩ | ⟨x', hx', hidle, -⟩ | hoff
    · cases hc
    · exact ⟨x', hx', by rw [hidle.pc]; exact hpc⟩
    · cases hoff
  | @conflicted m current hpl =>
    have hpend : ∀ j, (S.loop.goto (.returned current (Scheduler.conflict isPrint current)
        true)).pending j = S.loop.pending j := fun j => by
      simp [Loop.pending, Loop.goto, hpl, Scheduler.conflict]
    refine Tallied.of_store rfl rfl ⟨fun hrow => ?_, fun hpl' => by cases hpl'⟩
    rw [hpend]
    exact h.rows hrow
  | @claimed m current hpl hctx hs =>
    have hpend : ∀ j, (S.loop.goto (.running current S.core.nextSession)).pending j =
        S.loop.pending j := fun j => by simp [Loop.pending, Loop.goto, hpl]
    refine Tallied.of_store rfl rfl ⟨fun hrow => ?_, fun hpl' => ?_⟩
    · rw [hpend]
      exact h.rows hrow
    · cases hpl'
      rw [hpend]
      by_cases hrow : ∃ row, RecoveringRow S.core current.jobID row
      · obtain ⟨row, hrow⟩ := hrow
        exact .inl (h.rows hrow)
      · exact .inr ⟨fun row hr => hrow ⟨row, hr⟩, _, Function.update_self _ _ _, .inl rfl⟩
  | @round c m L hpl hr =>
    refine Tallied.of_store rfl rfl ⟨fun {j row} hrow => ?_, fun hpl' => ?_⟩
    · rw [show L.pending j = S.loop.pending j from hk.pending_round hr hp hrow]
      exact h.rows hrow
    · exact absurd hpl' (hr.not_running _ _)

/-- **In every state of a run** the schedule counts the failed sessions of
the recovering jobs, until the loop stops. -/
theorem tallied (r : (scheduler isPrint).Run) (hat : AtomicRun r) (n : ℕ) :
    (r.state n).loop.place ≠ .stopped → Tallied (r.state n) fun j => failureCount r j n := by
  induction n with
  | zero =>
    intro _
    obtain ⟨-, hloop⟩ : _ ∧ (r.state 0).loop = .initial _ := r.start
    rw [show (r.state 0) = ⟨(r.state 0).core, (r.state 0).loop⟩ from rfl, hloop]
    refine ⟨fun {j row} _ => ?_, fun hp => by cases hp⟩
    have hnone : AList.lookup j newRecoverySchedule.entries = none := AList.lookup_empty j
    show (newRecoverySchedule.failures j).toNat = _
    rw [RecoverySchedule.failures_of_none hnone]
    rfl
  | succ n ih =>
    intro hp
    have hs := schedules_of_step (r.next n)
    have halive := hs.alive hp
    obtain ⟨ha, hk⟩ := attended_known r hat n
    exact (ih halive).step (hk halive) ha hs hp

end Coordinator

end ZkRuntime
