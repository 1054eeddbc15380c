import ZkRuntime.Coordinator.Helpers.Attending
/-!
# What the loop knows in a pass

Only the loop's own sessions make a job `Recovering`, so what a pass has
listed stays true of the jobs that still are, and the entry of such a job
is of the record the store has, but for the job in hand. `Known` says so
for the whole loop, place by place.
-/

namespace ZkRuntime

namespace Coordinator

variable {isPrint : ℕ → Bool}

/-- The job the loop has in hand. -/
def Place.job : Place → Option JobID
  | .load r | .recheck r _ | .claim r | .running r _ | .returned r _ _ | .completed r _ _ =>
    some r.jobID
  | .failure j _ => some j
  | _ => none

/-- The loop is in a pass, past the listing. -/
def Place.inPass : Place → Bool
  | .next | .load _ | .recheck .. | .claim _ | .running .. | .returned .. | .completed ..
  | .failure .. | .settled _ => true
  | _ => false

/-- The job of the record is `Recovering` with it, if it is. -/
def RowOf (s : State) (r : JobRecord) : Prop := ∀ row, RecoveringRow s r.jobID row → row = r

/-- The entry of the record's job is of the record, if there is one. -/
def EntryOf (isPrint : ℕ → Bool) (q : RecoverySchedule) (r : JobRecord) : Prop :=
  ∀ e, q.entries.lookup r.jobID = some e → e.Matches isPrint r

/-- What `retryRecoveringJobResult` returned, against the store and the
schedule. -/
structure Reported (isPrint : ℕ → Bool) (s : State) (q : RecoverySchedule) (current : JobRecord)
    (result : RecoveryExecution) (failed : Bool) : Prop where
  row : ∀ row, RecoveringRow s current.jobID row → row.attemptID = result.generation ∧
    recoverySpecHash isPrint row = recoverySpecHash isPrint current ∧
    result.terminal = false ∧ result.repairFailed = false
  entry : EntryOf isPrint q current
  hash : result.specHash = recoverySpecHash isPrint current
  skipped : result.executed = false → result.generation = current.attemptID
  ok : result.executed = true → failed = false → result.terminal = true

/-- **What the loop knows of the job in hand.** -/
def Working (isPrint : ℕ → Bool) (s : State) (q : RecoverySchedule) : Place → Prop
  | .load r | .claim r => RowOf s r ∧ EntryOf isPrint q r
  | .running r _ => EntryOf isPrint q r
  | .recheck r _ =>
    (∀ row, RecoveringRow s r.jobID row → row.attemptID = r.attemptID ∧
      recoverySpecHash isPrint row = recoverySpecHash isPrint r) ∧ EntryOf isPrint q r
  | .returned r result failed | .completed r result failed => Reported isPrint s q r result failed
  | .failure j e => ∀ row, RecoveringRow s j row → e.Matches isPrint row
  | _ => True

/-- **What the loop knows.** -/
structure Known (isPrint : ℕ → Bool) (S : Scheduler) : Prop where
  fits : ∀ {j e row}, S.loop.schedule.entries.lookup j = some e → RecoveringRow S.core j row →
    S.loop.place.job ≠ some j → e.Matches isPrint row
  nodup : S.loop.place.inPass = true → (S.loop.rows.map JobRecord.jobID).Nodup
  listed : S.loop.place.inPass = true → ∀ r ∈ S.loop.rows,
    r.jobID ∉ S.loop.seen ∧ RowOf S.core r ∧ EntryOf isPrint S.loop.schedule r
  seen : ∀ {j}, S.loop.place.job = some j → j ∈ S.loop.seen
  working : Working isPrint S.core S.loop.schedule S.loop.place

/-! ## Steps of the process -/

/-- `Recovering` rows go, or come by the session the loop waits for. -/
def Waning (S : Scheduler) (s' : State) : Prop :=
  ∀ j row, RecoveringRow s' j row → RecoveringRow S.core j row ∨
    ∃ current sid, S.loop.place = .running current sid ∧ current.jobID = j

variable {S : Scheduler} {s' : State} {a : Action}

theorem waning_of_store (h : s'.store = S.core.store) : Waning S s' :=
  fun _ _ hr => .inl ⟨h ▸ hr.1, hr.2⟩

theorem Attended.waning (h : Attended isPrint S) (hs : Steps isPrint S.core a s')
    (hrun : a.running = true) : Waning S s' := by
  intro j row hr
  rcases recovering_before hs hrun h.tracked (fun hx => (h.knows hx).sided) hr with
    hold | ⟨sid, x, c, -, hx, hj, hsrc⟩
  · exact .inl hold
  · cases hx' : x.source with
    | submit req => rw [hx'] at hsrc; cases hsrc
    | recovery current =>
      refine .inr ⟨current, sid, h.awaited hx hx', ?_⟩
      rw [← hj, ((h.knows hx).retrying current hx').jobID]

/-- Away from the job in hand `Recovering` rows only go. -/
theorem Waning.of_job {j : JobID} {row : JobRecord} (hw : Waning S s')
    (hr : RecoveringRow s' j row) (hj : S.loop.place.job ≠ some j) : RecoveringRow S.core j row := by
  rcases hw j row hr with hold | ⟨current, sid, hp, rfl⟩
  · exact hold
  · exact absurd (by rw [hp]; rfl) hj

theorem Waning.of_place {j : JobID} {row : JobRecord} (hw : Waning S s')
    (hr : RecoveringRow s' j row) (hp : ∀ current sid, S.loop.place ≠ .running current sid) :
    RecoveringRow S.core j row := by
  rcases hw j row hr with hold | ⟨current, sid, hp', -⟩
  · exact hold
  · exact absurd hp' (hp current sid)

theorem RowOf.mono {s : State} {r : JobRecord} (h : RowOf s r)
    (hback : ∀ row, RecoveringRow s' r.jobID row → RecoveringRow s r.jobID row) : RowOf s' r :=
  fun row hr => h row (hback row hr)

/-- What the loop knows of the rows to come, as `Recovering` rows go. -/
theorem Known.listed_of_waning (h : Known isPrint S) (hw : Waning S s')
    (hin : S.loop.place.inPass = true) : ∀ r ∈ S.loop.rows,
      r.jobID ∉ S.loop.seen ∧ RowOf s' r ∧ EntryOf isPrint S.loop.schedule r := by
  intro r hr
  obtain ⟨hns, hrow, hent⟩ := h.listed hin r hr
  refine ⟨hns, hrow.mono fun row hrr => hw.of_job hrr fun hj => hns (h.seen hj), hent⟩

/-- **A step of the process, the loop where it was.** -/
theorem Known.process (h : Known isPrint S) (hw : Waning S s') : Known isPrint ⟨s', S.loop⟩ := by
  refine ⟨fun he hr hj => h.fits he (hw.of_job hr hj) hj, h.nodup, h.listed_of_waning hw, h.seen, ?_⟩
  have hwork := h.working
  show Working isPrint s' S.loop.schedule S.loop.place
  cases hp : S.loop.place <;> rw [hp] at hwork <;> try exact hwork
  case load r =>
    exact ⟨hwork.1.mono fun row hr => hw.of_place hr (by simp [hp]), hwork.2⟩
  case claim r =>
    exact ⟨hwork.1.mono fun row hr => hw.of_place hr (by simp [hp]), hwork.2⟩
  case recheck r failed =>
    exact ⟨fun row hr => hwork.1 row (hw.of_place hr (by simp [hp])), hwork.2⟩
  case returned r result failed =>
    exact ⟨fun row hr => hwork.row row (hw.of_place hr (by simp [hp])), hwork.entry, hwork.hash,
      hwork.skipped, hwork.ok⟩
  case completed r result failed =>
    exact ⟨fun row hr => hwork.row row (hw.of_place hr (by simp [hp])), hwork.entry, hwork.hash,
      hwork.skipped, hwork.ok⟩
  case failure j e => exact fun row hr => hwork row (hw.of_place hr (by simp [hp]))

/-- A release leaves the store. -/
theorem store_of_release {s : State} {sid : SessionID} {c : Choice} {x : Session} {out : Outcome}
    (hs : Steps isPrint s (.session sid c) s') (hx : s.sessions sid = some x)
    (hpc : x.pc = .release out) : s'.store = s.store := by
  generalize ha : Action.session sid c = a at hs
  cases hs with
  | session hx' hmu hm =>
    cases ha
    rw [hx] at hx'
    cases hx'
    have hmoves := moves_of_move hm
    rename_i m
    have hstore : (s.advance sid x m).store = (s.apply x.jobID m.effect).store := rfl
    rw [hstore]
    generalize m.effect = e at hmoves ⊢
    generalize m.next = next at hmoves
    cases hmoves with
    | released => rfl
    | _ => simp_all [Pc.readsContext, Pc.attempt]
  | stopped hs => subst ha; simp [Action.stops] at hs
  | _ => first | rfl | (cases ha)

/-- **The session the loop waited for has released its job.** -/
theorem Known.returned {current : JobRecord} {sid : SessionID} {x : Session} {out : Outcome}
    (h : Known isPrint S) (hp : S.loop.place = .running current sid)
    (hr : Retrying isPrint S.core current x) (hpc : x.pc = .release out)
    (hstore : s'.store = S.core.store) :
    Known isPrint ⟨s', S.loop.goto (.returned current x.result (!out.isOk))⟩ := by
  have hw : Waning S s' := waning_of_store hstore
  have hin : S.loop.place.inPass = true := by rw [hp]; rfl
  have hjob : S.loop.place.job = some current.jobID := by rw [hp]; rfl
  have hwork := h.working
  rw [hp] at hwork
  have hback : ∀ {j row}, RecoveringRow s' j row → RecoveringRow S.core j row := fun hr' =>
    ⟨hstore ▸ hr'.1, hr'.2⟩
  refine ⟨fun he hr' hj => h.fits he (hback hr') (by rw [hjob]; exact hj), fun _ => h.nodup hin,
    fun _ => h.listed_of_waning hw hin, fun hj => h.seen (hjob.trans hj), ?_⟩
  refine ⟨fun row hr' => hr.leaves (by rw [hpc]; rfl) row (hback hr'), hwork, hr.hash, fun he => ?_,
    fun he hf => hr.ok out hpc (by simpa using hf) he⟩
  exact (hr.unpublished (hr.progress.executed he)).1

/-! ## Steps of the loop -/

variable {L : Loop} {j : JobID}

/-- The loop moves with no job in hand. -/
theorem Known.free (h : Known isPrint S) (hjob : S.loop.place.job = none)
    (hq : L.schedule.entries = S.loop.schedule.entries) (hjob' : L.place.job = none)
    (hin : L.place.inPass = true → S.loop.place.inPass = true ∧ L.rows = S.loop.rows ∧
      L.seen = S.loop.seen) (hwork : Working isPrint S.core L.schedule L.place) :
    Known isPrint ⟨S.core, L⟩ := by
  refine ⟨fun he hr _ => h.fits (hq ▸ he) hr (by simp [hjob]), fun hp => ?_, fun hp r hr => ?_,
    fun hj => ?_, hwork⟩
  · obtain ⟨hp', hrows, -⟩ := hin hp
    show (L.rows.map JobRecord.jobID).Nodup
    rw [hrows]
    exact h.nodup hp'
  · obtain ⟨hp', hrows, hseen⟩ := hin hp
    obtain ⟨h1, h2, h3⟩ := h.listed hp' r (hrows ▸ hr)
    refine ⟨?_, h2, fun e he => h3 e (hq ▸ he)⟩
    show r.jobID ∉ L.seen
    rw [hseen]
    exact h1
  · have hnone : L.place.job = some _ := hj
    rw [hjob'] at hnone
    cases hnone

/-- The loop moves with the job `j` in hand, and touches no other entry. -/
theorem Known.update (h : Known isPrint S) (hjob : S.loop.place.job = some j)
    (hin : S.loop.place.inPass = true)
    (hq : ∀ k, k ≠ j → L.schedule.entries.lookup k = S.loop.schedule.entries.lookup k)
    (hrows : L.rows = S.loop.rows) (hseen : L.seen = S.loop.seen)
    (hjob' : L.place.job = some j ∨ (L.place.job = none ∧
      ∀ e row, L.schedule.entries.lookup j = some e → RecoveringRow S.core j row →
        e.Matches isPrint row))
    (hwork : Working isPrint S.core L.schedule L.place) : Known isPrint ⟨S.core, L⟩ := by
  refine ⟨fun {k e row} he hr hk => ?_, fun _ => ?_, fun _ r hr => ?_, fun {k} hk => ?_, hwork⟩
  · have he' : L.schedule.entries.lookup k = some e := he
    by_cases hkj : k = j
    · subst hkj
      rcases hjob' with hjob' | ⟨-, hfit⟩
      · exact absurd hjob' hk
      · exact hfit e row he' hr
    · rw [hq k hkj] at he'
      exact h.fits he' hr (by rw [hjob]; exact fun heq => hkj (Option.some.inj heq).symm)
  · show (L.rows.map JobRecord.jobID).Nodup
    rw [hrows]
    exact h.nodup hin
  · obtain ⟨h1, h2, h3⟩ := h.listed hin r (hrows ▸ hr)
    refine ⟨?_, h2, fun e he => ?_⟩
    · show r.jobID ∉ L.seen
      rw [hseen]
      exact h1
    · -- The job in hand has been seen, so it is not one to come.
      have hne : r.jobID ≠ j := fun heq => h1 (heq ▸ h.seen hjob)
      have he' : L.schedule.entries.lookup r.jobID = some e := he
      rw [hq _ hne] at he'
      exact h3 e he'
  · show k ∈ L.seen
    rw [hseen]
    have hk' : L.place.job = some k := hk
    rcases hjob' with hjob' | ⟨hnone, -⟩
    · rw [hjob'] at hk'
      cases hk'
      exact h.seen hjob
    · rw [hnone] at hk'
      cases hk'

/-- The next listed record is taken up. -/
theorem Known.take {snapshot : JobRecord} {rows : List JobRecord} (h : Known isPrint S)
    (hp : S.loop.place = .next) (hr : S.loop.rows = snapshot :: rows) {p : Place}
    (hpl : p = .next ∨ p = .load snapshot) :
    Known isPrint ⟨S.core, { S.loop with
      rows := rows, seen := snapshot.jobID :: S.loop.seen, place := p }⟩ := by
  have hin : S.loop.place.inPass = true := by rw [hp]; rfl
  have hnd := h.nodup hin
  rw [hr, List.map_cons, List.nodup_cons] at hnd
  have hl := h.listed hin
  rw [hr] at hl
  refine ⟨fun he hrow _ => h.fits he hrow (by rw [hp]; simp [Place.job]), fun _ => hnd.2,
    fun _ r hmem => ?_, fun {k} hk => ?_, ?_⟩
  · obtain ⟨h1, h2, h3⟩ := hl r (List.mem_cons_of_mem _ hmem)
    refine ⟨fun hs => ?_, h2, h3⟩
    rcases List.mem_cons.1 hs with heq | hs
    · exact hnd.1 (heq ▸ List.mem_map_of_mem hmem)
    · exact h1 hs
  · rcases hpl with rfl | rfl
    · cases hk
    · cases hk
      exact List.mem_cons_self
  · rcases hpl with rfl | rfl
    · trivial
    · exact (hl snapshot List.mem_cons_self).2

/-- **What a listing gives.** -/
theorem Known.list {rows : List JobRecord} (h : Known isPrint S) (hp : S.loop.place = .list)
    (hperm : rows.Perm (S.core.store.listByState .recovering)) :
    Known isPrint ⟨S.core, { S.loop with
      schedule := { S.loop.schedule with scan := .zero }.reconcile isPrint rows
      rows := rows
      seen := []
      place := .next }⟩ := by
  have hnd : ((S.core.store.listByState .recovering).map JobRecord.jobID).Nodup :=
    S.core.store.nodup.sublist (List.filter_sublist.map _)
  refine ⟨fun {j e row} he hr _ => ?_, fun _ => ((hperm.map JobRecord.jobID).nodup_iff).2 hnd,
    fun _ r hr => ⟨by simp, fun row hrow => ?_, fun e he => ?_⟩, (fun hk => by cases hk), trivial⟩
  · exact h.fits ((RecoverySchedule.lookup_reconcile rows).1 he).1 hr (by rw [hp]; simp [Place.job])
  · have hload := (Store.mem_listByState.1 (hperm.mem_iff.1 hr)).1
    exact Option.some.inj (hrow.1.symm.trans hload)
  · exact ((RecoverySchedule.lookup_reconcile rows).1 he).2.1 r hr rfl

/-- The entry `completed` counts a failure in. -/
theorem counted_fits {current : JobRecord} {result : RecoveryExecution} {failed : Bool}
    {s : State} {q : RecoverySchedule} (h : Reported isPrint s q current result failed)
    (row : JobRecord) (hr : RecoveringRow s current.jobID row) :
    (counted q current.jobID result).Matches isPrint row := by
  obtain ⟨hgen, hhash, -⟩ := h.row row hr
  exact ⟨hgen.symm, h.hash.trans hhash.symm⟩

/-- **Every step of the loop keeps what it knows**, unless it stops. -/
theorem Known.round {m : Sampler} {c : LoopChoice} (h : Known isPrint S)
    (hr : Rounds isPrint S.core S.loop m c L) (hp : L.place ≠ .stopped) :
    Known isPrint ⟨S.core, L⟩ := by
  have hwork := h.working
  cases hr with
  | stopped _ _ _ hstop => exact absurd hstop hp
  | started h' => exact h.free (by rw [h']; rfl) rfl rfl (fun hin => by cases hin) trivial
  | put_off h' => exact h.free (by rw [h']; rfl) rfl rfl (fun hin => by cases hin) trivial
  | due h' => exact h.free (by rw [h']; rfl) rfl rfl (fun hin => by cases hin) trivial
  | began h' => exact h.free (by rw [h']; rfl) rfl rfl (fun hin => by cases hin) trivial
  | list_fails h' => exact h.free (by rw [h']; rfl) rfl rfl (fun hin => by cases hin) trivial
  | listed h' hperm => exact h.list h' hperm
  | scan_failed h' => exact h.free (by rw [h']; rfl) rfl rfl (fun hin => by cases hin) trivial
  | passed h' => exact h.free (by rw [h']; rfl) rfl rfl (fun hin => by cases hin) trivial
  | armed h' => exact h.free (by rw [h']; rfl) rfl rfl (fun hin => by cases hin) trivial
  | notified h' => exact h.free (by rw [h']; rfl) rfl rfl (fun hin => by cases hin) trivial
  | fired h' => exact h.free (by rw [h']; rfl) rfl rfl (fun hin => by cases hin) trivial
  | settled h' =>
    exact h.free (by rw [h']; rfl) rfl rfl (fun _ => ⟨by rw [h']; rfl, rfl, rfl⟩) trivial
  | skipped h' hrows hs =>
    have hin : S.loop.place.inPass = true := by rw [h']; rfl
    exact absurd hs (h.listed hin _ (by rw [hrows]; exact List.mem_cons_self)).1
  | cooling h' hrows =>
    have hk := h.take h' hrows (.inl h')
    exact hk
  | taken h' hrows => exact h.take h' hrows (.inr rfl)
  | load_fails h' =>
    rw [h'] at hwork
    refine h.update (by rw [h']; rfl) (by rw [h']; rfl) (fun _ _ => rfl) rfl rfl (.inl rfl)
      ⟨fun row hr => ?_, hwork.2⟩
    rw [hwork.1 row hr]
    exact ⟨rfl, rfl⟩
  | load_gone h' hnone =>
    exact h.update (by rw [h']; rfl) (by rw [h']; rfl)
      (fun _ hk => RecoverySchedule.lookup_delete_of_ne hk) rfl rfl
      (.inr ⟨rfl, fun _ row _ hr => absurd hr (hnone row)⟩) trivial
  | @load_stale snapshot current h' hr hne =>
    rw [h'] at hwork
    exact absurd (congrArg JobRecord.attemptID (hwork.1 current hr)) hne
  | @loaded snapshot current h' hr =>
    rw [h'] at hwork
    obtain rfl := hwork.1 current hr
    exact h.update (by rw [h']; rfl) (by rw [h']; rfl) (fun _ _ => rfl) rfl rfl (.inl rfl) hwork
  | @rechecked r failed h' =>
    rw [h'] at hwork
    obtain ⟨e, he, hm, -⟩ := RecoverySchedule.lookup_recheck isPrint S.loop.schedule r
      S.core.now m
    refine h.update (by rw [h']; rfl) (by rw [h']; rfl)
      (fun _ hk => RecoverySchedule.lookup_recheck_of_ne hk) rfl rfl
      (.inr ⟨rfl, fun e' row he' hr => ?_⟩) trivial
    obtain rfl : e = e' := Option.some.inj (he.symm.trans he')
    obtain ⟨hgen, hhash⟩ := hwork.1 row hr
    exact ⟨hm.generation.trans hgen.symm, hm.specHash.trans hhash.symm⟩
  | returned h' =>
    rw [h'] at hwork
    exact h.update (by rw [h']; rfl) (by rw [h']; rfl) (fun _ _ => rfl) rfl rfl (.inl rfl) hwork
  | @returned_ended current result h' =>
    rw [h'] at hwork
    refine h.update (by rw [h']; rfl) (by rw [h']; rfl) (fun _ _ => rfl) rfl rfl
      (.inr ⟨rfl, fun e row he hr => ?_⟩) trivial
    -- A nil error and a `Recovering` row: nothing was executed.
    obtain ⟨hgen, hhash, hterm, -⟩ := hwork.row row hr
    have hskip : result.executed = false := by
      by_contra hex
      rw [hwork.ok (by simpa using hex) rfl] at hterm
      cases hterm
    have hm := hwork.entry e he
    exact ⟨hm.generation.trans ((hwork.skipped hskip).symm.trans hgen.symm),
      hm.specHash.trans hhash.symm⟩
  | @completed_closed current result failed h' hclosed =>
    exact h.update (by rw [h']; rfl) (by rw [h']; rfl)
      (fun _ hk => RecoverySchedule.lookup_delete_of_ne hk) rfl rfl
      (.inr ⟨rfl, fun e _ he _ => absurd he (by simp)⟩) trivial
  | @completed_gone current result failed h' =>
    exact h.update (by rw [h']; rfl) (by rw [h']; rfl)
      (fun _ hk => RecoverySchedule.lookup_delete_of_ne hk) rfl rfl
      (.inr ⟨rfl, fun e _ he _ => absurd he (by simp)⟩) trivial
  | @completed_replaced current r result failed h' hr hne =>
    rw [h'] at hwork
    obtain ⟨hgen, hhash, -⟩ := hwork.row r hr
    rcases hne with hne | hne
    · exact absurd hgen hne
    · exact absurd (hhash.trans hwork.hash.symm) hne
  | @completed_recheck _ current result failed h' hterm hnot =>
    rw [h'] at hwork
    have hskip : result.executed = false := by
      by_contra hex
      have hex' : result.executed = true := by simpa using hex
      have hf : failed = false := by
        by_contra hf
        exact hnot ⟨hex', by simpa using hf⟩
      rw [hwork.ok hex' hf] at hterm
      cases hterm
    refine h.update (by rw [h']; rfl) (by rw [h']; rfl) (fun _ _ => rfl) rfl rfl (.inl rfl)
      ⟨fun row hr => ?_, fun e he => ?_⟩
    · obtain ⟨hgen, hhash, -⟩ := hwork.row row hr
      exact ⟨hgen, hhash.trans (recoverySpecHash_congr rfl)⟩
    · have hm := hwork.entry e he
      exact ⟨hm.generation.trans (hwork.skipped hskip).symm,
        hm.specHash.trans (recoverySpecHash_congr rfl)⟩
  | completed_failure h' =>
    rw [h'] at hwork
    exact h.update (by rw [h']; rfl) (by rw [h']; rfl) (fun _ _ => rfl) rfl rfl (.inl rfl)
      (counted_fits hwork)
  | @failed j e h' =>
    rw [h'] at hwork
    refine h.update (by rw [h']; rfl) (by rw [h']; rfl)
      (fun _ hk => RecoverySchedule.lookup_set_of_ne hk) rfl rfl
      (.inr ⟨rfl, fun e' row he' hr => ?_⟩) trivial
    rw [RecoverySchedule.lookup_set_self] at he'
    cases he'
    exact ⟨(hwork row hr).generation, (hwork row hr).specHash⟩

/-! ## Every step -/

variable {S' : Scheduler} {act : SchedulerAction}

/-- A loop that has stopped does not start again. -/
theorem Schedules.alive (hs : Schedules isPrint S act S') (hp : S'.loop.place ≠ .stopped) :
    S.loop.place ≠ .stopped := by
  intro hstop
  rcases hs.moves with ⟨_, _, L, hr, rfl⟩ | ⟨-, hp'⟩ | ⟨_, hp' | ⟨_, hp'⟩, -⟩
  · cases hr with
    | stopped _ _ _ hp' => exact hp hp'
    | _ => simp_all
  · exact hp (hp'.trans hstop)
  · rw [hstop] at hp'; cases hp'
  · rw [hstop] at hp'; cases hp'

/-- What a job in conflict reports. -/
theorem reported_conflict {s : State} {q : RecoverySchedule} {current : JobRecord}
    (hrow : RowOf s current) (hent : EntryOf isPrint q current) :
    Reported isPrint s q current (Scheduler.conflict isPrint current) true where
  row row hr := by
    rw [hrow row hr]
    exact ⟨rfl, rfl, rfl, rfl⟩
  entry := hent
  hash := rfl
  skipped _ := rfl
  ok he := by cases he

/-- **Every step of the scheduler keeps what the loop knows**, unless it
stops. -/
theorem Known.step (h : Known isPrint S) (ha : Attended isPrint S)
    (hs : Schedules isPrint S act S') (hp : S'.loop.place ≠ .stopped) : Known isPrint S' := by
  have hwork := h.working
  cases hs with
  | @process a core hserves hs =>
    have hrun := Action.running_of_serves hserves
    rcases awaited_cases (S := S) a with
      ⟨heq, -⟩ | ⟨current, sid, c, x, out, hpl, rfl, hx, hpc, heq⟩
    · rw [heq]
      exact h.process (ha.waning hs hrun)
    · rw [heq]
      obtain ⟨x', hx', hsrc⟩ := ha.runs hpl
      obtain rfl : x = x' := Option.some.inj (hx.symm.trans hx')
      exact h.returned hpl ((ha.knows hx).retrying current hsrc) hpc (store_of_release hs hx hpc)
  | notified => exact ⟨h.fits, h.nodup, h.listed, h.seen, h.working⟩
  | shut => exact ⟨h.fits, h.nodup, h.listed, h.seen, h.working⟩
  | shut_running hpl hs =>
    have hk := h.process (ha.waning hs rfl)
    exact ⟨hk.fits, hk.nodup, hk.listed, hk.seen, hk.working⟩
  | conflicted hpl =>
    rw [hpl] at hwork
    exact h.update (by rw [hpl]; rfl) (by rw [hpl]; rfl) (fun _ _ => rfl) rfl rfl (.inl rfl)
      (reported_conflict hwork.1 hwork.2)
  | claimed hpl hctx hs =>
    rw [hpl] at hwork
    have hk := h.process (ha.waning hs rfl)
    exact hk.update (by show S.loop.place.job = _; rw [hpl]; rfl)
      (by show S.loop.place.inPass = _; rw [hpl]; rfl) (fun _ _ => rfl) rfl rfl (.inl rfl) hwork.2
  | round _ hr => exact h.round hr hp

/-! ## Over a run -/

/-- **A failed `Save` leaves the store unchanged**, in every step of the run. -/
def AtomicRun (r : (scheduler isPrint).Run) : Prop := ∀ n, (r.act n).atomic = true

/-- **In every state of a run** the sessions are attended to, and the loop
knows what it is about until it stops. -/
theorem attended_known (r : (scheduler isPrint).Run) (hat : AtomicRun r) (n : ℕ) :
    Attended isPrint (r.state n) ∧
      ((r.state n).loop.place ≠ .stopped → Known isPrint (r.state n)) := by
  induction n with
  | zero =>
    obtain ⟨hcore, hloop⟩ : (r.state 0).core = (r.state 0).core.restart .serving _ ∧
        (r.state 0).loop = .initial _ := r.start
    have hno : ∀ sid, (r.state 0).core.sessions sid = none := fun sid => by rw [hcore]; rfl
    have hempty : ∀ j, (r.state 0).loop.schedule.entries.lookup j = none := fun j => by
      rw [hloop]
      exact AList.lookup_empty j
    have hplace : (r.state 0).loop.place = .start := by rw [hloop]; rfl
    refine ⟨⟨?_, fun hx => ?_, fun hx _ => ?_, fun hp => ?_⟩, fun _ => ⟨fun he => ?_, fun hin => ?_,
      fun hin => ?_, fun hj => ?_, ?_⟩⟩
    · rw [hcore]
      exact tracked_restart _ _ _
    · rw [hno] at hx; cases hx
    · rw [hno] at hx; cases hx
    · rw [hplace] at hp; cases hp
    · rw [hempty] at he; cases he
    · rw [hplace] at hin; cases hin
    · rw [hplace] at hin; cases hin
    · rw [hplace] at hj; cases hj
    · rw [hplace]; trivial
  | succ n ih =>
    have hs := schedules_of_step (r.next n)
    refine ⟨ih.1.step hs (hat n) fun current hp => ?_, fun hp => ?_⟩
    · have hk := (ih.2 (by simp [hp])).working
      rw [hp] at hk
      exact hk.1
    · exact (ih.2 (hs.alive hp)).step ih.1 hs hp

end Coordinator

end ZkRuntime
