import ZkRuntime.Coordinator.Generations
import ZkRuntime.Coordinator.Helpers.Pass
/-!
# No recovery is lost, and none is retried without a pause

Where a failed `Save` leaves the store unchanged. Behind a pass that listed
the recovering jobs and was not cancelled, every job that is still
`Recovering` has an entry, and every entry is to be retried after the pass
began; behind a pass whose listing failed the next listing is put off. So
while a job is `Recovering` the loop does not wait without a timer.
-/

namespace ZkRuntime

namespace Coordinator

variable {isPrint : ℕ → Bool} {S S' : Scheduler} {L : Loop} {s' : State} {j : JobID}

/-! ## The invariant -/

/-- **A pass loses nothing**: a recovering job is still to come, in hand, or
has an entry; and an entry is of a job still to come or in hand, or is to
be retried after the pass began. -/
structure Covered (S : Scheduler) : Prop where
  found : ∀ j row, RecoveringRow S.core j row →
    (j ∈ S.loop.seen ∧ (S.loop.place.job = some j ∨
      ∃ e, S.loop.schedule.entries.lookup j = some e)) ∨ ∃ r ∈ S.loop.rows, r.jobID = j
  later : ∀ j e, S.loop.schedule.entries.lookup j = some e →
    (j ∈ S.loop.seen ∧ (S.loop.place.job = some j ∨ S.loop.began < e.nextRetry)) ∨
      ∃ r ∈ S.loop.rows, r.jobID = j

/-- The next listing is put off, or every recovering job has an entry. -/
def Resting (S : Scheduler) : Prop :=
  S.loop.schedule.scan.nextRetry ≠ 0 ∨
    ∀ j row, RecoveringRow S.core j row → ∃ e, S.loop.schedule.entries.lookup j = some e

/-- The loop has no pass under way and goes to wait, or waits. -/
def Place.rests : Place → Bool
  | .after | .waiting _ => true
  | _ => false

/-- **The times of the loop.** -/
structure Timely (S : Scheduler) : Prop where
  clock : S.loop.place = .list ∨ S.loop.place.inPass = true → S.loop.began ≤ S.core.now
  failedAt : ∀ t, S.loop.place = .scanFailed t → t ≤ S.core.now
  retries : ∀ j e, S.loop.schedule.entries.lookup j = some e → e.nextRetry ≠ 0
  covered : S.loop.place.inPass = true → S.loop.ctxErr = none → Covered S
  rests : S.loop.place.rests = true → Resting S
  timer : ∀ due, S.loop.place = .waiting due → due = none → S.loop.schedule.deadline = 0

/-! ## Steps of the process -/

theorem now_le {s : State} {a : Action} (hs : Steps isPrint s a s') : s.now ≤ s'.now := by
  cases hs with
  | tick d => exact Nat.le_add_right _ _
  | @session sid c x m =>
    refine Nat.le_of_eq ?_
    cases he : m.effect with
    | save r applied => cases applied <;> simp [State.advance, State.apply, he]
    | _ => simp [State.advance, State.apply, he]
  | _ => exact Nat.le_refl _

/-- `Recovering` rows go, or come to the job in hand. -/
theorem Covered.waning (h : Covered S) (hk : Known isPrint S) (hw : Waning S s') {p : Place}
    (hp : p.job = S.loop.place.job) : Covered ⟨s', S.loop.goto p⟩ := by
  refine ⟨fun j row hr => ?_, fun j e he => ?_⟩
  · show (j ∈ S.loop.seen ∧ (p.job = some j ∨ _)) ∨ _
    rw [hp]
    rcases hw j row hr with hold | ⟨current, sid, hpl, rfl⟩
    · exact h.found j row hold
    · have hjob : S.loop.place.job = some current.jobID := by rw [hpl]; rfl
      exact .inl ⟨hk.seen hjob, .inl hjob⟩
  · show (j ∈ S.loop.seen ∧ (p.job = some j ∨ _)) ∨ _
    rw [hp]
    exact h.later j e he

/-- A step of the process, the loop where it was or with its session over. -/
theorem Timely.waning (h : Timely S) (hk : Known isPrint S) (hw : Waning S s')
    (hnow : S.core.now ≤ s'.now) {p : Place} (hp : p.job = S.loop.place.job)
    (hpl : p = S.loop.place ∨ (p.inPass = true ∧ S.loop.place.inPass = true)) :
    Timely ⟨s', S.loop.goto p⟩ := by
  have hin : p.inPass = true → S.loop.place.inPass = true := fun hin => by
    rcases hpl with rfl | hpl
    · exact hin
    · exact hpl.2
  -- The places outside a pass are the ones there were.
  have hout : ∀ {q : Place}, p = q → q.inPass = false → S.loop.place = q := fun hq hqin => by
    rcases hpl with rfl | hpl
    · exact hq
    · rw [hq, hqin] at hpl
      cases hpl.1
  refine ⟨fun hc => ?_, fun t ht => ?_, h.retries, fun hc hctx => ?_, fun hr => ?_,
    fun due hd hn => ?_⟩
  · refine Nat.le_trans (h.clock ?_) hnow
    rcases hc with hc | hc
    · exact .inl (hout hc rfl)
    · exact .inr (hin hc)
  · exact Nat.le_trans (h.failedAt t (hout ht rfl)) hnow
  · exact (h.covered (hin hc) hctx).waning hk hw hp
  · have hp' : p = S.loop.place := by
      rcases hpl with hpl | hpl
      · exact hpl
      · have hr' : p.rests = true := hr
        cases p <;> simp_all [Place.rests, Place.inPass]
    have hr' : S.loop.place.rests = true := hp' ▸ hr
    refine (h.rests hr').imp_right fun hall j row hrow => hall j row ?_
    exact hw.of_place hrow fun current sid hpl' => by
      rw [hpl'] at hr'
      cases hr'
  · exact h.timer due (hout hd rfl) hn

/-! ## Steps of the loop -/

/-- The job in hand goes on, or is done with. -/
theorem Covered.update (h : Covered S) (hk : Known isPrint S) (hjob : S.loop.place.job = some j)
    (hq : ∀ k, k ≠ j → L.schedule.entries.lookup k = S.loop.schedule.entries.lookup k)
    (hrows : L.rows = S.loop.rows) (hseen : L.seen = S.loop.seen) (hbegan : L.began = S.loop.began)
    (hdone : L.place.job = some j ∨
      (∀ row, RecoveringRow S.core j row → ∃ e, L.schedule.entries.lookup j = some e) ∧
        ∀ e, L.schedule.entries.lookup j = some e → S.loop.began < e.nextRetry) :
    Covered ⟨S.core, L⟩ := by
  have hne : ∀ {k}, k ≠ j → S.loop.place.job ≠ some k := fun hk hj =>
    hk (Option.some.inj (hj.symm.trans hjob))
  refine ⟨fun k row hr => ?_, fun k e he => ?_⟩
  · show (k ∈ L.seen ∧ (L.place.job = some k ∨ ∃ e, L.schedule.entries.lookup k = some e)) ∨
      ∃ r ∈ L.rows, r.jobID = k
    rw [hseen, hrows]
    refine (h.found k row hr).imp_left fun ⟨hs, hold⟩ => ⟨hs, ?_⟩
    by_cases hkj : k = j
    · subst hkj
      exact hdone.imp_right fun hd => hd.1 row hr
    · rw [hq k hkj]
      exact .inr (hold.resolve_left (hne hkj))
  · have he' : L.schedule.entries.lookup k = some e := he
    show (k ∈ L.seen ∧ (L.place.job = some k ∨ L.began < e.nextRetry)) ∨
      ∃ r ∈ L.rows, r.jobID = k
    rw [hseen, hrows, hbegan]
    by_cases hkj : k = j
    · subst hkj
      exact .inl ⟨hk.seen hjob, hdone.imp_right fun hd => hd.2 e he'⟩
    · rw [hq k hkj] at he'
      refine (h.later k e he').imp_left fun ⟨hs, hold⟩ => ⟨hs, ?_⟩
      exact .inr (hold.resolve_left (hne hkj))

/-- The next listed record is taken up. -/
theorem Covered.take {snapshot : JobRecord} {rows : List JobRecord} (h : Covered S)
    (hp : S.loop.place = .next) (hr : S.loop.rows = snapshot :: rows) {p : Place}
    (hdone : p.job = some snapshot.jobID ∨ ∃ e,
      S.loop.schedule.entries.lookup snapshot.jobID = some e ∧ S.loop.began < e.nextRetry) :
    Covered ⟨S.core, { S.loop with
      rows := rows, seen := snapshot.jobID :: S.loop.seen, place := p }⟩ := by
  have hnone : ∀ k, S.loop.place.job ≠ some k := fun k => by rw [hp]; simp [Place.job]
  refine ⟨fun k row hrow => ?_, fun k e he => ?_⟩
  · rcases h.found k row hrow with ⟨hs, hold⟩ | ⟨r, hmem, rfl⟩
    · exact .inl ⟨List.mem_cons_of_mem _ hs, .inr (hold.resolve_left (hnone k))⟩
    · rw [hr] at hmem
      rcases List.mem_cons.1 hmem with rfl | hmem
      · refine .inl ⟨List.mem_cons_self, hdone.imp_right ?_⟩
        rintro ⟨e, he, -⟩
        exact ⟨e, he⟩
      · exact .inr ⟨r, hmem, rfl⟩
  · have he' : S.loop.schedule.entries.lookup k = some e := he
    rcases h.later k e he' with ⟨hs, hold⟩ | ⟨r, hmem, rfl⟩
    · exact .inl ⟨List.mem_cons_of_mem _ hs, .inr (hold.resolve_left (hnone k))⟩
    · rw [hr] at hmem
      rcases List.mem_cons.1 hmem with rfl | hmem
      · refine .inl ⟨List.mem_cons_self, hdone.imp_right ?_⟩
        rintro ⟨e', he'', hlt⟩
        obtain rfl : e = e' := Option.some.inj (he'.symm.trans he'')
        exact hlt
      · exact .inr ⟨r, hmem, rfl⟩

/-- **A listing finds every recovering job**, and keeps no other entry. -/
theorem covered_of_listed {rows : List JobRecord}
    (hperm : rows.Perm (S.core.store.listByState .recovering)) :
    Covered ⟨S.core, { S.loop with
      schedule := { S.loop.schedule with scan := .zero }.reconcile isPrint rows
      rows := rows
      seen := []
      place := .next }⟩ := by
  refine ⟨fun k row hrow => .inr ⟨row, ?_, Store.jobID_of_load hrow.1⟩, fun k e he => .inr ?_⟩
  · have hid : row.jobID = k := Store.jobID_of_load hrow.1
    subst hid
    exact hperm.mem_iff.2 (Store.mem_listByState.2 hrow)
  · obtain ⟨r, hr, hj⟩ := List.mem_map.1 ((RecoverySchedule.lookup_reconcile rows).1 he).2.2
    exact ⟨r, hr, hj⟩

/-- **What a pass leaves behind**: every recovering job has an entry, and
every entry is to be retried after the pass began. -/
theorem Covered.passed (h : Covered S) (hp : S.loop.place = .next) (hrows : S.loop.rows = []) :
    (∀ j row, RecoveringRow S.core j row → ∃ e, S.loop.schedule.entries.lookup j = some e) ∧
      ∀ j e, S.loop.schedule.entries.lookup j = some e → S.loop.began < e.nextRetry := by
  refine ⟨fun j row hrow => ?_, fun j e he => ?_⟩
  · rcases h.found j row hrow with ⟨-, hj | he⟩ | ⟨r, hmem, -⟩
    · rw [hp] at hj; cases hj
    · exact he
    · rw [hrows] at hmem; cases hmem
  · rcases h.later j e he with ⟨-, hj | hlt⟩ | ⟨r, hmem, -⟩
    · rw [hp] at hj; cases hj
    · exact hlt
    · rw [hrows] at hmem; cases hmem

/-- A step in a pass. -/
theorem Timely.inPass (h : Timely S) (hin : S.loop.place = .list ∨ S.loop.place.inPass = true)
    (hb : L.began = S.loop.began) (hin' : L.place.inPass = true)
    (hret : ∀ j e, L.schedule.entries.lookup j = some e → e.nextRetry ≠ 0)
    (hcov : L.ctxErr = none → Covered ⟨S.core, L⟩) : Timely ⟨S.core, L⟩ := by
  have hout : ∀ {q : Place}, q.inPass = false → L.place ≠ q := fun hq heq => by
    rw [heq, hq] at hin'
    cases hin'
  refine ⟨fun _ => ?_, fun t ht => absurd ht (hout rfl), hret, fun _ => hcov, fun hr => ?_,
    fun due hd => absurd hd (hout rfl)⟩
  · show L.began ≤ S.core.now
    rw [hb]
    exact h.clock hin
  · have hr' : L.place.rests = true := hr
    cases hp : L.place <;> simp_all [Place.rests, Place.inPass]

/-- A step to a place where the loop does not rest, out of a pass. -/
theorem Timely.quiet (h : Timely S) (hq : L.schedule.entries = S.loop.schedule.entries)
    (hp : L.place = .head ∨ L.place = .pass) : Timely ⟨S.core, L⟩ := by
  refine ⟨fun hc => ?_, fun t ht => ?_, fun j e he => h.retries j e (hq ▸ he), fun hin => ?_,
    fun hr => ?_, fun due hd => ?_⟩ <;> rcases hp with hp | hp <;>
    simp_all [Place.inPass, Place.rests]

/-- A step to the end of a pass, or of the wait for one. -/
theorem Timely.rest (h : Timely S) (hq : L.schedule.entries = S.loop.schedule.entries)
    (hp : L.place.rests = true) (hr : Resting ⟨S.core, L⟩)
    (htimer : ∀ due, L.place = .waiting due → due = none → L.schedule.deadline = 0) :
    Timely ⟨S.core, L⟩ := by
  have hout : L.place.inPass = false ∧ L.place ≠ .list ∧ ∀ t, L.place ≠ .scanFailed t := by
    cases hp' : L.place <;> simp_all [Place.rests, Place.inPass]
  refine ⟨fun hc => ?_, fun t ht => absurd ht (hout.2.2 t), fun j e he => h.retries j e (hq ▸ he),
    fun hin => ?_, fun _ => hr, htimer⟩
  · rcases hc with hc | hc
    · exact absurd hc hout.2.1
    · exact absurd hc (by simp [hout.1])
  · exact absurd hin (by simp [hout.1])

/-- A step with the job in hand that leaves the schedule. -/
theorem Timely.goes (h : Timely S) (hk : Known isPrint S) {p q : Place} (hp : S.loop.place = p)
    (hin : p.inPass = true) (hin' : q.inPass = true) (hjob : q.job = p.job) :
    Timely ⟨S.core, S.loop.goto q⟩ :=
  h.waning hk (waning_of_store rfl) (Nat.le_refl _) (by rw [hp, hjob]) (.inr ⟨hin', by rw [hp, hin]⟩)

/-- The job in hand is not `Recovering` any more, and its entry goes. -/
theorem Timely.delete (h : Timely S) (hk : Known isPrint S) {p q : Place} (hp : S.loop.place = p)
    (hin : p.inPass = true) (hin' : q.inPass = true) (hjob : p.job = some j)
    (hnone : ∀ row, ¬ RecoveringRow S.core j row) :
    Timely ⟨S.core, { S.loop with schedule := S.loop.schedule.delete j, place := q }⟩ := by
  subst hp
  refine h.inPass (.inr hin) rfl hin' (fun k e he => ?_) fun hctx => ?_
  · exact h.retries k e (RecoverySchedule.lookup_delete_eq_some.1 he).2
  · exact (h.covered hin hctx).update hk hjob
      (fun _ hk => RecoverySchedule.lookup_delete_of_ne hk) rfl rfl rfl
      (.inr ⟨fun row hr => absurd hr (hnone row), fun e he => absurd he (by simp)⟩)

/-- The job in hand gets an entry, to be retried after the time it is. -/
theorem Timely.set (h : Timely S) (hk : Known isPrint S) {p q : Place} {e : RetryEntry}
    (hp : S.loop.place = p) (hin : p.inPass = true) (hin' : q.inPass = true)
    (hjob : p.job = some j) (hlt : S.core.now < e.nextRetry) :
    Timely ⟨S.core, { S.loop with schedule := S.loop.schedule.set j e, place := q }⟩ := by
  subst hp
  refine h.inPass (.inr hin) rfl hin' (fun k e' he' => ?_) fun hctx => ?_
  · rcases RecoverySchedule.lookup_set_eq_some he' with ⟨-, rfl⟩ | ⟨-, hold⟩
    · exact Nat.ne_of_gt (Nat.zero_lt_of_lt hlt)
    · exact h.retries k e' hold
  · refine (h.covered hin hctx).update hk hjob
      (fun _ hk => RecoverySchedule.lookup_set_of_ne hk) rfl rfl rfl
      (.inr ⟨fun _ _ => ⟨e, RecoverySchedule.lookup_set_self⟩, fun e' he' => ?_⟩)
    rw [RecoverySchedule.lookup_set_self] at he'
    cases he'
    exact Nat.lt_of_le_of_lt (h.clock (.inr hin)) hlt

/-- **Every step of the loop keeps its times**, unless it stops. -/
theorem Timely.round {m : Sampler} {c : LoopChoice} (h : Timely S) (hk : Known isPrint S)
    (hr : Rounds isPrint S.core S.loop m c L) (hp : L.place ≠ .stopped) : Timely ⟨S.core, L⟩ := by
  have hwork := hk.working
  cases hr with
  | stopped _ _ _ hstop => exact absurd hstop hp
  | started => exact h.quiet rfl (.inl rfl)
  | due => exact h.quiet rfl (.inr rfl)
  | notified => exact h.quiet rfl (.inl rfl)
  | fired => exact h.quiet rfl (.inl rfl)
  | put_off _ hlt =>
    refine h.rest rfl rfl (.inl ?_) (by simp [Loop.goto])
    exact Nat.ne_of_gt (Nat.zero_lt_of_lt hlt)
  | began =>
    refine ⟨fun _ => Nat.le_refl _, ?_, h.retries, ?_, ?_, ?_⟩ <;> simp [Place.inPass, Place.rests]
  | list_fails =>
    refine ⟨?_, ?_, h.retries, ?_, ?_, ?_⟩ <;> simp [Loop.goto, Place.inPass, Place.rests]
  | @listed rows h' hperm =>
    refine h.inPass (.inl h') rfl rfl (fun j e he => ?_) fun _ => covered_of_listed hperm
    exact h.retries j e ((RecoverySchedule.lookup_reconcile rows).1 he).1
  | scan_failed h' =>
    refine h.rest rfl rfl (.inl ?_) (by simp)
    exact Nat.ne_of_gt (Nat.zero_lt_of_lt (lt_retryAt S.core.now _ m))
  | passed h' hrows hctx =>
    have hc := h.covered (by rw [h']; rfl) hctx
    exact h.rest rfl rfl (.inr (hc.passed h' hrows).1) (by simp [Loop.goto])
  | skipped h' hrows hs =>
    have hin : S.loop.place.inPass = true := by rw [h']; rfl
    exact absurd hs (hk.listed hin _ (by rw [hrows]; exact List.mem_cons_self)).1
  | @cooling snapshot rows h' hrows hs he =>
    have hin : S.loop.place.inPass = true := by rw [h']; rfl
    obtain ⟨e, hlook, hlt⟩ := RecoverySchedule.lookup_of_not_eligible he
    refine h.inPass (.inr hin) rfl hin h.retries fun hctx => ?_
    exact (h.covered hin hctx).take h' hrows
      (.inr ⟨e, hlook, Nat.lt_of_le_of_lt (h.clock (.inr hin)) hlt⟩)
  | taken h' hrows hs he =>
    have hin : S.loop.place.inPass = true := by rw [h']; rfl
    exact h.inPass (.inr hin) rfl rfl h.retries fun hctx =>
      (h.covered hin hctx).take h' hrows (.inl rfl)
  | load_fails h' => exact h.goes hk h' rfl rfl rfl
  | load_gone h' hnone => exact h.delete hk h' rfl rfl rfl hnone
  | @load_stale snapshot current h' hr hne =>
    -- Nobody else makes a job `Recovering`, so what was listed is what is there.
    rw [h'] at hwork
    exact absurd (congrArg JobRecord.attemptID (hwork.1 current hr)) hne
  | @loaded snapshot current h' hr =>
    rw [h'] at hwork
    obtain rfl := hwork.1 current hr
    exact h.goes hk h' rfl rfl rfl
  | rechecked h' => exact h.set hk h' rfl rfl rfl (lt_retryAt S.core.now 1 m)
  | returned h' => exact h.goes hk h' rfl rfl rfl
  | returned_ended h' hctx =>
    -- The pass is cancelled, and owes nothing.
    exact h.inPass (.inr (by rw [h']; rfl)) rfl rfl h.retries fun hctx' => absurd hctx' hctx
  | completed_closed h' hclosed =>
    refine h.delete hk h' rfl rfl rfl fun row hr => ?_
    rw [h'] at hwork
    obtain ⟨-, -, hterm, hrep⟩ := hwork.row row hr
    simp [hterm, hrep] at hclosed
  | completed_gone h' hnone => exact h.delete hk h' rfl rfl rfl hnone
  | @completed_replaced current r result failed h' hr hne =>
    rw [h'] at hwork
    obtain ⟨hgen, hhash, -⟩ := hwork.row r hr
    rcases hne with hne | hne
    · exact absurd hgen hne
    · exact absurd (hhash.trans hwork.hash.symm) hne
  | completed_recheck h' => exact h.goes hk h' rfl rfl rfl
  | completed_failure h' => exact h.goes hk h' rfl rfl rfl
  | @failed j e h' => exact h.set hk h' rfl rfl rfl (lt_retryAt S.core.now e.failures m)
  | settled h' => exact h.goes hk h' rfl rfl rfl
  | armed h' =>
    refine h.rest rfl rfl (h.rests (by rw [h']; rfl)) fun due hd hnone => ?_
    subst hnone
    have hd' := Place.waiting.inj hd
    by_contra hne
    have hne' : S.loop.schedule.deadline ≠ 0 := hne
    rw [if_neg hne'] at hd'
    cases hd'

/-! ## Every step -/

/-- **Every step of the scheduler keeps its times**, unless the loop stops. -/
theorem Timely.step {act : SchedulerAction} (h : Timely S) (hk : Known isPrint S)
    (ha : Attended isPrint S) (hs : Schedules isPrint S act S') (hp : S'.loop.place ≠ .stopped) :
    Timely S' := by
  cases hs with
  | @process a core hserves hs =>
    have hw := ha.waning hs (Action.running_of_serves hserves)
    rcases awaited_cases (S := S) a with
      ⟨heq, -⟩ | ⟨current, sid, c, x, out, hpl, -, -, -, heq⟩ <;> rw [heq]
    · exact h.waning hk hw (now_le hs) rfl (.inl rfl)
    · exact h.waning hk hw (now_le hs) (by rw [hpl]; rfl) (.inr ⟨rfl, by rw [hpl]; rfl⟩)
  | notified =>
    exact ⟨h.clock, h.failedAt, h.retries,
      fun hin hctx => ⟨(h.covered hin hctx).found, (h.covered hin hctx).later⟩, h.rests, h.timer⟩
  | shut =>
    exact ⟨h.clock, h.failedAt, h.retries, (fun _ hctx => by cases hctx), h.rests, h.timer⟩
  | shut_running hpl hs =>
    have ht : Timely ⟨_, S.loop.goto S.loop.place⟩ :=
      h.waning hk (ha.waning hs rfl) (now_le hs) rfl (.inl rfl)
    exact ⟨ht.clock, ht.failedAt, ht.retries, (fun _ hctx => by cases hctx), ht.rests, ht.timer⟩
  | conflicted hpl => exact h.goes hk hpl rfl rfl rfl
  | claimed hpl hctx hs =>
    exact h.waning hk (ha.waning hs rfl) (now_le hs) (by rw [hpl]; rfl)
      (.inr ⟨rfl, by rw [hpl]; rfl⟩)
  | round _ hr => exact h.round hk hr hp

/-- **In every state of a run** the times are kept, until the loop stops. -/
theorem timely (r : (scheduler isPrint).Run) (hat : AtomicRun r) (n : ℕ) :
    (r.state n).loop.place ≠ .stopped → Timely (r.state n) := by
  induction n with
  | zero =>
    intro _
    obtain ⟨-, hloop⟩ : _ ∧ (r.state 0).loop = .initial _ := r.start
    have hplace : (r.state 0).loop.place = .start := by rw [hloop]; rfl
    refine ⟨fun hc => ?_, fun t ht => ?_, fun j e he => ?_, fun hin => ?_, fun hr => ?_,
      fun due hd => ?_⟩
    · rw [hplace] at hc; simp [Place.inPass] at hc
    · rw [hplace] at ht; cases ht
    · rw [hloop] at he
      have hnone : AList.lookup j (∅ : AList fun _ : JobID => RetryEntry) = some e := he
      rw [AList.lookup_empty] at hnone
      cases hnone
    · rw [hplace] at hin; cases hin
    · rw [hplace] at hr; cases hr
    · rw [hplace] at hd; cases hd
  | succ n ih =>
    intro hp
    have hs := schedules_of_step (r.next n)
    have halive := hs.alive hp
    obtain ⟨ha, hk⟩ := attended_known r hat n
    exact (ih halive).step (hk halive) ha hs hp

/-! ## The ends of passes -/

/-- A pass that listed the recovering jobs ends, and was not cancelled. -/
def PassEndsAt (r : (scheduler isPrint).Run) (n : ℕ) : Prop :=
  (r.state n).loop.place = .next ∧ (r.state (n + 1)).loop.place = .after

/-- A pass ends whose listing failed at `t`. -/
def ListFailedAt (r : (scheduler isPrint).Run) (n : ℕ) (t : Time) : Prop :=
  (r.state n).loop.place = .scanFailed t ∧ (r.state (n + 1)).loop.place = .after

/-- Only the loop's own steps end a pass. -/
theorem Schedules.ends {act : SchedulerAction} (hs : Schedules isPrint S act S')
    (hp : S.loop.place ≠ .after) (hp' : S'.loop.place = .after) :
    ∃ c m L, Rounds isPrint S.core S.loop m c L ∧ S' = { S with loop := L } := by
  rcases hs.moves with hr | ⟨-, hp''⟩ | ⟨_, -, ⟨_, _, hp''⟩ | ⟨_, hp''⟩, -⟩
  · exact hr
  · exact absurd (hp''.symm.trans hp') hp
  · exact absurd (hp''.symm.trans hp') (by simp)
  · exact absurd (hp''.symm.trans hp') (by simp)

theorem Rounds.passes {s : State} {L' : Loop} {m : Sampler} {c : LoopChoice}
    (hr : Rounds isPrint s L m c L') (hp : L.place = .next) (hp' : L'.place = .after) :
    L.rows = [] ∧ L.ctxErr = none ∧ L' = L.goto .after := by
  cases hr with
  | passed _ hrows hctx => exact ⟨hrows, hctx, rfl⟩
  | _ => simp_all

theorem Rounds.fails {s : State} {L' : Loop} {m : Sampler} {c : LoopChoice} {t : Time}
    (hr : Rounds isPrint s L m c L') (hp : L.place = .scanFailed t) (hp' : L'.place = .after) :
    L'.schedule = L.schedule.scanFailed s.now m := by
  cases hr with
  | scan_failed => rfl
  | _ => simp_all

/-- **With a recovering job the loop does not rest without a deadline.** -/
theorem Timely.deadline {row : JobRecord} (h : Timely S) (hp : S.loop.place.rests = true)
    (hrow : RecoveringRow S.core j row) : S.loop.schedule.deadline ≠ 0 := by
  rcases h.rests hp with hscan | hall
  · exact RecoverySchedule.deadline_of_scan hscan
  · obtain ⟨e, he⟩ := hall j row hrow
    exact RecoverySchedule.deadline_of_lookup h.retries he

/-- **No recovery is lost and no loop runs hot**: where a failed `Save`
leaves the store unchanged, behind an uncancelled pass every recovering job
has an entry, to be retried after the pass began; behind a failed listing
the next one is later than the failure; and while a job is `Recovering` the
loop waits with its timer armed. -/
theorem scheduling (r : (scheduler isPrint).Run) (hat : AtomicRun r) (n : ℕ) :
    (PassEndsAt r n →
      (∀ j row, RecoveringRow (r.state (n + 1)).core j row →
        ∃ e, (r.state (n + 1)).loop.schedule.entries.lookup j = some e) ∧
      ∀ j e, (r.state (n + 1)).loop.schedule.entries.lookup j = some e →
        (r.state (n + 1)).loop.began < e.nextRetry) ∧
    (∀ t, ListFailedAt r n t → t < (r.state (n + 1)).loop.schedule.scan.nextRetry) ∧
    ∀ due j row, (r.state n).loop.place = .waiting due → RecoveringRow (r.state n).core j row →
      (r.state n).loop.schedule.deadline ≠ 0 ∧ ∃ t, due = some t := by
  have hs := schedules_of_step (r.next n)
  refine ⟨fun ⟨hp, hp'⟩ => ?_, fun t ⟨hp, hp'⟩ => ?_, fun due j row hp hrow => ?_⟩
  · obtain ⟨c, m, L, hr, heq⟩ := hs.ends (by simp [hp]) hp'
    rw [heq] at hp' ⊢
    obtain ⟨hrows, hctx, rfl⟩ := hr.passes hp hp'
    have ht := timely r hat n (by simp [hp])
    exact (ht.covered (by rw [hp]; rfl) hctx).passed hp hrows
  · obtain ⟨c, m, L, hr, heq⟩ := hs.ends (by simp [hp]) hp'
    rw [heq] at hp' ⊢
    have ht := (timely r hat n (by simp [hp])).failedAt t hp
    show t < L.schedule.scan.nextRetry
    rw [hr.fails hp hp']
    exact Nat.lt_of_le_of_lt ht (lt_retryAt _ _ m)
  · have ht := timely r hat n (by simp [hp])
    have hd := ht.deadline (by rw [hp]; rfl) hrow
    refine ⟨hd, ?_⟩
    cases due with
    | none => exact absurd (ht.timer none hp rfl) hd
    | some t => exact ⟨t, rfl⟩

/-! ## Runs of scripts -/

/-- A process that begins to serve over a store, at a time, and its loop. -/
def fresh (st : Store) (now : Time) : Scheduler :=
  ⟨{ offline st with now := now, phase := .serving }, .initial false⟩

theorem step_idle (S : Scheduler) : S.step isPrint (.process (.tick 0)) = some S := by
  rcases awaited_cases (S := S) (.tick 0) with ⟨heq, -⟩ | ⟨_, _, _, _, _, _, ha, -⟩
  · show some (Scheduler.mk { S.core with now := S.core.now + 0 } (S.awaited (.tick 0))) = some S
    rw [heq]
    rfl
  · cases ha

/-- The run of a script of the scheduler. -/
def scheduled (st : Store) (now : Time) (as : List SchedulerAction)
    (h : (scheduler asciiPrint).plays (fresh st now) as = true) : (scheduler asciiPrint).Run :=
  .ofScript (fresh st now) as (.process (.tick 0)) (@step_idle asciiPrint) ⟨rfl, rfl⟩ h

theorem atomicRun_scheduled {st : Store} {now : Time} {as : List SchedulerAction}
    (h : (scheduler asciiPrint).plays (fresh st now) as = true)
    (hat : as.all SchedulerAction.atomic = true) : AtomicRun (scheduled st now as h) := by
  intro n
  show (as.getD n (.process (.tick 0))).atomic = true
  rw [List.getD_eq_getElem?_getD]
  cases ha : as[n]? with
  | none => rfl
  | some a => exact List.all_eq_true.1 hat a (List.mem_of_getElem? ha)

/-- The sampler that always takes the least delay. -/
def leastSample : Sampler := ⟨fun _ => 0, fun _ h => ⟨Int64.le_refl 0, h⟩⟩

def go : SchedulerAction := .loop .go leastSample

/-- The job of `exampleRequest`, to be recovered. -/
def recoveringExample : JobRecord := ⟨7, .recovering, 1, [], ascii "hash", ascii "abc", 1000⟩

def recoveringStore : Store := ⟨[recoveringExample], by simp⟩

/-- A pass whose `Load` of the job fails, and the wait behind it. -/
def unreadScript : List SchedulerAction :=
  [go, go, go, .loop (.listed [recoveringExample]) leastSample, go, .loop .loadFails leastSample,
    go, go, go, go]

theorem plays_unreadScript :
    (scheduler asciiPrint).plays (fresh recoveringStore 5) unreadScript = true := by decide +kernel

theorem scheduling_unread : ∃ (r : (scheduler asciiPrint).Run) (e : RetryEntry) (t : Time),
    AtomicRun r ∧ PassEndsAt r 8 ∧ RecoveringRow (r.state 9).core 7 recoveringExample ∧
      (r.state 9).loop.schedule.entries.lookup 7 = some e ∧
      (r.state 9).loop.began < e.nextRetry ∧ (r.state 10).loop.place = .waiting (some t) := by
  have hat := atomicRun_scheduled plays_unreadScript (by decide +kernel)
  have hrow : ∀ n, n = 9 ∨ n = 10 → RecoveringRow ((scheduler asciiPrint).play
      (fresh recoveringStore 5) unreadScript n).core 7 recoveringExample := by
    rintro n (rfl | rfl) <;> exact ⟨by decide +kernel, rfl⟩
  have hends : PassEndsAt (scheduled _ _ _ plays_unreadScript) 8 :=
    ⟨by show ((scheduler asciiPrint).play _ _ _).loop.place = _; decide +kernel,
      by show ((scheduler asciiPrint).play _ _ _).loop.place = _; decide +kernel⟩
  obtain ⟨hfound, hlater⟩ := (scheduling _ hat 8).1 hends
  obtain ⟨e, he⟩ := hfound 7 recoveringExample (hrow 9 (.inl rfl))
  -- The wait has a timer, whatever it is set to.
  have hwait : ∃ due, ((scheduler asciiPrint).play (fresh recoveringStore 5) unreadScript
      10).loop.place = .waiting due := ⟨some 500000005, by decide +kernel⟩
  obtain ⟨due, hdue⟩ := hwait
  obtain ⟨-, t, rfl⟩ := (scheduling _ hat 10).2.2 due 7 recoveringExample hdue (hrow 10 (.inr rfl))
  exact ⟨_, e, t, hat, hends, hrow 9 (.inl rfl), he, hlater 7 e he, hdue⟩

end Coordinator

end ZkRuntime
