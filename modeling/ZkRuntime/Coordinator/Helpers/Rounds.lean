import ZkRuntime.Coordinator.Helpers.Retrying
import ZkRuntime.Coordinator.Model.Scheduler
/-!
# What a step of the scheduler can be

`Scheduler.step` taken apart once, as `Steps` takes the coordinator's step
apart: `Rounds` has the steps of the loop that change nothing but the loop,
`Schedules` all of them.
-/

namespace ZkRuntime

namespace Coordinator

/-- The loop behind a failure that `completed` counts. -/
def counted (q : RecoverySchedule) (j : JobID) (result : RecoveryExecution) : RetryEntry :=
  let e := if (q.entry j).specHash ≠ result.specHash then .zero else q.entry j
  { e with
    failures := incrementRecoveryFailures e.failures
    generation := result.generation
    specHash := result.specHash }

/-- **The steps of the loop**, as a relation between the loop and what it
becomes. -/
inductive Rounds (isPrint : ℕ → Bool) (s : State) (L : Loop) : Sampler → LoopChoice → Loop → Prop
  | started {m : Sampler} (h : L.place = .start) :
      Rounds isPrint s L m .go { L with ready := false, place := .head }
  /-- The context was read, and had ended. -/
  | stopped {m : Sampler} {c : LoopChoice} {L' : Loop} (hctx : L.ctxErr ≠ none)
      (hctx' : L'.ctxErr = L.ctxErr) (hq : L'.schedule = L.schedule) (hp : L'.place = .stopped) :
      Rounds isPrint s L m c L'
  | put_off {m : Sampler} (h : L.place = .head) (hlt : s.now < L.schedule.scan.nextRetry) :
      Rounds isPrint s L m .go (L.goto .after)
  | due {m : Sampler} (h : L.place = .head) : Rounds isPrint s L m .go (L.goto .pass)
  | began {m : Sampler} (h : L.place = .pass) :
      Rounds isPrint s L m .go { L with began := s.now, place := .list }
  | list_fails {m : Sampler} (h : L.place = .list) :
      Rounds isPrint s L m .listFails (L.goto (.scanFailed s.now))
  | listed {m : Sampler} {rows : List JobRecord} (h : L.place = .list)
      (hp : rows.Perm (s.store.listByState .recovering)) :
      Rounds isPrint s L m (.listed rows) { L with
        schedule := { L.schedule with scan := .zero }.reconcile isPrint rows
        rows := rows
        seen := []
        place := .next }
  | scan_failed {m : Sampler} {t : Time} (h : L.place = .scanFailed t) :
      Rounds isPrint s L m .go
        { L with schedule := L.schedule.scanFailed s.now m, place := .after }
  | passed {m : Sampler} (h : L.place = .next) (hr : L.rows = []) (hctx : L.ctxErr = none) :
      Rounds isPrint s L m .go (L.goto .after)
  | skipped {m : Sampler} {snapshot : JobRecord} {rows : List JobRecord} (h : L.place = .next)
      (hr : L.rows = snapshot :: rows) (hs : snapshot.jobID ∈ L.seen) :
      Rounds isPrint s L m .go { L with rows := rows }
  | cooling {m : Sampler} {snapshot : JobRecord} {rows : List JobRecord} (h : L.place = .next)
      (hr : L.rows = snapshot :: rows) (hs : snapshot.jobID ∉ L.seen)
      (he : L.schedule.eligible snapshot s.now = false) :
      Rounds isPrint s L m .go { L with rows := rows, seen := snapshot.jobID :: L.seen }
  | taken {m : Sampler} {snapshot : JobRecord} {rows : List JobRecord} (h : L.place = .next)
      (hr : L.rows = snapshot :: rows) (hs : snapshot.jobID ∉ L.seen)
      (he : L.schedule.eligible snapshot s.now = true) :
      Rounds isPrint s L m .go
        { L with rows := rows, seen := snapshot.jobID :: L.seen, place := .load snapshot }
  | load_fails {m : Sampler} {snapshot : JobRecord} (h : L.place = .load snapshot) :
      Rounds isPrint s L m .loadFails (L.goto (.recheck snapshot false))
  | load_gone {m : Sampler} {snapshot : JobRecord} (h : L.place = .load snapshot)
      (hr : ∀ row, ¬ RecoveringRow s snapshot.jobID row) :
      Rounds isPrint s L m .go
        { L with schedule := L.schedule.delete snapshot.jobID, place := .next }
  | load_stale {m : Sampler} {snapshot current : JobRecord} (h : L.place = .load snapshot)
      (hr : RecoveringRow s snapshot.jobID current) (ha : current.attemptID ≠ snapshot.attemptID) :
      Rounds isPrint s L m .go
        { L with
          schedule := L.schedule.delete snapshot.jobID
          place := .recheck current false }
  | loaded {m : Sampler} {snapshot current : JobRecord} (h : L.place = .load snapshot)
      (hr : RecoveringRow s snapshot.jobID current) :
      Rounds isPrint s L m .go (L.goto (.claim current))
  | rechecked {m : Sampler} {r : JobRecord} {failed : Bool} (h : L.place = .recheck r failed) :
      Rounds isPrint s L m .go { L with
        schedule := L.schedule.recheck isPrint r s.now m
        place := .settled failed }
  | returned {m : Sampler} {current : JobRecord} {result : RecoveryExecution} {failed : Bool}
      (h : L.place = .returned current result failed) (hctx : L.ctxErr = none) :
      Rounds isPrint s L m .go (L.goto (.completed current result failed))
  | returned_ended {m : Sampler} {current : JobRecord} {result : RecoveryExecution}
      (h : L.place = .returned current result false) (hctx : L.ctxErr ≠ none) :
      Rounds isPrint s L m .go (L.goto .next)
  | completed_closed {m : Sampler} {current : JobRecord} {result : RecoveryExecution}
      {failed : Bool} (h : L.place = .completed current result failed)
      (hr : result.terminal = true ∨ result.repairFailed = true) :
      Rounds isPrint s L m .go
        { L with schedule := L.schedule.delete current.jobID, place := .settled failed }
  | completed_gone {m : Sampler} {current : JobRecord} {result : RecoveryExecution}
      {failed : Bool} (h : L.place = .completed current result failed)
      (hr : ∀ row, ¬ RecoveringRow s current.jobID row) :
      Rounds isPrint s L m .go
        { L with schedule := L.schedule.delete current.jobID, place := .settled failed }
  | completed_replaced {m : Sampler} {current r : JobRecord} {result : RecoveryExecution}
      {failed : Bool} (h : L.place = .completed current result failed)
      (hr : RecoveringRow s current.jobID r)
      (hne : r.attemptID ≠ result.generation ∨ recoverySpecHash isPrint r ≠ result.specHash) :
      Rounds isPrint s L m .go
        { L with schedule := L.schedule.delete current.jobID, place := .recheck r failed }
  | completed_recheck {m : Sampler} {c : LoopChoice} {current : JobRecord}
      {result : RecoveryExecution} {failed : Bool} (h : L.place = .completed current result failed)
      (ht : result.terminal = false) (hr : ¬ (result.executed = true ∧ failed = true)) :
      Rounds isPrint s L m c
        (L.goto (.recheck { current with attemptID := result.generation } failed))
  | completed_failure {m : Sampler} {c : LoopChoice} {current : JobRecord}
      {result : RecoveryExecution} (h : L.place = .completed current result true)
      (hr : result.executed = true) :
      Rounds isPrint s L m c
        (L.goto (.failure current.jobID (counted L.schedule current.jobID result)))
  | failed {m : Sampler} {j : JobID} {e : RetryEntry} (h : L.place = .failure j e) :
      Rounds isPrint s L m .go { L with
        schedule := L.schedule.set j { e with nextRetry := retryAt s.now e.failures m }
        place := .settled true }
  | settled {m : Sampler} {failed : Bool} (h : L.place = .settled failed) :
      Rounds isPrint s L m .go (L.goto .next)
  | armed {m : Sampler} (h : L.place = .after) :
      Rounds isPrint s L m .go (L.goto (.waiting
        (if L.schedule.deadline = 0 then none else some (max L.schedule.deadline s.now))))
  | notified {m : Sampler} {due : Option Time} (h : L.place = .waiting due) :
      Rounds isPrint s L m .ready { L with ready := false, place := .head }
  | fired {m : Sampler} {due : Option Time} (h : L.place = .waiting due) :
      Rounds isPrint s L m .timer (L.goto .head)

section Inversion

variable {isPrint : ℕ → Bool} {s : State} {L L' : Loop} {m : Sampler} {c : LoopChoice}

/-- A step that reads the context stops, or goes on with it live. -/
theorem rounds_unlessDone {L₀ L₁ : Loop} (h : L₀.unlessDone L₁ = L')
    (hctx : L₀.ctxErr = L.ctxErr) (hq : L₀.schedule = L.schedule)
    (hgo : L.ctxErr = none → Rounds isPrint s L m c L₁) : Rounds isPrint s L m c L' := by
  unfold Loop.unlessDone at h
  split at h
  · rename_i e he
    subst h
    exact .stopped (by rw [← hctx, he]; simp) hctx hq rfl
  · rename_i he
    subst h
    exact hgo (hctx ▸ he)

theorem rounds_head (h : L.place = .head) (hm : L.head s c = some L') :
    Rounds isPrint s L m c L' := by
  unfold Loop.head at hm
  split at hm
  · refine rounds_unlessDone (Option.some.inj hm) rfl rfl fun _ => ?_
    split
    · rename_i hlt; exact .put_off h hlt
    · exact .due h
  · cases hm

theorem rounds_list (h : L.place = .list) (hm : L.list isPrint s c = some L') :
    Rounds isPrint s L m c L' := by
  unfold Loop.list at hm
  split at hm
  · cases hm; exact .list_fails h
  · split at hm
    · rename_i hp; cases hm; exact .listed h hp
    · cases hm
  · cases hm

theorem rounds_next (h : L.place = .next) (hm : L.next s c = some L') :
    Rounds isPrint s L m c L' := by
  unfold Loop.next at hm
  split at hm
  · split at hm
    · rename_i hr
      exact rounds_unlessDone (Option.some.inj hm) rfl rfl fun hctx => .passed h hr hctx
    · rename_i snapshot rows hr
      split at hm
      · rename_i hs; cases hm; exact .skipped h hr hs
      · rename_i hs
        refine rounds_unlessDone (Option.some.inj hm) rfl rfl fun _ => ?_
        split
        · rename_i he; exact .taken h hr hs he
        · rename_i he; exact .cooling h hr hs (by simpa using he)
  · cases hm

theorem rounds_load {snapshot : JobRecord} (h : L.place = .load snapshot)
    (hm : L.load s snapshot c = some L') : Rounds isPrint s L m c L' := by
  unfold Loop.load at hm
  split at hm
  · cases hm; exact .load_fails h
  · split at hm
    · rename_i hl
      cases hm
      exact .load_gone h fun row hr => by simp [RecoveringRow, hl] at hr
    · rename_i current hl
      split at hm
      · rename_i hst
        cases hm
        refine .load_gone h fun row hr => hst ?_
        obtain ⟨hl', hst'⟩ := hr
        rw [hl] at hl'
        cases hl'
        exact hst'
      · rename_i hst
        have hr : RecoveringRow s snapshot.jobID current := ⟨hl, by simpa using hst⟩
        split at hm
        · rename_i ha; cases hm; exact .load_stale h hr ha
        · cases hm; exact .loaded h hr
  · cases hm

theorem rounds_returned {current : JobRecord} {result : RecoveryExecution} {failed : Bool}
    (h : L.place = .returned current result failed)
    (hm : L.returned current result failed c = some L') : Rounds isPrint s L m c L' := by
  unfold Loop.returned at hm
  split at hm
  · split at hm
    · rename_i hctx; cases hm; exact .returned h hctx
    · rename_i e hctx
      cases hm
      cases failed
      · exact .returned_ended h (by simp [hctx])
      · exact .stopped (by simp [hctx]) rfl rfl rfl
  · cases hm

theorem rounds_completed {current : JobRecord} {result : RecoveryExecution} {failed : Bool}
    (h : L.place = .completed current result failed)
    (hm : L.completed isPrint s current result failed c = some L') : Rounds isPrint s L m c L' := by
  -- What is done where the store does not speak against it.
  have hcount : ¬ (result.terminal = true ∨ result.repairFailed = true) →
      Rounds isPrint s L m c (L.complete current.jobID failed
        (if result.executed ∧ failed then
          .failure (counted L.schedule current.jobID result)
        else .recheck { current with attemptID := result.generation })) := by
    intro hopen
    split
    · rename_i hr
      obtain ⟨h1, rfl⟩ := hr
      exact .completed_failure h h1
    · rename_i hr
      refine .completed_recheck h ?_ hr
      by_contra ht
      exact hopen (.inl (by simpa using ht))
  unfold Loop.completed at hm
  split at hm
  · split at hm
    · rename_i hr; cases hm; exact .completed_closed h hr
    · rename_i hopen
      cases hm
      unfold RecoverySchedule.completed
      cases hl : s.store.load current.jobID with
      | none => exact .completed_gone h fun row hr => by simp [RecoveringRow, hl] at hr
      | some r =>
        dsimp only
        split
        · rename_i hst
          refine .completed_gone h fun row hr => hst ?_
          obtain ⟨hl', hst'⟩ := hr
          rw [hl] at hl'
          cases hl'
          exact hst'
        · rename_i hst
          split
          · rename_i hne; exact .completed_replaced h ⟨hl, by simpa using hst⟩ hne
          · exact hcount hopen
  · split at hm
    · cases hm
    · rename_i hopen
      cases hm
      exact hcount hopen
  · cases hm

/-- **Every step of the loop is one of these.** -/
theorem rounds_of_move (hm : L.move isPrint s m c = some L') : Rounds isPrint s L m c L' := by
  unfold Loop.move at hm
  split at hm
  · rename_i h
    split at hm
    · rename_i hc; subst hc; cases hm; exact .started h
    · cases hm
  · rename_i h; exact rounds_head h hm
  · rename_i h
    unfold Loop.pass at hm
    split at hm
    · exact rounds_unlessDone (Option.some.inj hm) rfl rfl fun _ => .began h
    · cases hm
  · rename_i h; exact rounds_list h hm
  · rename_i h
    unfold Loop.scanFailed at hm
    split at hm
    · cases hm; exact .scan_failed h
    · cases hm
  · rename_i h; exact rounds_next h hm
  · rename_i h; exact rounds_load h hm
  · rename_i h
    unfold Loop.recheck at hm
    split at hm
    · cases hm; exact .rechecked h
    · cases hm
  · rename_i h; exact rounds_returned h hm
  · rename_i h; exact rounds_completed h hm
  · rename_i h
    unfold Loop.failure at hm
    split at hm
    · cases hm; exact .failed h
    · cases hm
  · rename_i h
    unfold Loop.settled at hm
    split at hm
    · split at hm
      · exact rounds_unlessDone (Option.some.inj hm) rfl rfl fun _ => .settled h
      · cases hm; exact .settled h
    · cases hm
  · rename_i h
    unfold Loop.after at hm
    split at hm
    · exact rounds_unlessDone (Option.some.inj hm) rfl rfl fun _ => .armed h
    · cases hm
  · rename_i h
    unfold Loop.waiting at hm
    split at hm
    · split at hm
      · cases hm
      · rename_i hctx; cases hm; exact .stopped hctx rfl rfl rfl
    · split at hm
      · cases hm; exact .notified h
      · cases hm
    · split at hm
      · split at hm
        · cases hm; exact .fired h
        · cases hm
      · cases hm
    · cases hm
  · cases hm
  · cases hm
  · cases hm

end Inversion

/-! ## All steps -/

/-- **The steps of the scheduler**, as a relation between two states. -/
inductive Schedules (isPrint : ℕ → Bool) (S : Scheduler) : SchedulerAction → Scheduler → Prop
  | process {a : Action} {core : State} (hserves : a.serves S.core = true)
      (hs : Steps isPrint S.core a core) :
      Schedules isPrint S (.process a) ⟨core, S.awaited a⟩
  | notified : Schedules isPrint S .notify { S with loop := { S.loop with ready := true } }
  | shut {e : ContextError} (hp : ∀ current sid, S.loop.place ≠ .running current sid) :
      Schedules isPrint S (.shutdown e) { S with loop := { S.loop with ctxErr := some e } }
  | shut_running {e : ContextError} {core : State} {current : JobRecord} {sid : SessionID}
      (hp : S.loop.place = .running current sid) (hs : Steps isPrint S.core (.cancel sid e) core) :
      Schedules isPrint S (.shutdown e) ⟨core, { S.loop with ctxErr := some e }⟩
  | conflicted {m : Sampler} {current : JobRecord} (hp : S.loop.place = .claim current) :
      Schedules isPrint S (.loop .go m) { S with
        loop := S.loop.goto (.returned current (Scheduler.conflict isPrint current) true) }
  | claimed {m : Sampler} {current : JobRecord} (hp : S.loop.place = .claim current)
      (hctx : S.loop.ctxErr = none)
      (hs : Steps isPrint S.core (.recover current none)
        (S.core.claim (State.recoverySession isPrint current none))) :
      Schedules isPrint S (.loop .go m)
        ⟨S.core.claim (State.recoverySession isPrint current none),
          S.loop.goto (.running current S.core.nextSession)⟩
  | round {c : LoopChoice} {m : Sampler} {L : Loop}
      (hp : ∀ current sid, S.loop.place ≠ .running current sid)
      (h : Rounds isPrint S.core S.loop m c L) :
      Schedules isPrint S (.loop c m) { S with loop := L }

variable {isPrint : ℕ → Bool} {S S' : Scheduler} {a : SchedulerAction}

theorem schedules_claim {m : Sampler} {current : JobRecord} (hp : S.loop.place = .claim current)
    (h : S.claim isPrint current = some S') : Schedules isPrint S (.loop .go m) S' := by
  unfold Scheduler.claim at h
  split at h
  · rename_i e hctx
    cases h
    exact .round (by simp [hp]) (.stopped (by simp [hctx]) rfl rfl rfl)
  · rename_i hctx
    split at h
    · cases h
    · rename_i core hr
      cases h
      unfold State.recover at hr
      split at hr
      · cases hr
      · rename_i hph
        by_cases hst : current.state = .recovering
        · simp only [hst, ne_eq, not_true_eq_false, if_false, false_or] at hr ⊢
          rcases steps_tryClaim hr with heq | ⟨hmu, hj, rfl⟩
          · -- The state as it was: the job was active.
            have hact : current.jobID ∈ S.core.activeJobs := by
              by_contra hj
              unfold State.tryClaim at hr
              split at hr
              · rw [if_neg (show (State.recoverySession isPrint current none).jobID ∉
                  S.core.activeJobs from hj)] at hr
                have hnext := congrArg State.nextSession ((Option.some.inj hr).trans heq)
                simp [State.claim] at hnext
              · cases hr
            subst heq
            rw [if_pos hact]
            exact .conflicted hp
          · rw [if_neg (show current.jobID ∉ S.core.activeJobs from hj)]
            exact .claimed hp hctx (.recovered (by simpa using hph) hmu hst hj)
        · simp only [hst, ne_eq, not_false_eq_true, if_true, true_or] at hr ⊢
          cases hr
          exact .conflicted hp

/-- **Every step of the scheduler is one of these.** -/
theorem schedules_of_step (h : S.step isPrint a = some S') : Schedules isPrint S a S' := by
  cases a with
  | process a =>
    simp only [Scheduler.step, Scheduler.process] at h
    split at h
    · rename_i hserves
      obtain ⟨core, hs, rfl⟩ := Option.map_eq_some_iff.1 h
      exact .process hserves (steps_of_step hs)
    · cases h
  | notify => simp only [Scheduler.step] at h; cases h; exact .notified
  | shutdown e =>
    simp only [Scheduler.step, Scheduler.shutdown] at h
    split at h
    · cases h
    · split at h
      · rename_i current sid hp
        obtain ⟨core, hs, rfl⟩ := Option.map_eq_some_iff.1 h
        exact .shut_running hp (steps_cancel hs)
      · rename_i hp
        cases h
        exact .shut hp
  | loop c m =>
    simp only [Scheduler.step] at h
    split at h
    · rename_i current hp
      split at h
      · rename_i hc; subst hc; exact schedules_claim hp h
      · cases h
    · obtain ⟨L, hm, rfl⟩ := Option.map_eq_some_iff.1 h
      refine .round (fun current sid hp => ?_) (rounds_of_move hm)
      simp [Loop.move, hp] at hm

/-- **Where the loop is behind a step of the process**: where it was, or
past the session it waited for. -/
theorem awaited_cases (a : Action) :
    (S.awaited a = S.loop ∧ ∀ current sid c x out, S.loop.place = .running current sid →
      a = .session sid c → S.core.sessions sid = some x → x.pc ≠ .release out) ∨
      ∃ current sid c x out, S.loop.place = .running current sid ∧ a = .session sid c ∧
        S.core.sessions sid = some x ∧ x.pc = .release out ∧
        S.awaited a = S.loop.goto (.returned current x.result (!out.isOk)) := by
  unfold Scheduler.awaited
  split
  · rename_i current sid i c hp
    split
    · rename_i hi
      subst hi
      unfold Scheduler.returns
      cases hx : S.core.sessions i with
      | none =>
        refine .inl ⟨rfl, fun current' sid' c' x out hp' ha hx' _ => ?_⟩
        cases ha
        rw [hx] at hx'
        cases hx'
      | some x =>
        cases hpc : x.pc with
        | release out => exact .inr ⟨current, i, c, x, out, hp, rfl, hx, hpc, by simp [hpc]⟩
        | _ =>
          refine .inl ⟨by simp [hpc], fun current' sid' c' x' out hp' ha hx' hpc' => ?_⟩
          cases ha
          rw [hx] at hx'
          cases hx'
          rw [hpc] at hpc'
          cases hpc'
    · rename_i hi
      refine .inl ⟨rfl, fun current' sid' c' x out hp' ha _ _ => ?_⟩
      rw [hp] at hp'
      cases hp'
      cases ha
      exact hi rfl
  · rename_i hno
    refine .inl ⟨rfl, fun current sid c x out hp ha _ _ => ?_⟩
    exact hno current sid sid c hp ha

/-- **Where a step leaves the loop**: it is a step of the loop's own, or
leaves the loop where it was, or the session of the job in hand begins or
ends. -/
theorem Schedules.moves (hs : Schedules isPrint S a S') :
    (∃ c m L, Rounds isPrint S.core S.loop m c L ∧ S' = { S with loop := L }) ∨
      (S'.loop.schedule = S.loop.schedule ∧ S'.loop.place = S.loop.place) ∨
      ∃ current, (S.loop.place = .claim current ∨ ∃ sid, S.loop.place = .running current sid) ∧
        ((∃ result failed, S'.loop.place = .returned current result failed) ∨
          ∃ sid, S'.loop.place = .running current sid) ∧ S'.loop.schedule = S.loop.schedule := by
  cases hs with
  | @process a core hserves hs =>
    rcases awaited_cases (S := S) a with ⟨heq, -⟩ | ⟨current, sid, _, _, _, hp, -, -, -, heq⟩
    · exact .inr (.inl ⟨congrArg Loop.schedule heq, congrArg Loop.place heq⟩)
    · have hq : (S.awaited a).schedule = S.loop.schedule := by rw [heq]; rfl
      exact .inr (.inr ⟨current, .inr ⟨sid, hp⟩, .inl ⟨_, _, congrArg Loop.place heq⟩, hq⟩)
  | conflicted hp => exact .inr (.inr ⟨_, .inl hp, .inl ⟨_, _, rfl⟩, rfl⟩)
  | claimed hp => exact .inr (.inr ⟨_, .inl hp, .inr ⟨_, rfl⟩, rfl⟩)
  | round _ hr => exact .inl ⟨_, _, _, hr, rfl⟩
  | _ => exact .inr (.inl ⟨rfl, rfl⟩)

end Coordinator

end ZkRuntime
