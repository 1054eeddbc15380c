import ZkRuntime.Coordinator.Helpers.Rounds
/-!
# The scheduler's sessions

A recovery session is the one the loop waits for, and there is none while
it waits for none. So while the scheduler runs a job becomes `Recovering`
by the session the loop waits for and by nothing else.
-/

namespace ZkRuntime

namespace Coordinator

variable {isPrint : ℕ → Bool} {s s' : State} {a : Action} {S S' : Scheduler}

/-- A failed `Save` of the step leaves the store unchanged. -/
def Action.atomic : Action → Bool
  | .session _ c => c.atomic
  | _ => true

def SchedulerAction.atomic : SchedulerAction → Bool
  | .process a => a.atomic
  | _ => true

/-! ## Steps of the process -/

theorem Action.running_of_serves (h : a.serves s = true) : a.running = true := by
  cases a <;> simp_all [Action.serves, Action.running]

/-- **Who makes a job `Recovering`**: a recovery session on it. -/
theorem recovering_before (hs : Steps isPrint s a s') (hrun : a.running = true) (ht : Tracked s)
    (hside : ∀ {sid x}, s.sessions sid = some x → Sided x) {j : JobID} {row : JobRecord}
    (hr : RecoveringRow s' j row) :
    RecoveringRow s j row ∨ ∃ sid x c, a = .session sid c ∧ s.sessions sid = some x ∧
      x.jobID = j ∧ x.source.isRecovery = true := by
  cases hs with
  | marked => simp [Action.running] at hrun
  | mark_fails => simp [Action.running] at hrun
  | @session sid c x m hx hmu hm =>
    have hmoves := moves_of_move hm
    rcases load_apply (s := s) (e := m.effect) (j := x.jobID) (k := j) with h | ⟨r, he, rfl, h⟩
    · exact .inl ⟨h.symm.trans hr.1, hr.2⟩
    · have hrow : r = row := Option.some.inj (h.symm.trans hr.1)
      subst hrow
      obtain ⟨er, r', hpc, -⟩ := hmoves.repairs_of_recovering (ht.tracks hx) he hr.2
      refine .inr ⟨sid, x, c, rfl, hx, ?_, hside hx (by simp [hpc, Pc.repairs])⟩
      exact (hmoves.writes (ht.tracks hx) he).jobID_eq.symm
  | _ => exact .inl hr

/-- A session goes with its release and not before. -/
theorem next_none_iff {x : Session} {c : Choice} {m : Move} (hm : x.move s isPrint c = some m) :
    m.next = none ↔ ∃ out, x.pc = .release out := by
  have hmoves := moves_of_move hm
  generalize m.effect = e at hmoves
  generalize m.next = next at hmoves
  constructor
  · rintro rfl
    cases hmoves with
    | released h => exact ⟨_, h⟩
  · rintro ⟨out, hpc⟩
    cases hmoves with
    | released => rfl
    | _ => simp_all [Pc.readsContext, Pc.attempt]

/-- **A session goes on, or releases its job**, while the process serves. -/
theorem session_goes {sid : SessionID} {x : Session} (hs : Steps isPrint s a s')
    (hrun : a.running = true) (ht : Tracked s) (hx : s.sessions sid = some x) :
    (∃ x', s'.sessions sid = some x' ∧ x'.source = x.source ∧ x'.jobID = x.jobID ∧
      ∀ c out, a = .session sid c → x.pc ≠ .release out) ∨
      (s'.sessions sid = none ∧ ∃ c out, a = .session sid c ∧ x.pc = .release out) := by
  rcases session_after ht hs hx with ⟨c, m, rfl, htook⟩ | ⟨x', hx', hidle, hne⟩ | hnone
  · have hnext : s'.sessions sid = m.next := by rw [htook.eq, sessions_advance_self]
    cases hm : m.next with
    | none =>
      obtain ⟨out, hpc⟩ := (next_none_iff htook.move).1 hm
      exact .inr ⟨hnext.trans hm, c, out, rfl, hpc⟩
    | some x' =>
      have hmoves := htook.moves
      rw [hm] at hmoves
      refine .inl ⟨x', hnext.trans hm, hmoves.source_eq, hmoves.jobID_eq, fun c' out _ hpc => ?_⟩
      rw [(next_none_iff htook.move).2 ⟨out, hpc⟩] at hm
      cases hm
  · refine .inl ⟨x', hx', hidle.source, hidle.jobID, ?_⟩
    rintro c out rfl
    simp [Action.session?] at hne
  · rw [hrun] at hnone
    cases hnone

/-! ## The loop and its session -/

/-- What the sessions of a process with a scheduler know. -/
structure Knows (isPrint : ℕ → Bool) (s : State) (x : Session) : Prop where
  unpublished : Unpublished s x
  sided : Sided x
  retrying : ∀ current, x.source = .recovery current → Retrying isPrint s current x

/-- **The loop attends to the recoveries.** -/
structure Attended (isPrint : ℕ → Bool) (S : Scheduler) : Prop where
  tracked : Tracked S.core
  knows : ∀ {sid x}, S.core.sessions sid = some x → Knows isPrint S.core x
  awaited : ∀ {sid x current}, S.core.sessions sid = some x → x.source = .recovery current →
    S.loop.place = .running current sid
  runs : ∀ {current sid}, S.loop.place = .running current sid →
    ∃ x, S.core.sessions sid = some x ∧ x.source = .recovery current

/-- A step of the process keeps what its sessions know. -/
theorem knows_step (hs : Steps isPrint s a s') (hat : a.atomic = true) (ht : Tracked s)
    (hk : ∀ {sid x}, s.sessions sid = some x → Knows isPrint s x)
    (hrec : ∀ snapshot ctxErr, a = .recover snapshot ctxErr →
      ctxErr = none ∧ ∀ row, RecoveringRow s snapshot.jobID row → row = snapshot) :
    ∀ sid x, s'.sessions sid = some x → Knows isPrint s' x := by
  refine sessions_step ?_ ht hs ?_ ?_ ?_ ?_ hk
  · -- Others do not change what a session knows.
    intro s s' x h ha hd _
    exact ⟨fun hn => ⟨fun hb => by rw [ha.memory]; exact (h.unpublished hn).memory hb,
      (h.unpublished hn).finalizes⟩, h.sided, fun current hsrc => (h.retrying current hsrc).frame ha⟩
  · intro sid c e x x' hact hx h hm
    subst hact
    refine ⟨h.unpublished.move hm, h.sided.move hm, fun current hsrc => ?_⟩
    rw [hm.source_eq] at hsrc
    exact (h.retrying current hsrc).move hm (by rw [hsrc]; rfl) hat (ht.tracks hx) h.unpublished
  · intro req spec hv
    refine ⟨fun _ => ⟨(fun hb => by simp [State.submitSession, Pc.begun] at hb), rfl⟩, ?_, ?_⟩
    · intro hr
      simp [State.submitSession, Pc.repairs] at hr
    · intro current hsrc
      cases hsrc
  · intro snapshot ctxErr hact
    obtain ⟨rfl, hrow⟩ := hrec snapshot ctxErr hact
    refine ⟨fun _ => ⟨(fun hb => by simp [State.recoverySession, Pc.begun] at hb), rfl⟩, ?_, ?_⟩
    · intro hr
      simp [State.recoverySession, Pc.repairs] at hr
    · intro current hsrc
      cases hsrc
      exact retrying_begins hrow
  · intro x e hctx h
    exact ⟨fun hn => ⟨(h.unpublished hn).memory, (h.unpublished hn).finalizes⟩, h.sided,
      fun current hsrc =>
      have hr := h.retrying current hsrc
      ⟨hr.jobID, hr.spec, hr.hash, ⟨hr.progress.side, hr.progress.begun, hr.progress.executed,
        hr.progress.fresh⟩, hr.unpublished, hr.published, hr.repairing, hr.live, hr.leaves, hr.ok⟩⟩

/-- A step of the process with the loop where it was, or past the session
that released its job. -/
theorem Attended.process {core : State} (h : Attended isPrint S) (hserves : a.serves S.core = true)
    (hat : a.atomic = true) (hs : Steps isPrint S.core a core) :
    Attended isPrint ⟨core, S.awaited a⟩ := by
  have hrun := Action.running_of_serves hserves
  have hnorec : ∀ snapshot ctxErr, a ≠ .recover snapshot ctxErr := by
    rintro snapshot ctxErr rfl
    simp [Action.serves] at hserves
  refine ⟨h.tracked.step hs, fun hx => knows_step hs hat h.tracked h.knows
    (fun _ _ heq => absurd heq (hnorec _ _)) _ _ hx, fun {sid x' current} hx' hsrc => ?_,
    fun {current sid} hp => ?_⟩
  · -- A recovery that lives was there before, and has not just released its job.
    have hold : ∃ x, S.core.sessions sid = some x ∧ x.source = .recovery current := by
      rcases session_before hs hx' with ⟨x, hx, hidle⟩ | ⟨x, c, m, -, htook, hnext⟩ | ⟨hb, -⟩
      · exact ⟨x, hx, hidle.source.symm.trans hsrc⟩
      · have hmoves := htook.moves
        rw [hnext] at hmoves
        exact ⟨x, htook.live, hmoves.source_eq.symm.trans hsrc⟩
      · cases hb with
        | submit => cases hsrc
        | recover => exact absurd rfl (hnorec _ _)
    obtain ⟨x, hx, hxsrc⟩ := hold
    have hp := h.awaited hx hxsrc
    rcases awaited_cases (S := S) a with ⟨heq, -⟩ | ⟨current', sid', c, y, out, hp', ha, hy, hpc, -⟩
    · show (S.awaited a).place = _
      rw [heq]
      exact hp
    · rw [hp] at hp'
      cases hp'
      rcases session_goes hs hrun h.tracked hy with ⟨-, -, -, -, hne⟩ | ⟨hnone, -⟩
      · exact absurd hpc (hne c out ha)
      · exact absurd (hnone.symm.trans hx') (by simp)
  · rcases awaited_cases (S := S) a with ⟨heq, hne⟩ | ⟨current', sid', c, y, out, -, -, -, -, heq⟩
    · have hp' : S.loop.place = .running current sid := by rw [← heq]; exact hp
      obtain ⟨x, hx, hsrc⟩ := h.runs hp'
      rcases session_goes hs hrun h.tracked hx with ⟨x', hx', hsrc', -⟩ | ⟨-, c, out, ha, hpc⟩
      · exact ⟨x', hx', hsrc'.trans hsrc⟩
      · exact absurd hpc (hne _ _ _ _ _ hp' ha hx)
    · have hp' : (S.awaited a).place = .running current sid := hp
      rw [heq] at hp'
      cases hp'

/-- The loop alone moves, and does not wait for a session. -/
theorem Attended.loop {L : Loop} (h : Attended isPrint S)
    (hp : ∀ current sid, S.loop.place ≠ .running current sid)
    (hp' : ∀ current sid, L.place ≠ .running current sid) :
    Attended isPrint { S with loop := L } :=
  ⟨h.tracked, h.knows, fun hx hsrc => absurd (h.awaited hx hsrc) (hp _ _),
    fun hr => absurd hr (hp' _ _)⟩

theorem Rounds.not_running {L L' : Loop} {m : Sampler} {c : LoopChoice}
    (h : Rounds isPrint s L m c L') (current : JobRecord) (sid : SessionID) :
    L'.place ≠ .running current sid := by
  cases h with
  | stopped _ _ _ hp => simp [hp]
  | skipped h => simp [h]
  | cooling h => simp [h]
  | _ => simp [Loop.goto]

/-- **Every step of the scheduler keeps its sessions attended to.** -/
theorem Attended.step {act : SchedulerAction} (h : Attended isPrint S)
    (hs : Schedules isPrint S act S') (hat : act.atomic = true)
    (hclaim : ∀ current, S.loop.place = .claim current →
      ∀ row, RecoveringRow S.core current.jobID row → row = current) : Attended isPrint S' := by
  cases hs with
  | process hserves hs => exact h.process hserves hat hs
  | notified => exact ⟨h.tracked, h.knows, h.awaited, h.runs⟩
  | shut hp => exact ⟨h.tracked, h.knows, h.awaited, h.runs⟩
  | @shut_running e core current sid hp hs =>
    have hrun : (Action.cancel sid e).running = true := rfl
    refine ⟨h.tracked.step hs, fun hx => knows_step hs rfl h.tracked h.knows
      (fun _ _ heq => by cases heq) _ _ hx, fun {i x' current'} hx' hsrc => ?_,
      fun {current' i} hr => ?_⟩
    · rcases session_before hs hx' with ⟨x, hx, hidle⟩ | ⟨x, c, m, ha, -⟩ | ⟨hb, -⟩
      · exact h.awaited hx (hidle.source.symm.trans hsrc)
      · cases ha
      · cases hb
    · obtain ⟨x, hx, hsrc⟩ := h.runs hr
      rcases session_goes hs hrun h.tracked hx with ⟨x', hx', hsrc', -⟩ | ⟨-, c, out, ha, -⟩
      · exact ⟨x', hx', hsrc'.trans hsrc⟩
      · cases ha
  | conflicted hp => exact h.loop (by simp [hp]) (by simp [Loop.goto])
  | @claimed m current hp hctx hs =>
    have hnone : ∀ {sid x cur}, S.core.sessions sid = some x → x.source ≠ .recovery cur :=
      fun hx hsrc => by
        have hr := h.awaited hx hsrc
        rw [hp] at hr
        cases hr
    refine ⟨h.tracked.step hs, fun hx => knows_step hs rfl h.tracked h.knows ?_ _ _ hx,
      fun {sid x' current'} hx' hsrc => ?_, fun {current' sid} hr => ?_⟩
    · rintro snapshot ctxErr heq
      cases heq
      exact ⟨rfl, hclaim current hp⟩
    · rcases session_before hs hx' with ⟨x, hx, hidle⟩ | ⟨x, c, m, ha, -⟩ | ⟨hb, heq, hsid, -⟩
      · exact absurd (hidle.source.symm.trans hsrc) (hnone hx)
      · cases ha
      · cases hb
        cases hsrc
        show Place.running current S.core.nextSession = Place.running current sid
        rw [hsid]
    · cases hr
      exact ⟨_, Function.update_self _ _ _, rfl⟩
  | round hp hr => exact h.loop hp fun current sid => hr.not_running current sid

end Coordinator

end ZkRuntime
