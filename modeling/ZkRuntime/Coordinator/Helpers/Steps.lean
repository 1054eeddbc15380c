import ZkRuntime.Coordinator.Helpers.Moves
/-!
# What a step of the coordinator can be

`State.step` taken apart once, as `Moves` takes a session's step apart.
-/

namespace ZkRuntime

namespace Coordinator

/-- The session a step is of, where it is a session's. -/
def Action.session? : Action → Option SessionID
  | .session sid _ => some sid
  | _ => none

/-- The actions a process may end with. -/
def Action.stops : Action → Bool
  | .crash | .checkDisabledZK _ | .listRunning _ | .markRecovering _ => true
  | _ => false

/-- The actions of a process that serves, and goes on serving. -/
def Action.running : Action → Bool
  | .tick _ | .registerWorker .. | .heartbeat _ | .checkLiveness _ | .submit .. | .recover ..
  | .cancel .. | .deliver .. | .session .. => true
  | _ => false

theorem Action.running_of_stops {a : Action} (h : a.stops = true) : a.running = false := by
  cases a <;> simp_all [Action.stops, Action.running]

/-- The registry behind an action that writes it. -/
def Action.registryAfter (s : State) : Action → Option Registry
  | .registerWorker id address => some (s.registry.registerWorker id address s.now)
  | .heartbeat id => some (s.registry.heartbeat id s.now)
  | .checkLiveness timeout => some (s.registry.checkWorkerLiveness timeout s.now)
  | _ => none

/-- **The steps of the coordinator**, as a relation between two states. -/
inductive Steps (isPrint : ℕ → Bool) (s : State) : Action → State → Prop
  | tick (d : ℕ) : Steps isPrint s (.tick d) { s with now := s.now + d }
  /-- A crash, or a startup that gives up. -/
  | stopped {a : Action} (ha : a.stops = true) : Steps isPrint s a (s.restart .down s.config)
  | booted (cfg : Config) : Steps isPrint s (.boot cfg) (s.restart .starting cfg)
  | checked (fails : Bool) (h : s.phase = .starting)
      (hzk : s.config.zkDisabled = true → s.unfinishedZK = false) :
      Steps isPrint s (.checkDisabledZK fails) { s with phase := .checked }
  | listed {rows : List JobRecord} (h : s.phase = .checked)
      (hp : rows.Perm (s.store.listByState .running)) :
      Steps isPrint s (.listRunning (some rows)) { s with phase := .marking rows }
  | unmarked {row : JobRecord} {rows : List JobRecord} {e : SpecError}
      (h : s.phase = .marking (row :: rows))
      (hv : validateJobSpec (jobSpecFromRecord row) = .error e) :
      Steps isPrint s (.markRecovering .go) { s with phase := .marking rows }
  | marked {row : JobRecord} {rows : List JobRecord} {spec : JobSpec}
      (h : s.phase = .marking (row :: rows))
      (hv : validateJobSpec (jobSpecFromRecord row) = .ok spec) :
      Steps isPrint s (.markRecovering .go)
        { s with store := s.store.save (State.recoveringRow row spec), phase := .marking rows }
  | mark_fails {row : JobRecord} {rows : List JobRecord} {spec : JobSpec}
      (h : s.phase = .marking (row :: rows))
      (hv : validateJobSpec (jobSpecFromRecord row) = .ok spec) :
      Steps isPrint s (.markRecovering (.saveFails true))
        ({ s with store := s.store.save (State.recoveringRow row spec) }.restart .down s.config)
  | served (h : s.phase = .marking []) : Steps isPrint s .serve { s with phase := .serving }
  | registry {a : Action} (r : Registry) (ha : a.session? = none) (h : s.phase = .serving)
      (hmu : s.mu = none) (hr : a.registryAfter s = some r) :
      Steps isPrint s a { s with registry := r }
  /-- A submission or a recovery that ends before its claim, or is refused it. -/
  | refused {a : Action} (ha : a.session? = none) : Steps isPrint s a s
  | submitted {req : SubmitJobRequest} {spec : JobSpec} (h : s.phase = .serving)
      (hmu : s.mu = none) (hzk : checkZKAvailable s.config req.taskType = true)
      (hv : validateJobSpec (jobSpecFromRequest req) = .ok spec) (hj : spec.jobID ∉ s.activeJobs) :
      Steps isPrint s (.submit req none) (s.claim (State.submitSession req spec))
  | recovered {snapshot : JobRecord} {ctxErr : Option ContextError} (h : s.phase = .serving)
      (hmu : s.mu = none) (hst : snapshot.state = .recovering)
      (hj : snapshot.jobID ∉ s.activeJobs) :
      Steps isPrint s (.recover snapshot ctxErr)
        (s.claim (State.recoverySession isPrint snapshot ctxErr))
  | cancelled {sid : SessionID} {e : ContextError} {x : Session} (hx : s.sessions sid = some x)
      (hctx : x.ctxErr = none) :
      Steps isPrint s (.cancel sid e)
        { s with sessions := Function.update s.sessions sid (some { x with ctxErr := some e }) }
  | delivered {did : DispatchID} {res : DispatchResult} {d : Dispatch}
      (hd : s.dispatches did = some d) (hres : d.result = none) :
      Steps isPrint s (.deliver did res)
        { s with
          dispatches := Function.update s.dispatches did (some { d with result := some res }) }
  | session {sid : SessionID} {c : Choice} {x : Session} {m : Move} (hx : s.sessions sid = some x)
      (hmu : x.usesMu = true → s.mu = if x.holdsMu then some sid else none)
      (hm : x.move s isPrint c = some m) :
      Steps isPrint s (.session sid c) (s.advance sid x m)

variable {isPrint : ℕ → Bool} {s s' : State} {a : Action}

theorem steps_tryClaim {x : Session} (h : s.tryClaim x = some s') :
    s' = s ∨ (s.mu = none ∧ x.jobID ∉ s.activeJobs ∧ s' = s.claim x) := by
  unfold State.tryClaim at h
  split at h
  · rename_i hmu
    split at h
    · cases h; exact .inl rfl
    · rename_i hj; cases h; exact .inr ⟨hmu, hj, rfl⟩
  · cases h

theorem steps_submit {req : SubmitJobRequest} {ctxErr : Option ContextError}
    (h : s.submit req ctxErr = some s') : Steps isPrint s (.submit req ctxErr) s' := by
  unfold State.submit at h
  split at h
  · cases h
  · rename_i hph
    split at h
    · cases h; exact .refused rfl
    · rename_i hctx
      split at h
      · cases h; exact .refused rfl
      · rename_i hzk
        split at h
        · cases h; exact .refused rfl
        · rename_i hv
          rcases steps_tryClaim h with rfl | ⟨hmu, hj, rfl⟩
          · exact .refused rfl
          · have hnone : ctxErr = none := by simpa using hctx
            subst hnone
            exact .submitted (by simpa using hph) hmu (by simpa using hzk) hv hj

theorem steps_recover {snapshot : JobRecord} {ctxErr : Option ContextError}
    (h : s.recover isPrint snapshot ctxErr = some s') :
    Steps isPrint s (.recover snapshot ctxErr) s' := by
  unfold State.recover at h
  split at h
  · cases h
  · rename_i hph
    split at h
    · cases h; exact .refused rfl
    · rename_i hst
      rcases steps_tryClaim h with rfl | ⟨hmu, hj, rfl⟩
      · exact .refused rfl
      · exact .recovered (by simpa using hph) hmu (by simpa using hst) hj

theorem steps_sessionStep {sid : SessionID} {c : Choice} (h : s.sessionStep isPrint sid c = some s') :
    Steps isPrint s (.session sid c) s' := by
  unfold State.sessionStep at h
  split at h
  · cases h
  · rename_i x hx
    by_cases hmu : x.usesMu ∧ s.mu ≠ (if x.holdsMu then some sid else none)
    · rw [if_pos hmu] at h; cases h
    · rw [if_neg hmu] at h
      obtain ⟨m, hm, rfl⟩ := Option.map_eq_some_iff.1 h
      refine .session hx (fun hu => ?_) hm
      by_contra hne
      exact hmu ⟨hu, hne⟩

theorem steps_checkDisabledZK {fails : Bool} (h : s.checkDisabledZK fails = some s') :
    Steps isPrint s (.checkDisabledZK fails) s' := by
  unfold State.checkDisabledZK at h
  split at h
  · cases h
  · rename_i hph
    split at h
    · cases h; exact .stopped rfl
    · rename_i hzk
      cases h
      refine .checked fails (by simpa using hph) fun hd => ?_
      cases hu : s.unfinishedZK with
      | false => rfl
      | true => exact absurd ⟨hd, .inr hu⟩ hzk

theorem steps_listRunning {rows : Option (List JobRecord)} (h : s.listRunning rows = some s') :
    Steps isPrint s (.listRunning rows) s' := by
  unfold State.listRunning at h
  split at h
  · cases h
  · rename_i hph
    split at h
    · cases h; exact .stopped rfl
    · split at h
      · rename_i hp; cases h; exact .listed (by simpa using hph) hp
      · cases h

theorem steps_markRecovering {c : Choice} (h : s.markRecovering c = some s') :
    Steps isPrint s (.markRecovering c) s' := by
  unfold State.markRecovering at h
  split at h
  · rename_i hph
    split at h
    · rename_i hv
      split at h
      · rename_i hc; subst hc; cases h; exact .unmarked hph hv
      · cases h
    · rename_i hv
      split at h
      · cases h; exact .marked hph hv
      · rename_i applied
        cases h
        cases applied
        · exact .stopped rfl
        · exact .mark_fails hph hv
      · cases h
  · cases h

theorem steps_withRegistry {f : Registry → Registry} (ha : a.session? = none)
    (hf : a.registryAfter s = some (f s.registry)) (h : s.withRegistry f = some s') :
    Steps isPrint s a s' := by
  unfold State.withRegistry at h
  split at h
  · rename_i hg; cases h; exact .registry _ ha hg.1 hg.2 hf
  · cases h

theorem steps_cancel {sid : SessionID} {e : ContextError} (h : s.cancel sid e = some s') :
    Steps isPrint s (.cancel sid e) s' := by
  unfold State.cancel at h
  split at h
  · rename_i hx
    split at h
    · rename_i hctx; cases h; exact .cancelled hx hctx
    · cases h
  · cases h

theorem steps_deliver {did : DispatchID} {res : DispatchResult} (h : s.deliver did res = some s') :
    Steps isPrint s (.deliver did res) s' := by
  unfold State.deliver at h
  split at h
  · rename_i hd
    split at h
    · rename_i hres; cases h; exact .delivered hd hres
    · cases h
  · cases h

/-- **Every step of the coordinator is one of these.** -/
theorem steps_of_step (h : s.step isPrint a = some s') : Steps isPrint s a s' := by
  cases a with
  | tick d => simp only [State.step, Option.some.injEq] at h; subst h; exact .tick d
  | crash => simp only [State.step, Option.some.injEq] at h; subst h; exact .stopped rfl
  | boot cfg =>
    simp only [State.step] at h
    split at h
    · cases h; exact .booted cfg
    · cases h
  | checkDisabledZK fails => exact steps_checkDisabledZK h
  | listRunning rows => exact steps_listRunning h
  | markRecovering c => exact steps_markRecovering h
  | serve =>
    simp only [State.step] at h
    split at h
    · rename_i hph; cases h; exact .served hph
    · cases h
  | registerWorker id address => simp only [State.step] at h; exact steps_withRegistry rfl rfl h
  | heartbeat id => simp only [State.step] at h; exact steps_withRegistry rfl rfl h
  | checkLiveness timeout => simp only [State.step] at h; exact steps_withRegistry rfl rfl h
  | submit req ctxErr => exact steps_submit h
  | recover snapshot ctxErr => exact steps_recover h
  | cancel sid e => exact steps_cancel h
  | deliver did res => exact steps_deliver h
  | session sid c => exact steps_sessionStep h

end Coordinator

end ZkRuntime
