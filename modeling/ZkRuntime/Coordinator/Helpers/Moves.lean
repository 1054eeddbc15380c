import ZkRuntime.Coordinator.Model.System
/-!
# What a session's step can be

`Session.move` taken apart once: every step of a session is one of the
constructors of `Moves`, with its guards, its effect and the session behind
it. Every invariant is then a case analysis of this relation and none opens
the step function again.
-/

namespace ZkRuntime

namespace Coordinator

/-- The attempt in flight at a place, from its dispatch to its end. -/
@[grind] def Pc.attempt : Pc → Option Attempt
  | .select att | .received att _ | .fence att _ | .verify att _ _ | .accept att _ _
  | .commit att _ _ => some att
  | _ => none

/-- The places of `executeJobFromSource` that read the context. -/
@[grind] def Pc.readsContext : Pc → Bool
  | .enter | .loop | .select _ | .received .. | .accept .. | .exhausted => true
  | _ => false

/-- The store has the session's own `Running` row of the attempt `a`. -/
def OwnRow (s : State) (x : Session) (a : AttemptID) (r : JobRecord) : Prop :=
  s.store.load x.jobID = some r ∧ r.state = .running ∧ r.attemptID = a

/-- **The steps of a session**, as a relation between a session and what
its step does and leaves. -/
inductive Moves (isPrint : ℕ → Bool) (s : State) (x : Session) :
    Choice → Effect → Option Session → Prop
  | reload_fails (h : x.pc = .reload) :
      Moves isPrint s x .loadFails .silent (some (x.goto (.release .reload)))
  | reload_stale (h : x.pc = .reload)
      (hs : ∀ r, s.store.load x.jobID = some r →
        ¬ (r.state = .recovering ∧ r.attemptID = x.result.generation)) :
      Moves isPrint s x .go .silent (some (x.goto (.release .skipped)))
  | reload_current {r : JobRecord} (h : x.pc = .reload) (hr : s.store.load x.jobID = some r)
      (hst : r.state = .recovering) (ha : r.attemptID = x.result.generation) :
      Moves isPrint s x .go .silent (some { x with
        spec := jobSpecFromRecord r
        result := { x.result with specHash := recoverySpecHash isPrint r }
        pc := .readInitial })
  | initial (h : x.pc = .readInitial) :
      Moves isPrint s x .go .silent (some { x with
        initialAttempt := (s.jobAttempts x.jobID).getD 0
        result := { x.result with executed := x.source.isRecovery }
        pc := .enter })
  | context {c : Choice} {e : ContextError} (h : x.pc.readsContext = true)
      (he : x.ctxErr = some e) :
      Moves isPrint s x c .silent (some (x.goto (.failed (.context e))))
  | refused {e : ExecuteError} (h : x.pc = .enter)
      (he : e = .disabled ∨ ∃ e', e = .invalidSpec e') :
      Moves isPrint s x .go .silent (some (x.goto (.failed e)))
  | entered {spec : JobSpec} (h : x.pc = .enter)
      (hzk : checkZKAvailable s.config x.spec.taskType = true)
      (hv : validateJobSpec x.spec = .ok spec) :
      Moves isPrint s x .go .silent
        (some { x with spec := spec, i := 0, lastErr := none, pc := .loop })
  | loop_on (h : x.pc = .loop) :
      Moves isPrint s x .go .silent (some (x.goto .pick))
  | loop_over (h : x.pc = .loop) (hi : maxAttempts ≤ x.i) :
      Moves isPrint s x .go .silent (some (x.goto .exhausted))
  | pick_some {w : WorkerInfo} {r : Registry} (h : x.pc = .pick)
      (hr : r = s.registry.getNextWorker.2) :
      Moves isPrint s x .go (.registry r) (some (x.goto (.publishLoad w)))
  | pick_none {r : Registry} (h : x.pc = .pick) (hr : r = s.registry.getNextWorker.2) :
      Moves isPrint s x .go (.registry r) (some (x.goto .exhausted))
  | publishLoad_fails {w : WorkerInfo} (h : x.pc = .publishLoad w) :
      Moves isPrint s x .loadFails .silent (some (x.goto (.failed .start)))
  | publishLoaded {w : WorkerInfo} (h : x.pc = .publishLoad w) :
      Moves isPrint s x .go .silent (some (x.goto (.publishSave w
        (nextAttempt (s.jobAttempts x.jobID) (s.store.load x.jobID)))))
  | publishSave_fails {w : WorkerInfo} {a : AttemptID} {applied : Bool}
      (h : x.pc = .publishSave w a) :
      Moves isPrint s x (.saveFails applied) (.save (x.record .running a w) applied)
        (some (x.goto (.failed .start)))
  | published {w : WorkerInfo} {a : AttemptID} (h : x.pc = .publishSave w a) :
      Moves isPrint s x .go (.publish (x.record .running a w))
        (some { x with lastPublished := some a, pc := .spawn w a })
  | spawned {w : WorkerInfo} {a : AttemptID} (h : x.pc = .spawn w a) :
      Moves isPrint s x .go (.dispatch w (x.request a))
        (some (x.goto (.select ⟨w, a, s.nextDispatch, s.now + s.config.attemptLease⟩)))
  | selected {att : Attempt} {d : Dispatch} {res : DispatchResult} (h : x.pc = .select att)
      (hd : s.dispatches att.dispatch = some d) (hres : d.result = some res) :
      Moves isPrint s x .result .silent (some (x.goto (.received att res)))
  | retried {c : Choice} {att : Attempt} {f : AttemptFailure} (h : x.pc.attempt = some att)
      (hh : x.holdsMu = false) :
      Moves isPrint s x c .silent (some (x.retry f))
  | answered {att : Attempt} {res : DispatchResult} (h : x.pc = .received att res) :
      Moves isPrint s x .go .silent (some (x.goto (.fence att res.resp)))
  | status_unknown {att : Attempt} {resp : ExecuteJobResponse} (h : x.pc = .fence att (some resp))
      (hst : jobStateFromStatus resp.status = none) :
      Moves isPrint s x .go .silent
        (some (x.goto (.failed (.invalidStatus att.attemptID resp.status))))
  | fenced {att : Attempt} {resp : ExecuteJobResponse} {st : JobState}
      (h : x.pc = .fence att (some resp)) (hj : resp.jobID = x.jobID)
      (ha : resp.attemptID = att.attemptID) (hst : jobStateFromStatus resp.status = some st) :
      Moves isPrint s x .go .silent (some (x.goto (.verify att resp st)))
  | verified {att : Attempt} {resp : ExecuteJobResponse} {st : JobState}
      (h : x.pc = .verify att resp st)
      (hv : x.spec.taskType = zkTaskType → st = .succeeded →
        verifyZKPreimageResult s.config.verifier x.spec.payload resp.output = .ok ()) :
      Moves isPrint s x .go .silent (some (x.goto (.accept att resp st)))
  | accepted {att : Attempt} {resp : ExecuteJobResponse} {st : JobState}
      (h : x.pc = .accept att resp st) (hctx : x.ctxErr = none)
      (hl : isLeaseCurrent (s.leases x.jobID) att.attemptID s.now = true) :
      Moves isPrint s x .go .silent (some (x.goto (.commit att resp st)))
  | commit_fails {att : Attempt} {resp : ExecuteJobResponse} {st : JobState} {applied : Bool}
      (h : x.pc = .commit att resp st) :
      Moves isPrint s x (.saveFails applied) (.save (x.record st att.attemptID att.worker) applied)
        (some (x.goto (.failed (.persist att.attemptID))))
  | committed {att : Attempt} {resp : ExecuteJobResponse} {st : JobState}
      (h : x.pc = .commit att resp st) :
      Moves isPrint s x .go (.save (x.record st att.attemptID att.worker) true)
        (some { x with
          result := { x.result with terminal := true, generation := resp.attemptID }
          pc := .release (.accepted att resp) })
  | retries_exhausted {f : AttemptFailure} (h : x.pc = .exhausted) (hf : x.lastErr = some f) :
      Moves isPrint s x .go .silent
        (some (x.goto (.failed (.exhausted (x.lastPublished.getD 0) f))))
  | no_workers (h : x.pc = .exhausted) (hf : x.lastErr = none) :
      Moves isPrint s x .go .silent (some (x.goto (.failed .noWorkers)))
  | submit_exhausted {a : AttemptID} {f : AttemptFailure} (h : x.pc = .failed (.exhausted a f))
      (hsrc : x.source.isRecovery = false) (hctx : x.ctxErr = none) :
      Moves isPrint s x .go .silent (some (x.goto (.failLoad a f)))
  | submit_failed {e : ExecuteError} (h : x.pc = .failed e) (hsrc : x.source.isRecovery = false)
      (he : x.ctxErr ≠ none ∨ ∀ a f, e ≠ .exhausted a f) :
      Moves isPrint s x .go .silent (some (x.goto (.cancelCheck e)))
  | recovery_unpublished {e : ExecuteError} (h : x.pc = .failed e)
      (hsrc : x.source.isRecovery = true)
      (ha : ¬ x.initialAttempt < (s.jobAttempts x.jobID).getD 0) :
      Moves isPrint s x .go .silent (some (x.goto (.release (.failed e))))
  | recovery_published {e : ExecuteError} {a : AttemptID} (h : x.pc = .failed e)
      (hsrc : x.source.isRecovery = true) (hm : (s.jobAttempts x.jobID).getD 0 = a)
      (ha : x.initialAttempt < a) :
      Moves isPrint s x .go .silent (some { x with
        result := { x.result with generation := a }
        pc := .repairLoad e a })
  | failLoad_skipped {c : Choice} {a : AttemptID} {f : AttemptFailure} (h : x.pc = .failLoad a f)
      (hg : x.ctxErr ≠ none ∨ x.jobID ∉ s.activeJobs ∨ a ≤ x.initialAttempt ∨ a ≤ 0 ∨
        (s.jobAttempts x.jobID).getD 0 ≠ a) :
      Moves isPrint s x c .silent (some (x.goto (.cancelCheck (.exhausted a f))))
  | failLoad_fails {a : AttemptID} {f : AttemptFailure} (h : x.pc = .failLoad a f) :
      Moves isPrint s x .loadFails .silent
        (some (x.goto (.release (.finalize (.exhausted a f) .load))))
  | failLoaded {a : AttemptID} {f : AttemptFailure} (h : x.pc = .failLoad a f)
      (ha : x.initialAttempt < a) (hm : (s.jobAttempts x.jobID).getD 0 = a) :
      Moves isPrint s x .go .silent (some (x.goto (.failCheck a f (s.store.load x.jobID))))
  | failCheck_skipped {a : AttemptID} {f : AttemptFailure} {current : Option JobRecord}
      (h : x.pc = .failCheck a f current)
      (hg : x.ctxErr ≠ none ∨ ∀ r, current = some r →
        ¬ (r.jobID = x.jobID ∧ r.state = .running ∧ r.attemptID = a)) :
      Moves isPrint s x .go .silent (some (x.goto (.cancelCheck (.exhausted a f))))
  | failChecked {a : AttemptID} {f : AttemptFailure} {r : JobRecord}
      (h : x.pc = .failCheck a f (some r)) (hctx : x.ctxErr = none) (hst : r.state = .running)
      (ha : r.attemptID = a) :
      Moves isPrint s x .go .silent (some (x.goto (.failSave a f r)))
  | failSave_fails {a : AttemptID} {f : AttemptFailure} {r : JobRecord} {applied : Bool}
      (h : x.pc = .failSave a f r) :
      Moves isPrint s x (.saveFails applied) (.save { r with state := .failed } applied)
        (some (x.goto (.release (.finalize (.exhausted a f) .save))))
  | failSaved {a : AttemptID} {f : AttemptFailure} {r : JobRecord} (h : x.pc = .failSave a f r) :
      Moves isPrint s x .go (.save { r with state := .failed } true)
        (some (x.goto (.release (.failed (.exhausted a f)))))
  | cancelCheck_live {e : ExecuteError} (h : x.pc = .cancelCheck e) (hctx : x.ctxErr = none) :
      Moves isPrint s x .go .silent (some (x.goto (.release (.failed e))))
  | cancelCheck_ended {e : ExecuteError} {ce : ContextError} (h : x.pc = .cancelCheck e)
      (hctx : x.ctxErr = some ce) :
      Moves isPrint s x .go .silent (some (x.goto (.cancelLoad ce)))
  | cancelLoad_skipped {c : Choice} {e : ContextError} (h : x.pc = .cancelLoad e)
      (hg : (x.jobID ∉ s.activeJobs ∨ (s.jobAttempts x.jobID).getD 0 ≤ x.initialAttempt) ∨
        ∀ r, ¬ OwnRow s x ((s.jobAttempts x.jobID).getD 0) r) :
      Moves isPrint s x c .silent (some (x.goto (.release (.cancelled e))))
  | cancelLoad_fails {e : ContextError} (h : x.pc = .cancelLoad e) :
      Moves isPrint s x .loadFails .silent (some (x.goto (.release (.cancelFailed e .load))))
  | cancelLoaded {e : ContextError} {r : JobRecord} (h : x.pc = .cancelLoad e)
      (ha : x.initialAttempt < (s.jobAttempts x.jobID).getD 0)
      (hr : OwnRow s x ((s.jobAttempts x.jobID).getD 0) r) :
      Moves isPrint s x .go .silent (some (x.goto (.cancelSave e r)))
  | cancelSave_fails {e : ContextError} {r : JobRecord} {applied : Bool}
      (h : x.pc = .cancelSave e r) :
      Moves isPrint s x (.saveFails applied) (.save { r with state := .cancelled } applied)
        (some (x.goto (.release (.cancelFailed e .save))))
  | cancelSaved {e : ContextError} {r : JobRecord} (h : x.pc = .cancelSave e r) :
      Moves isPrint s x .go (.save { r with state := .cancelled } true)
        (some (x.goto (.release (.cancelled e))))
  | repairLoad_fails {e : ExecuteError} {a : AttemptID} (h : x.pc = .repairLoad e a) :
      Moves isPrint s x .loadFails .silent (some (x.repairAborted e .load))
  | repairLoad_skipped {e : ExecuteError} {a : AttemptID} (h : x.pc = .repairLoad e a)
      (hr : ∀ r, ¬ OwnRow s x a r) :
      Moves isPrint s x .go .silent (some (x.goto (.release (.failed e))))
  | repairLoaded {e : ExecuteError} {a : AttemptID} {r : JobRecord} (h : x.pc = .repairLoad e a)
      (hr : OwnRow s x a r) :
      Moves isPrint s x .go .silent (some (x.goto (.repairSave e r)))
  | repairSave_fails {e : ExecuteError} {r : JobRecord} {applied : Bool}
      (h : x.pc = .repairSave e r) :
      Moves isPrint s x (.saveFails applied) (.save { r with state := .recovering } applied)
        (some (x.repairAborted e .save))
  | repairSaved {e : ExecuteError} {r : JobRecord} (h : x.pc = .repairSave e r) :
      Moves isPrint s x .go (.save { r with state := .recovering } true)
        (some (x.goto (.release (.failed e))))
  | released {out : Outcome} (h : x.pc = .release out) :
      Moves isPrint s x .go .release none

section Inversion

variable {isPrint : ℕ → Bool} {s : State} {x : Session} {c : Choice} {m : Move}

/-! ## Place by place -/

theorem moves_reload (h : x.pc = .reload) (hm : x.reload s isPrint c = some m) :
    Moves isPrint s x c m.effect m.next := by
  unfold Session.reload at hm
  split at hm
  · cases hm; exact .reload_fails h
  · split at hm
    · rename_i r hr
      split at hm
      · rename_i hg; cases hm; exact .reload_current h hr hg.1 hg.2
      · rename_i hg
        cases hm
        refine .reload_stale h fun r' hr' => ?_
        rw [hr] at hr'
        cases hr'
        exact hg
    · rename_i hr
      cases hm
      exact .reload_stale h fun r' hr' => by simp [hr] at hr'
  · cases hm

theorem moves_readInitial (h : x.pc = .readInitial) (hm : x.readInitial s c = some m) :
    Moves isPrint s x c m.effect m.next := by
  unfold Session.readInitial at hm
  split at hm
  · cases hm; exact .initial h
  · cases hm

theorem moves_enter (h : x.pc = .enter) (hm : x.enter s c = some m) :
    Moves isPrint s x c m.effect m.next := by
  unfold Session.enter at hm
  split at hm
  · split at hm
    · rename_i he; cases hm; exact .context (by simp [h, Pc.readsContext]) he
    · split at hm
      · cases hm; exact .refused h (.inl rfl)
      · rename_i hzk
        split at hm
        · cases hm; exact .refused h (.inr ⟨_, rfl⟩)
        · rename_i hv; cases hm; exact .entered h (by simpa using hzk) hv
  · cases hm

theorem moves_loop (h : x.pc = .loop) (hm : x.loop c = some m) :
    Moves isPrint s x c m.effect m.next := by
  unfold Session.loop at hm
  split at hm
  · split at hm
    · split at hm
      · rename_i he; cases hm; exact .context (by simp [h, Pc.readsContext]) he
      · cases hm; exact .loop_on h
    · rename_i hi; cases hm; exact .loop_over h (by omega)
  · cases hm

theorem moves_pick (h : x.pc = .pick) (hm : x.pick s c = some m) :
    Moves isPrint s x c m.effect m.next := by
  unfold Session.pick at hm
  split at hm
  · split at hm
    · rename_i w r hpick; cases hm; exact .pick_some h (by rw [hpick])
    · rename_i r hpick; cases hm; exact .pick_none h (by rw [hpick])
  · cases hm

theorem moves_publishLoad {w : WorkerInfo} (h : x.pc = .publishLoad w)
    (hm : x.publishLoad s w c = some m) : Moves isPrint s x c m.effect m.next := by
  unfold Session.publishLoad at hm
  split at hm
  · cases hm; exact .publishLoad_fails h
  · cases hm; exact .publishLoaded h
  · cases hm

theorem moves_publishSave {w : WorkerInfo} {a : AttemptID} (h : x.pc = .publishSave w a)
    (hm : x.publishSave w a c = some m) : Moves isPrint s x c m.effect m.next := by
  unfold Session.publishSave at hm
  split at hm
  · cases hm; exact .publishSave_fails h
  · cases hm; exact .published h
  · cases hm

theorem moves_spawn {w : WorkerInfo} {a : AttemptID} (h : x.pc = .spawn w a)
    (hm : x.spawn s w a c = some m) : Moves isPrint s x c m.effect m.next := by
  unfold Session.spawn at hm
  split at hm
  · cases hm; exact .spawned h
  · cases hm

theorem moves_select {att : Attempt} (h : x.pc = .select att) (hm : x.select s att c = some m) :
    Moves isPrint s x c m.effect m.next := by
  have hatt : x.pc.attempt = some att := by simp [h, Pc.attempt]
  unfold Session.select at hm
  split at hm
  · split at hm
    · rename_i hres
      cases hm
      obtain ⟨d, hd, hd'⟩ := Option.bind_eq_some_iff.1 hres
      exact .selected h hd hd'
    · cases hm
  · split at hm
    · cases hm; exact .retried hatt (by simp [Session.holdsMu, h])
    · cases hm
  · split at hm
    · rename_i he; cases hm; exact .context (by simp [h, Pc.readsContext]) he
    · cases hm
  · cases hm

theorem moves_received {att : Attempt} {res : DispatchResult} (h : x.pc = .received att res)
    (hm : x.received att res c = some m) : Moves isPrint s x c m.effect m.next := by
  unfold Session.received at hm
  split at hm
  · split at hm
    · rename_i he; cases hm; exact .context (by simp [h, Pc.readsContext]) he
    · split at hm
      · cases hm
        exact .retried (show x.pc.attempt = some att by simp [h, Pc.attempt])
          (by simp [Session.holdsMu, h])
      · cases hm; exact .answered h
  · cases hm

theorem moves_fence {att : Attempt} {resp : Option ExecuteJobResponse} (h : x.pc = .fence att resp)
    (hm : x.fence s att resp c = some m) : Moves isPrint s x c m.effect m.next := by
  have hatt : x.pc.attempt = some att := by simp [h, Pc.attempt]
  have hmu : x.holdsMu = false := by simp [Session.holdsMu, h]
  unfold Session.fence at hm
  split at hm
  · split at hm
    · cases hm; exact .retried hatt hmu
    · split at hm
      · cases hm; exact .retried hatt hmu
      · rename_i hg
        push Not at hg
        split at hm
        · rename_i hst; cases hm; exact .status_unknown h hst
        · rename_i hst; cases hm; exact .fenced h hg.1 hg.2.1 hst
  · cases hm

theorem moves_verify {att : Attempt} {resp : ExecuteJobResponse} {st : JobState}
    (h : x.pc = .verify att resp st) (hm : x.verify s att resp st c = some m) :
    Moves isPrint s x c m.effect m.next := by
  unfold Session.verify at hm
  split at hm
  · split at hm
    · split at hm
      · cases hm
        exact .retried (show x.pc.attempt = some att by simp [h, Pc.attempt])
          (by simp [Session.holdsMu, h])
      · rename_i hv; cases hm; exact .verified h fun _ _ => hv
    · rename_i hg; cases hm; exact .verified h fun h1 h2 => absurd ⟨h1, h2⟩ hg
  · cases hm

theorem moves_accept {att : Attempt} {resp : ExecuteJobResponse} {st : JobState}
    (h : x.pc = .accept att resp st) (hm : x.accept s att resp st c = some m) :
    Moves isPrint s x c m.effect m.next := by
  unfold Session.accept at hm
  split at hm
  · split at hm
    · rename_i he; cases hm; exact .context (by simp [h, Pc.readsContext]) he
    · rename_i he
      split at hm
      · rename_i hl; cases hm; exact .accepted h he hl
      · cases hm
        exact .retried (show x.pc.attempt = some att by simp [h, Pc.attempt])
          (by simp [Session.holdsMu, h])
  · cases hm

theorem moves_commit {att : Attempt} {resp : ExecuteJobResponse} {st : JobState}
    (h : x.pc = .commit att resp st) (hm : x.commit att resp st c = some m) :
    Moves isPrint s x c m.effect m.next := by
  unfold Session.commit at hm
  split at hm
  · cases hm; exact .commit_fails h
  · cases hm; exact .committed h
  · cases hm

theorem moves_exhausted (h : x.pc = .exhausted) (hm : x.exhausted c = some m) :
    Moves isPrint s x c m.effect m.next := by
  unfold Session.exhausted at hm
  split at hm
  · split at hm
    · rename_i he; cases hm; exact .context (by simp [h, Pc.readsContext]) he
    · split at hm
      · rename_i hf; cases hm; exact .retries_exhausted h hf
      · rename_i hf; cases hm; exact .no_workers h hf
  · cases hm

theorem moves_failed {e : ExecuteError} (h : x.pc = .failed e) (hm : x.failed s e c = some m) :
    Moves isPrint s x c m.effect m.next := by
  unfold Session.failed at hm
  split at hm
  · split at hm
    · rename_i hsrc
      split at hm
      · rename_i hctx
        cases hm
        exact .submit_exhausted h (by simp [hsrc, Source.isRecovery]) hctx
      · rename_i he
        cases hm
        refine .submit_failed h (by simp [hsrc, Source.isRecovery]) ?_
        by_cases hctx : x.ctxErr = none
        · exact .inr fun a f heq => he a f hctx heq
        · exact .inl hctx
    · rename_i hsrc
      dsimp only at hm
      split at hm
      · rename_i ha
        cases hm
        exact .recovery_published h (by simp [hsrc, Source.isRecovery]) rfl ha
      · rename_i ha
        cases hm
        exact .recovery_unpublished h (by simp [hsrc, Source.isRecovery]) ha
  · cases hm

theorem moves_failLoad {a : AttemptID} {f : AttemptFailure} (h : x.pc = .failLoad a f)
    (hm : x.failLoad s a f c = some m) : Moves isPrint s x c m.effect m.next := by
  unfold Session.failLoad at hm
  split at hm
  · split at hm
    · rename_i hg; cases hm; exact .failLoad_skipped h hg
    · rename_i hg
      push Not at hg
      cases hm
      exact .failLoaded h (Int64.not_le.1 (by simpa using hg.2.2.1)) hg.2.2.2.2
  · split at hm
    · rename_i hg; cases hm; exact .failLoad_skipped h hg
    · cases hm; exact .failLoad_fails h
  · cases hm

theorem moves_failCheck {a : AttemptID} {f : AttemptFailure} {current : Option JobRecord}
    (h : x.pc = .failCheck a f current) (hm : x.failCheck a f current c = some m) :
    Moves isPrint s x c m.effect m.next := by
  unfold Session.failCheck at hm
  split at hm
  · split at hm
    · rename_i r hctx
      split at hm
      · rename_i hg; cases hm; exact .failChecked h hctx hg.2.1 hg.2.2
      · rename_i hg
        cases hm
        refine .failCheck_skipped h (.inr fun r' hr' => ?_)
        cases hr'
        exact hg
    · rename_i hg
      cases hm
      refine .failCheck_skipped h ?_
      by_cases hctx : x.ctxErr = none
      · exact .inr fun r hr => absurd hr (hg r hctx)
      · exact .inl hctx
  · cases hm

theorem moves_failSave {a : AttemptID} {f : AttemptFailure} {r : JobRecord}
    (h : x.pc = .failSave a f r) (hm : x.failSave a f r c = some m) :
    Moves isPrint s x c m.effect m.next := by
  unfold Session.failSave at hm
  split at hm
  · cases hm; exact .failSave_fails h
  · cases hm; exact .failSaved h
  · cases hm

theorem moves_cancelCheck {e : ExecuteError} (h : x.pc = .cancelCheck e)
    (hm : x.cancelCheck e c = some m) : Moves isPrint s x c m.effect m.next := by
  unfold Session.cancelCheck at hm
  split at hm
  · split at hm
    · rename_i hctx; cases hm; exact .cancelCheck_live h hctx
    · rename_i hctx; cases hm; exact .cancelCheck_ended h hctx
  · cases hm

theorem moves_cancelLoad {e : ContextError} (h : x.pc = .cancelLoad e)
    (hm : x.cancelLoad s e c = some m) : Moves isPrint s x c m.effect m.next := by
  unfold Session.cancelLoad at hm
  split at hm
  · split at hm
    · rename_i hg; cases hm; exact .cancelLoad_skipped h (.inl hg)
    · rename_i hg
      push Not at hg
      split at hm
      · rename_i r hr
        split at hm
        · rename_i hown
          cases hm
          exact .cancelLoaded h (Int64.not_le.1 (by simpa using hg.2)) ⟨hr, hown.2.1, hown.2.2⟩
        · rename_i hown
          cases hm
          refine .cancelLoad_skipped h (.inr fun r' hr' => hown ?_)
          obtain ⟨hl, h1, h2⟩ := hr'
          rw [hr] at hl
          cases hl
          exact ⟨Store.jobID_of_load hr, h1, h2⟩
      · rename_i hr
        cases hm
        exact .cancelLoad_skipped h (.inr fun r' hr' => by simp [OwnRow, hr] at hr')
  · split at hm
    · rename_i hg; cases hm; exact .cancelLoad_skipped h (.inl hg)
    · cases hm; exact .cancelLoad_fails h
  · cases hm

theorem moves_cancelSave {e : ContextError} {r : JobRecord} (h : x.pc = .cancelSave e r)
    (hm : x.cancelSave e r c = some m) : Moves isPrint s x c m.effect m.next := by
  unfold Session.cancelSave at hm
  split at hm
  · cases hm; exact .cancelSave_fails h
  · cases hm; exact .cancelSaved h
  · cases hm

theorem moves_repairLoad {e : ExecuteError} {a : AttemptID} (h : x.pc = .repairLoad e a)
    (hm : x.repairLoad s e a c = some m) : Moves isPrint s x c m.effect m.next := by
  unfold Session.repairLoad at hm
  split at hm
  · cases hm; exact .repairLoad_fails h
  · split at hm
    · rename_i r hr
      split at hm
      · rename_i hown; cases hm; exact .repairLoaded h ⟨hr, hown⟩
      · rename_i hown
        cases hm
        refine .repairLoad_skipped h fun r' hr' => hown ?_
        obtain ⟨hl, h'⟩ := hr'
        rw [hr] at hl
        cases hl
        exact h'
    · rename_i hr
      cases hm
      exact .repairLoad_skipped h fun r' hr' => by simp [OwnRow, hr] at hr'
  · cases hm

theorem moves_repairSave {e : ExecuteError} {r : JobRecord} (h : x.pc = .repairSave e r)
    (hm : x.repairSave e r c = some m) : Moves isPrint s x c m.effect m.next := by
  unfold Session.repairSave at hm
  split at hm
  · cases hm; exact .repairSave_fails h
  · cases hm; exact .repairSaved h
  · cases hm

theorem moves_release {out : Outcome} (h : x.pc = .release out) (hm : Session.release c = some m) :
    Moves isPrint s x c m.effect m.next := by
  unfold Session.release at hm
  split at hm
  · cases hm; exact .released h
  · cases hm

/-- **Every step of a session is one of these.** -/
theorem moves_of_move (hm : x.move s isPrint c = some m) :
    Moves isPrint s x c m.effect m.next := by
  unfold Session.move at hm
  split at hm
  · rename_i h; exact moves_reload h hm
  · rename_i h; exact moves_readInitial h hm
  · rename_i h; exact moves_enter h hm
  · rename_i h; exact moves_loop h hm
  · rename_i h; exact moves_pick h hm
  · rename_i h; exact moves_publishLoad h hm
  · rename_i h; exact moves_publishSave h hm
  · rename_i h; exact moves_spawn h hm
  · rename_i h; exact moves_select h hm
  · rename_i h; exact moves_received h hm
  · rename_i h; exact moves_fence h hm
  · rename_i h; exact moves_verify h hm
  · rename_i h; exact moves_accept h hm
  · rename_i h; exact moves_commit h hm
  · rename_i h; exact moves_exhausted h hm
  · rename_i h; exact moves_failed h hm
  · rename_i h; exact moves_failLoad h hm
  · rename_i h; exact moves_failCheck h hm
  · rename_i h; exact moves_failSave h hm
  · rename_i h; exact moves_cancelCheck h hm
  · rename_i h; exact moves_cancelLoad h hm
  · rename_i h; exact moves_cancelSave h hm
  · rename_i h; exact moves_repairLoad h hm
  · rename_i h; exact moves_repairSave h hm
  · rename_i h; exact moves_release h hm

end Inversion

end Coordinator

end ZkRuntime
