import ZkRuntime.Coordinator.Model.Process
import ZkRuntime.Lifecycle.Admission
/-!
# What a step of the process can be

`Process.step` taken apart once, as `Steps` takes that of the coordinator
apart: a step of the gate, of startup, of what runs in between, or of the
shutdown alone.
-/

namespace ZkRuntime

namespace Coordinator

open Lifecycle (Gate GateAction GateSteps)

/-- How far startup is, from `start` on. -/
def StartupPlace.rank : StartupPlace → ℕ
  | .context _ | .stage _ => 0
  | .publish => 1
  | .add => 2
  | .goLiveness => 3
  | .goRecovery => 4
  | .goServe => 5
  | .returning => 6
  | .finished => 7

/-- **The steps of the cleanup**, from place to place. -/
inductive Cleans (p : Process) (fails : Bool) : Cleaner → Cleaner → Prop
  | startup (h : p.startup = .finished) : Cleans p fails .awaitStartup .awaitHandlers
  | handlers (h : p.gate.done = .closed) : Cleans p fails .awaitHandlers .awaitBackground
  | background (h : p.background = 0) : Cleans p fails .awaitBackground .awaitDispatches
  | dispatches (h : p.dispatchWG = 0) : Cleans p fails .awaitDispatches .awaitStopped
  | stopped : Cleans p fails .awaitStopped .awaitServe
  | serve (h : p.server = false ∨ p.serve = .exited) : Cleans p fails .awaitServe .check
  | refused {c : Cleaner} {e : ContextError} (hc : c = .check ∨ c = .recheck)
      (h : p.shut.ctxErr = some e) : Cleans p fails c (.send [.context e])
  | checked (h : p.shut.ctxErr = none) : Cleans p fails .check .shutdownMetrics
  | metrics_fails : Cleans p fails .shutdownMetrics (.send [.metrics])
  | metrics (h : p.hasMetrics = true → fails = false) : Cleans p fails .shutdownMetrics .recheck
  | rechecked (h : p.shut.ctxErr = none) : Cleans p fails .recheck .close
  | unopened (h : p.hasStore = false) : Cleans p fails .close .closed
  | closing (h : p.hasStore = true) : Cleans p fails .close .closing
  | close_fails : Cleans p fails .closing (.send [.closeStore])
  | closed (h : fails = false) : Cleans p fails .closing .closed
  | reported : Cleans p fails .closed (.send p.shut.ctxErrs)
  | sent {errs : List ShutdownError} : Cleans p fails (.send errs) (.finish errs)
  | finished {errs : List ShutdownError} : Cleans p fails (.finish errs) (.done errs)

/-- **The steps of the shutdown alone.** -/
inductive ShutdownSteps (p : Process) : ProcessAction → Shutdown → Prop
  | same {a : ProcessAction} : ShutdownSteps p a p.shut
  | callers {a : ProcessAction} {callers : ℕ} {once : ShutdownPlace}
      (ho : once = .done ↔ p.shut.once = .done) :
      ShutdownSteps p a { p.shut with callers := callers, once := once }
  | spawned {a : ProcessAction} (h : p.shut.once = .spawn) :
      ShutdownSteps p a { p.shut with once := .done, supervisor := .spawn }
  | deadline {a : ProcessAction} (h : p.shut.ctxErr = none) :
      ShutdownSteps p a { p.shut with ctxErr := some .deadlineExceeded }
  | stopper {a : ProcessAction} {st : Stopper} : ShutdownSteps p a { p.shut with stopper := st }
  | cleaner {fails : Bool} {next : Cleaner} {complete : Option (List ShutdownError)}
      (h : Cleans p fails p.shut.cleaner next)
      (hc : complete = p.shut.complete ∨
        ∃ errs, p.shut.cleaner = .send errs ∧ complete = some errs) :
      ShutdownSteps p (.cleaner fails) { p.shut with cleaner := next, complete := complete }
  | started {a : ProcessAction} (h : p.shut.supervisor = .spawn) :
      ShutdownSteps p a { p.shut with
        supervisor := .select
        stopper := .awaitStartup
        cleaner := .awaitStartup }
  | received {a : ProcessAction} {errs : List ShutdownError} (h : p.shut.supervisor = .select)
      (hc : p.shut.complete = some errs) :
      ShutdownSteps p a { p.shut with
        complete := none
        supervisor := .joined (errs ++ p.shut.ctxErrs) }
  | ended {a : ProcessAction} {errs : List ShutdownError} {e : ContextError}
      (h : p.shut.supervisor = .select ∨ p.shut.supervisor = .joined errs) :
      ShutdownSteps p a { p.shut with supervisor := .decide (errs ++ [.context e]) }
  | decided {a : ProcessAction} {errs : List ShutdownError} (h : p.shut.supervisor = .joined errs) :
      ShutdownSteps p a { p.shut with supervisor := .decide errs }
  | set {a : ProcessAction} {errs : List ShutdownError} (h : p.shut.supervisor = .decide errs) :
      ShutdownSteps p a { p.shut with
        err := if errs = [] then [] else .incomplete :: errs
        supervisor := .cancel }
  | cancelled {a : ProcessAction} (h : p.shut.supervisor = .cancel) :
      ShutdownSteps p a { p.shut with
        ctxErr := p.shut.ctxErr.or (some .canceled)
        supervisor := .close }
  | finished {a : ProcessAction} (h : p.shut.supervisor = .close) :
      ShutdownSteps p a { p.shut with supervisor := .done }

/-- **The steps of the process.** -/
inductive ProcessSteps (p : Process) : ProcessAction → Process → Prop
  | gate {a : ProcessAction} {g : GateAction} {l : Gate} {once : ShutdownPlace}
      (hg : GateSteps p.gate g l) (hin : ∀ e, g = .leave e → p.inStore (.handler e) = false)
      (ho : once = .done ↔ p.shut.once = .done) :
      ProcessSteps p a { p with gate := l, shut := { p.shut with once := once } }
  | progressed {fails : Bool} {place : StartupPlace} {hasStore hasMetrics : Bool}
      (hr : p.startup.rank = 0) (hp : place.rank ≤ 1 ∨ place = .returning)
      (hin : p.inStore .startup = false) :
      ProcessSteps p (.startup fails)
        { p with hasStore := hasStore, hasMetrics := hasMetrics, startup := place }
  | published {fails : Bool} (h : p.startup = .publish) :
      ProcessSteps p (.startup fails) { p with server := true, startup := .add }
  | added {fails : Bool} (h : p.startup = .add) :
      ProcessSteps p (.startup fails)
        { p with background := p.background + 2, startup := .goLiveness }
  | liveness {fails : Bool} (h : p.startup = .goLiveness) :
      ProcessSteps p (.startup fails) { p with liveness := .alive, startup := .goRecovery }
  | recovery {fails : Bool} (h : p.startup = .goRecovery) :
      ProcessSteps p (.startup fails) { p with recovery := .alive, startup := .goServe }
  | serve {fails : Bool} (h : p.startup = .goServe) :
      ProcessSteps p (.startup fails) { p with serve := .alive, startup := .returning }
  | finished {fails : Bool} (h : p.startup = .returning) :
      ProcessSteps p (.startup fails) { p with startup := .finished }
  | spawned {who : Producer} (h : p.mayProduce who = true) :
      ProcessSteps p (.spawn who) { p with
        dispatchWG := p.dispatchWG + 1
        dispatches := Function.update p.dispatches p.nextDispatch .alive
        nextDispatch := p.nextDispatch + 1 }
  | dispatchExited {d : ℕ} (h : p.dispatches d = .alive) :
      ProcessSteps p (.dispatchExits d) { p with
        dispatchWG := p.dispatchWG - 1
        dispatches := Function.update p.dispatches d .exited }
  | livenessExited (h : p.liveness = .alive) :
      ProcessSteps p .livenessExits
        { p with background := p.background - 1, liveness := .exited }
  | recoveryExited (h : p.recovery = .alive) (hin : p.inStore .recovery = false) :
      ProcessSteps p .recoveryExits
        { p with background := p.background - 1, recovery := .exited }
  | serveReturned (h : p.serve = .alive) : ProcessSteps p .serveReturns { p with serve := .exited }
  | storeBegan {who : Accessor} (h : p.mayAccess who = true) :
      ProcessSteps p (.storeBegins who)
        { p with inStore := Function.update p.inStore who true }
  | storeEnded {who : Accessor} :
      ProcessSteps p (.storeEnds who)
        { p with inStore := Function.update p.inStore who false }
  | closing {a : ProcessAction} {c : Shutdown} (hc : ShutdownSteps p a c) :
      ProcessSteps p a { p with shut := c }

variable {p p' : Process} {a : ProcessAction}

/-! ## Part by part -/

theorem steps_withGate {g : GateAction} (h : p.withGate g = some p')
    (hin : ∀ e, g = .leave e → p.inStore (.handler e) = false) : ProcessSteps p a p' := by
  obtain ⟨l, hl, rfl⟩ := Option.map_eq_some_iff.1 h
  exact .gate (Lifecycle.gateSteps_of_step hl) hin Iff.rfl

theorem steps_onceGate {g : GateAction} {once : ShutdownPlace} (h : p.onceGate g once = some p')
    (hg : ∀ e, g ≠ .leave e) (ho : once = .done ↔ p.shut.once = .done) : ProcessSteps p a p' := by
  obtain ⟨p'', hp, rfl⟩ := Option.map_eq_some_iff.1 h
  obtain ⟨l, hl, rfl⟩ := Option.map_eq_some_iff.1 hp
  exact .gate (Lifecycle.gateSteps_of_step hl) (fun e he => absurd he (hg e)) ho

theorem steps_startupStep {fails : Bool} (h : p.startupStep fails = some p') :
    ProcessSteps p (.startup fails) p' := by
  unfold Process.startupStep at h
  split at h
  · cases h
  rename_i hin
  have hin' : p.inStore .startup = false := by simpa using hin
  split at h
  · rename_i hs
    have hr : p.startup.rank = 0 := by rw [hs]; rfl
    split at h
    · cases h; exact .progressed hr (.inr rfl) hin'
    · split at h
      · cases h; exact .progressed hr (.inl (Nat.zero_le 1)) hin'
      · cases h; exact .progressed hr (.inl le_rfl) hin'
  · rename_i s hs
    have hr : p.startup.rank = 0 := by rw [hs]; rfl
    split at h
    · cases h; exact .progressed hr (.inr rfl) hin'
    · cases h
      exact .progressed hr (.inl (by cases s <;> decide)) hin'
  · rename_i hs; cases h; exact .published hs
  · rename_i hs; cases h; exact .added hs
  · rename_i hs; cases h; exact .liveness hs
  · rename_i hs; cases h; exact .recovery hs
  · rename_i hs; cases h; exact .serve hs
  · rename_i hs; cases h; exact .finished hs
  · cases h

theorem steps_shutdownStep {order : List ℕ} (h : p.shutdownStep order = some p') :
    ProcessSteps p (.shutdownStep order) p' := by
  unfold Process.shutdownStep at h
  split at h
  · rename_i ho; exact steps_onceGate h (by simp) (by simp [ho])
  · rename_i ho; exact steps_onceGate h (by simp) (by simp [ho])
  · rename_i ho
    split at h
    · cases h; exact .closing (.callers (by simp [ho]))
    · exact steps_onceGate h (by simp) (by simp [ho])
  · rename_i ho; cases h; exact .closing (.spawned ho)
  · cases h

theorem ctxErrs_of_some {c : Shutdown} {e : ContextError} (h : c.ctxErr = some e) :
    c.ctxErrs = [.context e] := by
  simp [Shutdown.ctxErrs, h]

theorem steps_clean {fails : Bool} {next : Cleaner} (h : Cleans p fails p.shut.cleaner next) :
    ProcessSteps p (.cleaner fails) (p.clean next) :=
  .closing (.cleaner h (.inl rfl))

theorem steps_await {fails b : Bool} {next : Cleaner} (h : p.await b next = some p')
    (hc : b = true → Cleans p fails p.shut.cleaner next) : ProcessSteps p (.cleaner fails) p' := by
  unfold Process.await at h
  split at h
  · rename_i hb; cases h; exact steps_clean (hc hb)
  · cases h

theorem steps_unlessDone {fails : Bool} {next : Cleaner}
    (hc : p.shut.cleaner = .check ∨ p.shut.cleaner = .recheck)
    (hn : p.shut.ctxErr = none → Cleans p fails p.shut.cleaner next) :
    ProcessSteps p (.cleaner fails) (p.unlessDone next) := by
  unfold Process.unlessDone
  cases he : p.shut.ctxErr with
  | none => rw [if_pos rfl]; exact steps_clean (hn he)
  | some e =>
    rw [if_neg (by simp), ctxErrs_of_some he]
    exact steps_clean (.refused hc he)

theorem steps_cleanerStep {fails : Bool} (h : p.cleanerStep fails = some p') :
    ProcessSteps p (.cleaner fails) p' := by
  unfold Process.cleanerStep at h
  split at h
  · rename_i hs; exact steps_await h fun hb => hs ▸ .startup (by simpa using hb)
  · rename_i hs; exact steps_await h fun hb => hs ▸ .handlers (by simpa using hb)
  · rename_i hs; exact steps_await h fun hb => hs ▸ .background (by simpa using hb)
  · rename_i hs; exact steps_await h fun hb => hs ▸ .dispatches (by simpa using hb)
  · rename_i hs; exact steps_await h fun _ => hs ▸ .stopped
  · rename_i hs; exact steps_await h fun hb => hs ▸ .serve (by simpa using hb)
  · rename_i hs; cases h; exact steps_unlessDone (.inl hs) fun he => hs ▸ .checked he
  · rename_i hs
    cases h
    split
    · exact steps_clean (hs ▸ .metrics_fails)
    · rename_i hm
      exact steps_clean (hs ▸ .metrics fun h => by simpa [h] using hm)
  · rename_i hs; cases h; exact steps_unlessDone (.inr hs) fun he => hs ▸ .rechecked he
  · rename_i hs
    cases h
    split
    · rename_i ho; exact steps_clean (hs ▸ .closing ho)
    · rename_i ho; exact steps_clean (hs ▸ .unopened (by simpa using ho))
  · rename_i hs
    cases h
    split
    · exact steps_clean (hs ▸ .close_fails)
    · rename_i hf; exact steps_clean (hs ▸ .closed (by simpa using hf))
  · rename_i hs; cases h; exact steps_clean (hs ▸ .reported)
  · rename_i errs hs
    cases h
    exact .closing (.cleaner (hs ▸ .sent) (.inr ⟨errs, hs, rfl⟩))
  · rename_i hs; cases h; exact steps_clean (hs ▸ .finished)
  · cases h

theorem steps_onDone {errs : List ShutdownError} (h : p.onDone errs = some p')
    (hs : p.shut.supervisor = .select ∨ p.shut.supervisor = .joined errs) : ProcessSteps p a p' := by
  unfold Process.onDone at h
  cases he : p.shut.ctxErr with
  | none => simp [he] at h
  | some e =>
    rw [if_neg (by simp [he]), ctxErrs_of_some he] at h
    cases h
    exact .closing (.ended hs)

theorem steps_supervisorStep {done : Bool} (h : p.supervisorStep done = some p') :
    ProcessSteps p (.supervisor done) p' := by
  unfold Process.supervisorStep at h
  split at h
  · rename_i hs; cases h; exact .closing (.started hs)
  · rename_i hs
    split at h
    · exact steps_onDone h (.inl hs)
    · split at h
      · rename_i hc; cases h; exact .closing (.received hs hc)
      · cases h
  · rename_i hs
    split at h
    · exact steps_onDone h (.inr hs)
    · split at h
      · cases h; exact .closing (.decided hs)
      · cases h
  · rename_i hs; cases h; exact .closing (.set hs)
  · rename_i hs; cases h; exact .closing (.cancelled hs)
  · rename_i hs; cases h; exact .closing (.finished hs)
  · cases h

/-- **Every step of the process is one of these.** -/
theorem processSteps_of_step (h : p.step a = some p') : ProcessSteps p a p' := by
  cases a with
  | idle => cases h; exact .closing .same
  | startup fails => exact steps_startupStep h
  | request ended =>
    simp only [Process.step] at h
    split at h
    · cases h
    · exact steps_withGate h (by simp)
  | parentDone e => exact steps_withGate h (by simp)
  | leave e =>
    simp only [Process.step, Process.leave] at h
    split at h
    · cases h
    · rename_i hin
      refine steps_withGate h fun i hi => ?_
      cases hi
      simpa using hin
  | leaveStep e => exact steps_withGate h (by simp)
  | spawn who =>
    simp only [Process.step, Process.spawn] at h
    split at h
    · rename_i hw; cases h; exact .spawned hw
    · cases h
  | dispatchExits d =>
    simp only [Process.step, Process.dispatchExits] at h
    split at h
    · rename_i hd; cases h; exact .dispatchExited hd
    · cases h
  | livenessExits =>
    simp only [Process.step, Process.livenessExits] at h
    split at h
    · rename_i hl; cases h; exact .livenessExited hl
    · cases h
  | recoveryExits =>
    simp only [Process.step, Process.recoveryExits] at h
    split at h
    · rename_i hl; cases h; exact .recoveryExited hl.1 hl.2
    · cases h
  | serveReturns =>
    simp only [Process.step, Process.serveReturns] at h
    split at h
    · rename_i hl; cases h; exact .serveReturned hl
    · cases h
  | storeBegins who =>
    simp only [Process.step, Process.storeBegins] at h
    split at h
    · rename_i hw; cases h; exact .storeBegan hw.1
    · cases h
  | storeEnds who =>
    simp only [Process.step, Process.storeEnds] at h
    split at h
    · cases h; exact .storeEnded
    · cases h
  | shutdown =>
    cases h
    refine .closing (.callers ?_)
    split
    · rename_i ho; simp [ho]
    · exact Iff.rfl
  | shutdownReturns =>
    simp only [Process.step, Process.shutdownReturns] at h
    split at h
    · cases h; exact .closing (.callers Iff.rfl)
    · cases h
  | shutdownStep order => exact steps_shutdownStep h
  | deadline =>
    simp only [Process.step, Process.deadline] at h
    split at h
    · rename_i hd; cases h; exact .closing (.deadline hd.2)
    · cases h
  | stopper =>
    simp only [Process.step, Process.stopperStep] at h
    split at h
    · split at h
      · cases h; exact .closing .stopper
      · cases h
    · cases h; exact .closing .stopper
    · cases h
  | cleaner fails => exact steps_cleanerStep h
  | supervisor done => exact steps_supervisorStep h

end Coordinator

end ZkRuntime
