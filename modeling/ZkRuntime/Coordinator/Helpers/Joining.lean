import Mathlib.Data.Finset.Card
import Mathlib.Data.Finset.Range
import ZkRuntime.Coordinator.Helpers.Process
/-!
# Who runs, and what the cleanup has joined

The counters count the goroutines they are to count. The cleanup joins the
producers in the order in which they spawn one another: startup, which starts
the loops and the server, then the handlers and the loops, which spawn the
dispatches, then the dispatches. Behind each join nothing is left that could
bring up what was joined, so what was joined stays so.
-/

namespace ZkRuntime

namespace Coordinator

open Lifecycle (Gate GateAction GateSteps)

variable {p p' : Process} {a : ProcessAction}

/-! ## Who runs -/

/-- A goroutine counts where it is alive. -/
def Thread.live : Thread → ℕ
  | .alive => 1
  | _ => 0

/-- What startup has added to `background` and not started yet. -/
def StartupPlace.owed : StartupPlace → ℕ
  | .goLiveness => 2
  | .goRecovery => 1
  | _ => 0

/-- The dispatch goroutines that are alive. -/
def Process.running (p : Process) : Finset ℕ :=
  (Finset.range p.nextDispatch).filter fun d => p.dispatches d = .alive

/-- **What holds of the goroutines at any time**: the counters count them, none
is started twice, and who is in the store runs. -/
structure Process.Staffed (p : Process) : Prop where
  gate : p.gate.Sound
  background : p.background = p.startup.owed + p.liveness.live + p.recovery.live
  liveness : p.startup.rank ≤ 3 → p.liveness = .unborn
  recovery : p.startup.rank ≤ 4 → p.recovery = .unborn
  serve : p.startup.rank ≤ 5 → p.serve = .unborn
  server : p.server = false → p.serve = .unborn
  published : 2 ≤ p.startup.rank → p.startup.rank ≤ 5 → p.server = true
  dispatchWG : p.dispatchWG = p.running.card
  unborn : ∀ d, p.dispatches d = .unborn ↔ p.nextDispatch ≤ d
  inStore : ∀ who, p.inStore who = true → p.mayAccess who = true

namespace Process.Staffed

theorem initial : newCoordinatorProcess.Staffed where
  gate := .newGate
  background := rfl
  liveness _ := rfl
  recovery _ := rfl
  serve _ := rfl
  server _ := rfl
  published h := by simp [newCoordinatorProcess, StartupPlace.rank] at h
  dispatchWG := rfl
  unborn d := by simp [newCoordinatorProcess]
  inStore who h := by simp [newCoordinatorProcess] at h

/-- A handler that runs goes on, unless it is the one to return. -/
theorem handles_of_gateSteps {l l' : Gate} {g : GateAction} {e : ℕ}
    (hg : GateSteps l g l') (h : e ∈ l.active ∧ l.leaving e = .fresh) (hne : g ≠ .leave e) :
    e ∈ l'.active ∧ l'.leaving e = .fresh := by
  obtain ⟨hin, hfresh⟩ := h
  cases hg with
  | entered => exact ⟨Finset.mem_insert_of_mem hin, hfresh⟩
  | @called i =>
    have hei : e ≠ i := by rintro rfl; exact hne rfl
    exact ⟨hin, by simp [Function.update_of_ne hei, hfresh]⟩
  | @leaving i hc =>
    have hei : e ≠ i := by rintro rfl; simp [hfresh] at hc
    exact ⟨hin, by simp [Function.update_of_ne hei, hfresh]⟩
  | @left i hc =>
    have hei : e ≠ i := by rintro rfl; simp [hfresh] at hc
    exact ⟨by simp [Gate.remove, hei, hin], by simp [Gate.remove, hei, hfresh]⟩
  | _ => exact ⟨hin, hfresh⟩

theorem stepGate (h : p.Staffed) {g : GateAction} {l : Gate} {c : Shutdown}
    (hg : GateSteps p.gate g l) (hin : ∀ e, g = .leave e → p.inStore (.handler e) = false) :
    Process.Staffed { p with gate := l, shut := c } := by
  refine ⟨h.gate.step hg, h.background, h.liveness, h.recovery, h.serve, h.server, h.published,
    h.dispatchWG, h.unborn, fun who hwho => ?_⟩
  have hmay := h.inStore who hwho
  cases who with
  | startup => exact hmay
  | recovery => exact hmay
  | handler e =>
    simp only [Process.mayAccess, Process.handles, Bool.and_eq_true, decide_eq_true_eq,
      beq_iff_eq] at hmay ⊢
    refine handles_of_gateSteps hg hmay fun he => ?_
    have hfalse := hin e he
    rw [hfalse] at hwho
    cases hwho

/-- The accessors but startup are who they were. -/
theorem access (h : p.Staffed) (hin : p.inStore .startup = false) (hg : p'.gate = p.gate)
    (hs : p'.inStore = p.inStore) (hr : p.recovery = .alive → p'.recovery = .alive) :
    ∀ who, p'.inStore who = true → p'.mayAccess who = true := by
  intro who hwho
  rw [hs] at hwho
  have hmay := h.inStore who hwho
  cases who with
  | startup => rw [hin] at hwho; cases hwho
  | recovery => simpa [Process.mayAccess] using hr (by simpa [Process.mayAccess] using hmay)
  | handler e => simpa [Process.mayAccess, Process.handles, hg] using hmay

/-- Behind its stages startup does not call the store. -/
theorem startup_outside (h : p.Staffed) (hr : 1 ≤ p.startup.rank) : p.inStore .startup = false := by
  cases hin : p.inStore .startup with
  | false => rfl
  | true =>
    have hmay := h.inStore _ hin
    simp only [Process.mayAccess, Bool.or_eq_true, beq_iff_eq] at hmay
    rcases hmay with hmay | hmay <;> simp [hmay, StartupPlace.rank] at hr

/-- Startup goes on before `start`, or returns. -/
theorem stepStartup (h : p.Staffed) {place : StartupPlace} {hs hm : Bool}
    (hr : p.startup.rank = 0) (hp : place.rank ≤ 1 ∨ place = .returning)
    (hin : p.inStore .startup = false) :
    Process.Staffed { p with hasStore := hs, hasMetrics := hm, startup := place } := by
  have howed : place.owed = 0 ∧ p.startup.owed = 0 := by
    constructor
    · rcases hp with hp | rfl
      · cases place <;> simp_all [StartupPlace.rank, StartupPlace.owed]
      · rfl
    · cases hst : p.startup <;> simp_all [StartupPlace.rank, StartupPlace.owed]
  refine ⟨h.gate, ?_, fun _ => h.liveness (by omega), fun _ => h.recovery (by omega),
    fun _ => h.serve (by omega), h.server, fun h2 h5 => ?_, h.dispatchWG, h.unborn,
    h.access hin rfl rfl id⟩
  · have hb := h.background
    simp only [howed.1, howed.2] at hb ⊢
    exact hb
  · rcases hp with hp | rfl
    · simp only at h2
      omega
    · simp [StartupPlace.rank] at h5

theorem spawn (h : p.Staffed) :
    Process.Staffed { p with
      dispatchWG := p.dispatchWG + 1
      dispatches := Function.update p.dispatches p.nextDispatch .alive
      nextDispatch := p.nextDispatch + 1 } := by
  refine ⟨h.gate, h.background, h.liveness, h.recovery, h.serve, h.server, h.published, ?_,
    fun d => ?_, h.inStore⟩
  · have hrun : ((Finset.range (p.nextDispatch + 1)).filter fun d =>
        Function.update p.dispatches p.nextDispatch .alive d = .alive) =
        insert p.nextDispatch p.running := by
      ext d
      simp only [Process.running, Finset.mem_filter, Finset.mem_range, Finset.mem_insert]
      by_cases hd : d = p.nextDispatch
      · subst hd
        simp
      · have hlt : d < p.nextDispatch + 1 ↔ d < p.nextDispatch := by omega
        simp [hd, hlt]
    have hnot : p.nextDispatch ∉ p.running := by simp [Process.running]
    have hcard := congrArg Finset.card hrun
    rw [Finset.card_insert_of_notMem hnot, ← h.dispatchWG] at hcard
    exact hcard.symm
  · by_cases hd : d = p.nextDispatch
    · subst hd
      simp
    · dsimp only
      rw [Function.update_of_ne hd, h.unborn d]
      omega

theorem dispatchExits (h : p.Staffed) {d : ℕ} (hd : p.dispatches d = .alive) :
    Process.Staffed { p with
      dispatchWG := p.dispatchWG - 1
      dispatches := Function.update p.dispatches d .exited } := by
  have hlt : d < p.nextDispatch := by
    by_contra hle
    rw [(h.unborn d).2 (by omega)] at hd
    cases hd
  refine ⟨h.gate, h.background, h.liveness, h.recovery, h.serve, h.server, h.published, ?_,
    fun i => ?_, h.inStore⟩
  · have hrun : ((Finset.range p.nextDispatch).filter fun i =>
        Function.update p.dispatches d .exited i = .alive) = p.running.erase d := by
      ext i
      simp only [Process.running, Finset.mem_filter, Finset.mem_range, Finset.mem_erase]
      by_cases hi : i = d
      · subst hi
        simp
      · simp [hi]
    have hin : d ∈ p.running := by simp [Process.running, hlt, hd]
    have hcard := congrArg Finset.card hrun
    rw [Finset.card_erase_of_mem hin, ← h.dispatchWG] at hcard
    exact hcard.symm
  · by_cases hi : i = d
    · subst hi
      simp only [Function.update_self, reduceCtorEq, false_iff]
      omega
    · dsimp only
      rw [Function.update_of_ne hi]
      exact h.unborn i

/-- **Every step keeps it.** -/
theorem step (h : p.Staffed) (hs : ProcessSteps p a p') : p'.Staffed := by
  have hb := h.background
  cases hs with
  | gate hg hin => exact h.stepGate hg hin
  | progressed hr hp hin => exact h.stepStartup hr hp hin
  | published hst =>
    have hrank : p.startup.rank = 1 := by rw [hst]; rfl
    rw [hst] at hb
    exact ⟨h.gate, hb, fun _ => h.liveness (by omega), fun _ => h.recovery (by omega),
      fun _ => h.serve (by omega), nofun, fun _ _ => rfl, h.dispatchWG, h.unborn,
      h.access (h.startup_outside (by omega)) rfl rfl id⟩
  | added hst =>
    have hrank : p.startup.rank = 2 := by rw [hst]; rfl
    rw [hst] at hb
    refine ⟨h.gate, ?_, fun _ => h.liveness (by omega), fun _ => h.recovery (by omega),
      fun _ => h.serve (by omega), h.server, fun _ _ => h.published (by omega) (by omega),
      h.dispatchWG, h.unborn, h.access (h.startup_outside (by omega)) rfl rfl id⟩
    simp only [StartupPlace.owed] at hb ⊢
    omega
  | liveness hst =>
    have hrank : p.startup.rank = 3 := by rw [hst]; rfl
    rw [hst, h.liveness (by omega)] at hb
    refine ⟨h.gate, ?_, fun hr => by simp [StartupPlace.rank] at hr,
      fun _ => h.recovery (by omega), fun _ => h.serve (by omega), h.server,
      fun _ _ => h.published (by omega) (by omega), h.dispatchWG, h.unborn,
      h.access (h.startup_outside (by omega)) rfl rfl id⟩
    simp only [StartupPlace.owed, Thread.live] at hb ⊢
    omega
  | recovery hst =>
    have hrank : p.startup.rank = 4 := by rw [hst]; rfl
    rw [hst, h.recovery (by omega)] at hb
    refine ⟨h.gate, ?_, fun hr => by simp [StartupPlace.rank] at hr,
      fun hr => by simp [StartupPlace.rank] at hr, fun _ => h.serve (by omega), h.server,
      fun _ _ => h.published (by omega) (by omega), h.dispatchWG, h.unborn,
      h.access (h.startup_outside (by omega)) rfl rfl fun _ => rfl⟩
    simp only [StartupPlace.owed, Thread.live] at hb ⊢
    omega
  | serve hst =>
    have hrank : p.startup.rank = 5 := by rw [hst]; rfl
    have hserver := h.published (by omega) (by omega)
    rw [hst] at hb
    exact ⟨h.gate, hb, fun hr => by simp [StartupPlace.rank] at hr,
      fun hr => by simp [StartupPlace.rank] at hr, fun hr => by simp [StartupPlace.rank] at hr,
      fun hs => by simp [hserver] at hs, fun _ hr => by simp [StartupPlace.rank] at hr,
      h.dispatchWG, h.unborn, h.access (h.startup_outside (by omega)) rfl rfl id⟩
  | finished hst =>
    have hrank : p.startup.rank = 6 := by rw [hst]; rfl
    rw [hst] at hb
    exact ⟨h.gate, hb, fun hr => by simp [StartupPlace.rank] at hr,
      fun hr => by simp [StartupPlace.rank] at hr, fun hr => by simp [StartupPlace.rank] at hr,
      h.server, fun _ hr => by simp [StartupPlace.rank] at hr, h.dispatchWG, h.unborn,
      h.access (h.startup_outside (by omega)) rfl rfl id⟩
  | spawned => exact h.spawn
  | dispatchExited hd => exact h.dispatchExits hd
  | livenessExited hl =>
    rw [hl] at hb
    refine ⟨h.gate, ?_, fun hr => ?_, h.recovery, h.serve, h.server, h.published, h.dispatchWG,
      h.unborn, h.inStore⟩
    · simp only [Thread.live] at hb ⊢
      omega
    · rw [h.liveness hr] at hl
      cases hl
  | recoveryExited hl hin =>
    rw [hl] at hb
    refine ⟨h.gate, ?_, h.liveness, fun hr => ?_, h.serve, h.server, h.published, h.dispatchWG,
      h.unborn, fun who hwho => ?_⟩
    · simp only [Thread.live] at hb ⊢
      omega
    · rw [h.recovery hr] at hl
      cases hl
    · cases who with
      | recovery => rw [hin] at hwho; cases hwho
      | startup => exact h.inStore _ hwho
      | handler e => exact h.inStore _ hwho
  | serveReturned hl =>
    refine ⟨h.gate, hb, h.liveness, h.recovery, fun hr => ?_, fun hs => ?_, h.published,
      h.dispatchWG, h.unborn, h.inStore⟩
    · rw [h.serve hr] at hl
      cases hl
    · rw [h.server hs] at hl
      cases hl
  | @storeBegan who hw =>
    refine ⟨h.gate, hb, h.liveness, h.recovery, h.serve, h.server, h.published, h.dispatchWG,
      h.unborn, fun i hi => ?_⟩
    by_cases hiw : i = who
    · subst hiw
      exact hw
    · simp only [Function.update_of_ne hiw] at hi
      exact h.inStore i hi
  | @storeEnded who =>
    refine ⟨h.gate, hb, h.liveness, h.recovery, h.serve, h.server, h.published, h.dispatchWG,
      h.unborn, fun i hi => ?_⟩
    by_cases hiw : i = who
    · subst hiw
      simp at hi
    · simp only [Function.update_of_ne hiw] at hi
      exact h.inStore i hi
  | closing =>
    exact ⟨h.gate, hb, h.liveness, h.recovery, h.serve, h.server, h.published, h.dispatchWG,
      h.unborn, h.inStore⟩

end Process.Staffed

/-! ## What is joined stays joined -/

/-- How many joins are behind the cleanup. -/
def Cleaner.rank : Cleaner → ℕ
  | .unborn | .awaitStartup => 0
  | .awaitHandlers => 1
  | .awaitBackground => 2
  | .awaitDispatches => 3
  | .awaitStopped => 4
  | .awaitServe => 5
  | _ => 6

/-- **What the first `k` joins of the cleanup have waited for.** -/
structure Process.Awaited (p : Process) (k : ℕ) : Prop where
  startup : 1 ≤ k → p.startup = .finished
  handlers : 2 ≤ k → p.gate.done = .closed
  background : 3 ≤ k → p.background = 0
  dispatches : 4 ≤ k → p.dispatchWG = 0
  serve : 6 ≤ k → p.server = false ∨ p.serve = .exited

/-- A gate that is closed stays so. -/
theorem done_of_gateSteps {l l' : Gate} {g : GateAction} (hl : l.Sound) (hg : GateSteps l g l')
    (h : l.done = .closed) : l'.done = .closed := by
  have hdone := hl.done_eq
  rw [h] at hdone
  obtain ⟨hd, hempty⟩ : l.draining = true ∧ l.active = ∅ := by
    by_contra hno
    rw [if_neg hno] at hdone
    cases hdone
  cases hg with
  | entered hd' => simp [hd] at hd'
  | sealed hd' => simp [hd] at hd'
  | @left e hc =>
    have hin := (hl.active_iff e).2 ⟨hl.lt_next (by simp [hc]), by simp [hc]⟩
    simp [hempty] at hin
  | _ => exact h

namespace Process.Awaited

variable {k : ℕ}

/-- Behind the handlers none runs. -/
theorem active_eq (h : p.Awaited k) (hp : p.Staffed) (hk : 2 ≤ k) : p.gate.active = ∅ := by
  have hdone := hp.gate.done_eq
  rw [h.handlers hk] at hdone
  by_contra hno
  rw [if_neg fun hc => hno hc.2] at hdone
  cases hdone

/-- Behind the loops none runs. -/
theorem loops_dead (h : p.Awaited k) (hp : p.Staffed) (hk : 3 ≤ k) :
    p.liveness ≠ .alive ∧ p.recovery ≠ .alive := by
  have hb := hp.background
  rw [h.background hk] at hb
  constructor
  · intro halive
    rw [halive] at hb
    simp only [Thread.live] at hb
    omega
  · intro halive
    rw [halive] at hb
    simp only [Thread.live] at hb
    omega

/-- **Behind both there is no producer.** -/
theorem mayProduce (h : p.Awaited k) (hp : p.Staffed) (hk : 3 ≤ k) (who : Producer) :
    p.mayProduce who = false := by
  cases who with
  | handler e => simp [Process.mayProduce, Process.handles, h.active_eq hp (by omega)]
  | recovery => simp [Process.mayProduce, (h.loops_dead hp hk).2]

/-- Where startup has finished it takes no more steps. -/
theorem of_startup (h : p.Awaited k) (hst : p.startup ≠ .finished) (p' : Process) :
    p'.Awaited k := by
  have hk : ¬ 1 ≤ k := fun hk => hst (h.startup hk)
  exact ⟨fun h => absurd h hk, fun h => absurd (by omega) hk, fun h => absurd (by omega) hk,
    fun h => absurd (by omega) hk, fun h => absurd (by omega) hk⟩

/-- A step of the cleanup joins what it has waited for. -/
theorem clean {fails : Bool} {c next : Cleaner} (h : p.Awaited c.rank)
    (hc : Cleans p fails c next) : p.Awaited next.rank := by
  cases hc with
  | startup hst =>
    exact ⟨fun _ => hst, fun hk => absurd hk (by decide), fun hk => absurd hk (by decide),
      fun hk => absurd hk (by decide), fun hk => absurd hk (by decide)⟩
  | handlers hd =>
    exact ⟨fun _ => h.startup (by decide), fun _ => hd, fun hk => absurd hk (by decide),
      fun hk => absurd hk (by decide), fun hk => absurd hk (by decide)⟩
  | background hb =>
    exact ⟨fun _ => h.startup (by decide), fun _ => h.handlers (by decide), fun _ => hb,
      fun hk => absurd hk (by decide), fun hk => absurd hk (by decide)⟩
  | dispatches hd =>
    exact ⟨fun _ => h.startup (by decide), fun _ => h.handlers (by decide),
      fun _ => h.background (by decide), fun _ => hd, fun hk => absurd hk (by decide)⟩
  | stopped =>
    exact ⟨fun _ => h.startup (by decide), fun _ => h.handlers (by decide),
      fun _ => h.background (by decide), fun _ => h.dispatches (by decide),
      fun hk => absurd hk (by decide)⟩
  | serve hs =>
    exact ⟨fun _ => h.startup (by decide), fun _ => h.handlers (by decide),
      fun _ => h.background (by decide), fun _ => h.dispatches (by decide), fun _ => hs⟩
  | refused hc => rcases hc with rfl | rfl <;> exact h
  | _ => exact h

/-- **No step takes a join back.** -/
theorem step (h : p.Awaited p.shut.cleaner.rank) (hp : p.Staffed) (hs : ProcessSteps p a p') :
    p'.Awaited p'.shut.cleaner.rank := by
  cases hs with
  | gate hg =>
    exact ⟨h.startup, fun hk => done_of_gateSteps hp.gate hg (h.handlers hk), h.background,
      h.dispatches, h.serve⟩
  | progressed hr => exact h.of_startup (by rintro hf; simp [hf, StartupPlace.rank] at hr) _
  | published hst => exact h.of_startup (by simp [hst]) _
  | added hst => exact h.of_startup (by simp [hst]) _
  | liveness hst => exact h.of_startup (by simp [hst]) _
  | recovery hst => exact h.of_startup (by simp [hst]) _
  | serve hst => exact h.of_startup (by simp [hst]) _
  | finished hst => exact h.of_startup (by simp [hst]) _
  | @spawned who hw =>
    refine ⟨h.startup, h.handlers, h.background, fun hk => ?_, h.serve⟩
    rw [h.mayProduce hp (by dsimp only at hk; omega) who] at hw
    cases hw
  | dispatchExited =>
    exact ⟨h.startup, h.handlers, h.background, fun hk => by simp [h.dispatches hk], h.serve⟩
  | livenessExited =>
    exact ⟨h.startup, h.handlers, fun hk => by simp [h.background hk], h.dispatches, h.serve⟩
  | recoveryExited =>
    exact ⟨h.startup, h.handlers, fun hk => by simp [h.background hk], h.dispatches, h.serve⟩
  | serveReturned => exact ⟨h.startup, h.handlers, h.background, h.dispatches, fun _ => .inr rfl⟩
  | storeBegan => exact ⟨h.startup, h.handlers, h.background, h.dispatches, h.serve⟩
  | storeEnded => exact ⟨h.startup, h.handlers, h.background, h.dispatches, h.serve⟩
  | closing hc =>
    cases hc with
    | cleaner hc =>
      have hnext := h.clean hc
      exact ⟨hnext.startup, hnext.handlers, hnext.background, hnext.dispatches, hnext.serve⟩
    | started => exact ⟨nofun, nofun, nofun, nofun, nofun⟩
    | _ => exact ⟨h.startup, h.handlers, h.background, h.dispatches, h.serve⟩

end Process.Awaited

/-! ## Joined -/

/-- **All that was started has ended**, and nothing of it comes back. -/
structure Process.Joined (p : Process) : Prop where
  startup : p.startup = .finished
  /-- Every handler that was admitted has left. -/
  handlers : p.gate.draining = true ∧ ∀ e, ¬ p.gate.Active e
  liveness : p.liveness ≠ .alive
  recovery : p.recovery ≠ .alive
  dispatches : ∀ d, d < p.nextDispatch → p.dispatches d = .exited
  /-- `Serve` has returned, where it was called. -/
  serve : p.serve ≠ .alive

theorem Process.Awaited.joined (h : p.Awaited 6) (hp : p.Staffed) : p.Joined where
  startup := h.startup (by decide)
  handlers := by
    have hempty := h.active_eq hp (by decide)
    have hdone := hp.gate.done_eq
    rw [h.handlers (by decide)] at hdone
    refine ⟨?_, fun e he => ?_⟩
    · by_contra hno
      rw [if_neg fun hc => hno hc.1] at hdone
      cases hdone
    · have hin := (hp.gate.active_iff e).2 he
      simp [hempty] at hin
  liveness := (h.loops_dead hp (by decide)).1
  recovery := (h.loops_dead hp (by decide)).2
  dispatches d hd := by
    have hcard := hp.dispatchWG
    rw [h.dispatches (by decide)] at hcard
    have hrun : d ∉ p.running := by simp [Finset.card_eq_zero.1 hcard.symm]
    cases hst : p.dispatches d with
    | unborn => have := (hp.unborn d).1 hst; omega
    | alive => simp [Process.running, hd, hst] at hrun
    | exited => rfl
  serve := by
    rcases h.serve (by decide) with hs | hs
    · simp [hp.server hs]
    · simp [hs]

/-- Once all is joined nobody is in the store, or gets into it. -/
theorem Process.Joined.outside (h : p.Joined) (hp : p.Staffed) (who : Accessor) :
    p.mayAccess who = false ∧ p.inStore who = false := by
  have hmay : p.mayAccess who = false := by
    cases who with
    | startup => simp [Process.mayAccess, h.startup]
    | recovery => simp [Process.mayAccess, h.recovery]
    | handler e =>
      have hno : e ∉ p.gate.active := fun hin => h.handlers.2 e ((hp.gate.active_iff e).1 hin)
      simp [Process.mayAccess, Process.handles, hno]
  refine ⟨hmay, ?_⟩
  cases hin : p.inStore who with
  | false => rfl
  | true =>
    rw [hp.inStore who hin] at hmay
    cases hmay

end Coordinator

end ZkRuntime
