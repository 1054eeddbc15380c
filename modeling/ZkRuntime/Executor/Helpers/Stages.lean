import ZkRuntime.Common.Count
import ZkRuntime.Executor.Helpers.Steps
/-!
# The stages of an executor

The channels close in one order: `stopCh`, the jobs, the results, `doneCh`.
The stage is how many of them are closed, and the one `Shutdown` that found
the executor running is at the place of its stage. The wait groups count
the `Submit` calls and the workers, so at a place that closes a channel
nobody is left who would send on it.
-/

namespace ZkRuntime

namespace Executor

open Worker (JobStatus Result TaskError)

/-- Between `submitWG.Add` and `submitWG.Done`. -/
def SubmitPc.isInside : SubmitPc → Bool
  | .register | .select | .unregister | .leaving _ => true
  | _ => false

def Submit.isInside (x : Submit) : Bool := x.pc.isInside

def WorkerPc.isAlive : WorkerPc → Bool
  | .gone => false
  | _ => true

/-- The stage the `Shutdown` at this place has to itself. -/
def ShutdownPc.stage? : ShutdownPc → Option ℕ
  | .waitSubmits | .closeJobs => some 1
  | .waitWorkers | .closeResults => some 2
  | .finish => some 3
  | _ => none

/-- The number of `Submit` calls inside. -/
def State.inside (E : State) : ℕ := count Submit.isInside E.submits E.nextSubmit

/-- The number of workers that have not returned. -/
def State.alive (E : State) : ℕ := count WorkerPc.isAlive (fun i => some (E.workers i)) E.workerCount

/-- **The executor is at the stage `g`.** -/
structure Staged (E : State) (g : ℕ) : Prop where
  le : g ≤ 4
  phase : E.phase = if g = 0 then .running else if g = 4 then .stopped else .shuttingDown
  stopCh : E.stopCh = if g = 0 then .pending else .closed
  jobs : E.jobs = if g < 2 then .pending else .closed
  results : E.results = if g < 3 then .pending else .closed
  doneCh : E.doneCh = if g < 4 then .pending else .closed
  submits : ∀ {s x}, E.submits s = some x → s < E.nextSubmit
  shutdowns : ∀ {k x}, E.shutdowns k = some x → k < E.nextShutdown
  submitWG : E.submitWG = E.inside
  wg : E.wg = E.alive
  /-- From the second stage on every `Submit` is outside, … -/
  outside : 2 ≤ g → E.submitWG = 0
  /-- … and from the third on every worker has returned. -/
  returned : 3 ≤ g → E.wg = 0
  leader : ∀ {k x h}, E.shutdowns k = some x → x.pc.stage? = some h → h = g
  unique : ∀ {k k' x x'}, E.shutdowns k = some x → E.shutdowns k' = some x' →
    x.pc.stage? ≠ none → x'.pc.stage? ≠ none → k = k'
  closeJobs : ∀ {k x}, E.shutdowns k = some x → x.pc = .closeJobs → E.submitWG = 0
  closeResults : ∀ {k x}, E.shutdowns k = some x → x.pc = .closeResults → E.wg = 0
  /-- A `Shutdown` is over only where `doneCh` is closed. -/
  late : ∀ {k x}, E.shutdowns k = some x → x.pc = .cancelPending ∨ x.pc = .returned → g = 4
  panicked : E.panicked = false

variable {E E' : State} {g i s k : ℕ}

theorem alive_putWorker {p : WorkerPc} (hi : i < E.workerCount) :
    (E.putWorker i p).alive + (E.workers i).isAlive.toNat = E.alive + p.isAlive.toNat := by
  have hfun : (fun n => some ((E.putWorker i p).workers n)) =
      Function.update (fun n => some (E.workers n)) i (some p) := by
    funext n
    by_cases hn : n = i
    · subst hn; simp [State.putWorker]
    · simp [State.putWorker, Function.update_of_ne hn]
  unfold State.alive
  rw [hfun]
  exact count_update hi rfl

/-- A worker that goes on is counted as before. -/
theorem alive_putWorker_eq {pc : WorkerPc} (hi : i < E.workerCount)
    (hw : E.workers i ≠ .gone) (hpc : pc ≠ .gone) : (E.putWorker i pc).alive = E.alive := by
  have h := alive_putWorker (E := E) (p := pc) hi
  have h1 : (E.workers i).isAlive = true := by cases hw' : E.workers i <;> simp_all [WorkerPc.isAlive]
  have h2 : pc.isAlive = true := by cases pc <;> simp_all [WorkerPc.isAlive]
  rw [h1, h2] at h
  omega

theorem inside_putSubmit {x y : Submit} (hs : s < E.nextSubmit) (hx : E.submits s = some x) :
    (E.putSubmit s y).inside + x.isInside.toNat = E.inside + y.isInside.toNat :=
  count_update hs hx

namespace Staged

/-- A step that leaves channels, phase, counters and `Shutdown` calls alone. -/
theorem frame (h : Staged E g) (hph : E'.phase = E.phase) (hst : E'.stopCh = E.stopCh)
    (hj : E'.jobs = E.jobs) (hr : E'.results = E.results) (hd : E'.doneCh = E.doneCh)
    (hsub : ∀ {s x}, E'.submits s = some x → s < E'.nextSubmit)
    (hsh : E'.shutdowns = E.shutdowns) (hnext : E'.nextShutdown = E.nextShutdown)
    (hsw : E'.submitWG = E'.inside) (hwg : E'.wg = E'.alive)
    (hso : E.submitWG = 0 → g ≠ 0 → E'.submitWG = 0) (hwo : E.wg = 0 → E'.wg = 0)
    (hp : E'.panicked = false) : Staged E' g where
  le := h.le
  phase := hph.trans h.phase
  stopCh := hst.trans h.stopCh
  jobs := hj.trans h.jobs
  results := hr.trans h.results
  doneCh := hd.trans h.doneCh
  submits := hsub
  shutdowns hx := by rw [hnext]; rw [hsh] at hx; exact h.shutdowns hx
  submitWG := hsw
  wg := hwg
  outside hg := hso (h.outside hg) (by omega)
  returned hg := hwo (h.returned hg)
  leader hx := by rw [hsh] at hx; exact h.leader hx
  unique hx hx' := by rw [hsh] at hx hx'; exact h.unique hx hx'
  closeJobs hx hpc := by
    rw [hsh] at hx
    have hg := h.leader hx (by rw [hpc]; rfl)
    exact hso (h.closeJobs hx hpc) (by omega)
  closeResults hx hpc := by rw [hsh] at hx; exact hwo (h.closeResults hx hpc)
  late hx hpc := by rw [hsh] at hx; exact h.late hx hpc
  panicked := hp

/-! ### Submit -/

theorem submits_put (h : Staged E g) {x y : Submit} (hx : E.submits s = some x) {n : ℕ} {z : Submit}
    (hz : Function.update E.submits s (some y) n = some z) : n < E.nextSubmit := by
  by_cases hn : n = s
  · subst hn; exact h.submits hx
  · rw [Function.update_of_ne hn] at hz; exact h.submits hz

/-- A `Submit` that stays inside, or outside. -/
theorem submit_quiet (h : Staged E g) {x y : Submit} (hx : E.submits s = some x)
    (hin : y.isInside = x.isInside) : E.submitWG = (E.putSubmit s y).inside :=
  h.submitWG.trans (count_update_eq (h.submits hx) hx hin).symm

/-- While a `Submit` is inside, the jobs channel is open. -/
theorem jobs_of_inside (h : Staged E g) {x : Submit} (hx : E.submits s = some x)
    (hin : x.isInside = true) : g < 2 := by
  by_contra hg
  have h0 := h.outside (by omega)
  rw [h.submitWG] at h0
  have := count_pos (h.submits hx) hx hin
  unfold State.inside at h0
  omega

/-- A `Submit` is counted while it is inside, and changes no stage. -/
theorem submit_step (h : Staged E g) {x : Submit} (hx : E.submits s = some x)
    (hs : SubmitSteps E s x E') : Staged E' g := by
  cases hs with
  | passed hpc =>
    rename_i pc
    have hin : ({ x with pc := pc } : Submit).isInside = x.isInside := by
      rcases hpc with ⟨h1, h2 | h2⟩ | ⟨h1, -, h2⟩ | ⟨h1, h2⟩ | ⟨h1, h2⟩ <;>
        simp [Submit.isInside, h1, h2, SubmitPc.isInside]
    exact h.frame rfl rfl rfl rfl rfl (h.submits_put hx) rfl rfl
      (h.submit_quiet hx hin) h.wg (fun h0 _ => h0) id h.panicked
  | entered hpc hph =>
    have hcount := inside_putSubmit (y := ⟨{ x.job with status := .pending }, .register⟩)
      (h.submits hx) hx
    simp only [Submit.isInside, hpc, SubmitPc.isInside, Bool.toNat_false, Bool.toNat_true] at hcount
    have hg : g = 0 := by
      by_contra hg
      rw [h.phase, if_neg hg] at hph
      split at hph <;> cases hph
    refine h.frame rfl rfl rfl rfl rfl (h.submits_put hx) rfl rfl ?_ h.wg
      (fun _ h0 => absurd hg h0) id h.panicked
    rw [h.submitWG]
    exact hcount.symm
  | registered hpc hnew =>
    have hin : ({ x with pc := .select } : Submit).isInside = x.isInside := by
      simp [Submit.isInside, hpc, SubmitPc.isInside]
    exact h.frame rfl rfl rfl rfl rfl (h.submits_put hx) rfl rfl
      (h.submit_quiet hx hin) h.wg (fun h0 _ => h0) id h.panicked
  | send_panics hpc hj =>
    have hg := h.jobs_of_inside hx (by simp [Submit.isInside, hpc, SubmitPc.isInside])
    rw [h.jobs, if_pos hg] at hj
    exact absurd rfl hj
  | sent hpc hj hq =>
    have hin : ({ x with pc := .leaving none } : Submit).isInside = x.isInside := by
      simp [Submit.isInside, hpc, SubmitPc.isInside]
    exact h.frame rfl rfl rfl rfl rfl (h.submits_put hx) rfl rfl
      (h.submit_quiet hx hin) h.wg (fun h0 _ => h0) id h.panicked
  | @handed i hpc hj hq hi hw =>
    have hin : ({ x with pc := .leaving none } : Submit).isInside = x.isInside := by
      simp [Submit.isInside, hpc, SubmitPc.isInside]
    refine h.frame rfl rfl rfl rfl rfl (h.submits_put hx) rfl rfl
      (h.submit_quiet hx hin) ?_ (fun h0 _ => h0) id h.panicked
    exact h.wg.trans (alive_putWorker_eq (E := E) hi (by simp [hw]) (by simp)).symm
  | unregistered hpc =>
    have hin : ({ x with pc := .leaving (some .notRunning) } : Submit).isInside = x.isInside := by
      simp [Submit.isInside, hpc, SubmitPc.isInside]
    exact h.frame rfl rfl rfl rfl rfl (h.submits_put hx) rfl rfl
      (h.submit_quiet hx hin) h.wg (fun h0 _ => h0) id h.panicked
  | @left err hpc =>
    have hcount := inside_putSubmit (y := { x with pc := .returned err }) (h.submits hx) hx
    simp only [Submit.isInside, hpc, SubmitPc.isInside, Bool.toNat_false, Bool.toNat_true] at hcount
    refine h.frame rfl rfl rfl rfl rfl (h.submits_put hx) rfl rfl ?_ h.wg
      (fun h0 _ => by dsimp only; omega) id h.panicked
    rw [h.submitWG]
    exact Nat.sub_eq_of_eq_add hcount.symm

/-! ### Workers -/

/-- While a worker is alive, the results channel is open. -/
theorem results_of_alive (h : Staged E g) (hi : i < E.workerCount) (hw : E.workers i ≠ .gone) :
    g < 3 := by
  by_contra hg
  have h0 := h.returned (by omega)
  rw [h.wg] at h0
  have halive : (E.workers i).isAlive = true := by
    cases hw' : E.workers i <;> simp_all [WorkerPc.isAlive]
  have := count_pos (f := fun i => some (E.workers i)) hi rfl halive
  unfold State.alive at h0
  omega

/-- A worker that goes on. -/
theorem worker_goes (h : Staged E g) (hi : i < E.workerCount) (hw : E.workers i ≠ .gone)
    {p : WorkerPc} (hpc : p ≠ .gone) (hph : E'.phase = E.phase) (hst : E'.stopCh = E.stopCh)
    (hj : E'.jobs = E.jobs) (hr : E'.results = E.results) (hd : E'.doneCh = E.doneCh)
    (hsub : E'.submits = E.submits) (hn : E'.nextSubmit = E.nextSubmit)
    (hsh : E'.shutdowns = E.shutdowns) (hnext : E'.nextShutdown = E.nextShutdown)
    (hsw : E'.submitWG = E.submitWG) (hwg : E'.wg = E.wg)
    (hws : E'.workers = Function.update E.workers i p) (hwc : E'.workerCount = E.workerCount)
    (hp : E'.panicked = E.panicked) : Staged E' g := by
  refine h.frame hph hst hj hr hd ?_ hsh hnext ?_ ?_ (fun h0 _ => hsw.trans h0)
    (fun h0 => hwg.trans h0) (hp.trans h.panicked)
  · intro s x hx
    rw [hsub] at hx
    rw [hn]
    exact h.submits hx
  · rw [hsw, h.submitWG, State.inside, State.inside, hsub, hn]
  · have halive := alive_putWorker_eq (E := E) hi hw hpc
    unfold State.alive at halive ⊢
    rw [hwg, h.wg, hws, hwc]
    exact halive.symm

theorem worker_exits (h : Staged E g) (hi : i < E.workerCount) (hw : E.workers i ≠ .gone) :
    Staged (E.exit i) g := by
  have hcount := alive_putWorker (E := E) (p := .gone) hi
  have halive : (E.workers i).isAlive = true := by
    cases hw' : E.workers i <;> simp_all [WorkerPc.isAlive]
  rw [halive] at hcount
  simp only [WorkerPc.isAlive, Bool.toNat_true, Bool.toNat_false] at hcount
  refine h.frame rfl rfl rfl rfl rfl h.submits rfl rfl h.submitWG ?_ (fun h0 _ => h0)
    (fun h0 => by simp only [State.exit]; omega) h.panicked
  simp only [State.exit]
  rw [h.wg]
  exact Nat.sub_eq_of_eq_add hcount.symm

theorem worker_step (h : Staged E g) {c : WorkerChoice} (hi : i < E.workerCount)
    (hs : WorkerSteps E i c E') : Staged E' g := by
  cases hs with
  | took hw hq =>
    exact h.worker_goes hi (by simp [hw]) (p := .start _) (by simp) rfl rfl rfl rfl rfl rfl rfl rfl
      rfl rfl rfl rfl rfl rfl
  | closed hw hq hj => exact h.worker_exits hi (by simp [hw])
  | quit hw hc =>
    refine h.worker_exits hi ?_
    rcases hw with hw | hw
    · simp [hw]
    · intro hgone
      simp [hgone, WorkerPc.sends] at hw
  | began hw hj hv =>
    exact h.worker_goes hi (by simp [hw]) (p := .executing _) (by simp) rfl rfl rfl rfl rfl rfl rfl
      rfl rfl rfl rfl rfl rfl rfl
  | ran hw hres hc =>
    exact h.worker_goes hi (by simp [hw]) (p := .finish _ _) (by simp) rfl rfl rfl rfl rfl rfl rfl
      rfl rfl rfl rfl rfl rfl rfl
  | updated hw hj hv =>
    exact h.worker_goes hi (by simp [hw]) (p := .sending _ _) (by simp) rfl rfl rfl rfl rfl rfl rfl
      rfl rfl rfl rfl rfl rfl rfl
  | failed hw hj =>
    refine h.worker_goes hi ?_ (p := .failed _ _) (by simp) rfl rfl rfl rfl rfl rfl rfl rfl rfl rfl
      rfl rfl rfl rfl
    rcases hw with ⟨hw, -⟩ | ⟨res, hw, -⟩ <;> simp [hw]
  | deliver_panics hw hr =>
    have hg := h.results_of_alive hi (by intro hgone; simp [hgone, WorkerPc.sends] at hw)
    rw [h.results, if_pos hg] at hr
    exact absurd rfl hr
  | delivered hw hr =>
    exact h.worker_goes hi (by intro hgone; simp [hgone, WorkerPc.sends] at hw) (p := .idle)
      (by simp) rfl rfl rfl rfl rfl rfl rfl rfl rfl rfl rfl rfl rfl rfl

/-! ### Shutdown -/

/-- A `Shutdown` goes on, and brings the executor to the stage `g'`. Where
that is another one it was the leader, or there was none. -/
theorem shutdown_goes (h : Staged E g) {x y : ShutdownCall} {g' : ℕ} (hx : E.shutdowns k = some x)
    (hle : g' ≤ 4) (hmono : g ≤ g')
    (hph : E'.phase = if g' = 0 then .running else if g' = 4 then .stopped else .shuttingDown)
    (hst : E'.stopCh = if g' = 0 then .pending else .closed)
    (hj : E'.jobs = if g' < 2 then .pending else .closed)
    (hr : E'.results = if g' < 3 then .pending else .closed)
    (hd : E'.doneCh = if g' < 4 then .pending else .closed)
    (hsh : E'.shutdowns = Function.update E.shutdowns k (some y))
    (hnext : E'.nextShutdown = E.nextShutdown) (hsub : E'.submits = E.submits)
    (hn : E'.nextSubmit = E.nextSubmit) (hsw : E'.submitWG = E.submitWG) (hwg : E'.wg = E.wg)
    (hws : E'.workers = E.workers) (hwc : E'.workerCount = E.workerCount)
    (hp : E'.panicked = E.panicked) (hlead : ∀ h', y.pc.stage? = some h' → h' = g')
    (hothers : g' = g ∨ x.pc.stage? ≠ none ∨ g = 0)
    (hnew : y.pc.stage? ≠ none → x.pc.stage? ≠ none ∨ g = 0)
    (hcj : y.pc = .closeJobs → E.submitWG = 0) (hcr : y.pc = .closeResults → E.wg = 0)
    (hout : 2 ≤ g' → E.submitWG = 0) (hret : 3 ≤ g' → E.wg = 0)
    (hlate : y.pc = .cancelPending ∨ y.pc = .returned → g' = 4) : Staged E' g' := by
  -- what another call at a place of its own would mean
  have hother : ∀ {n z}, n ≠ k → E.shutdowns n = some z → z.pc.stage? ≠ none →
      ¬ (x.pc.stage? ≠ none ∨ g = 0) := by
    rintro n z hnk hz hzs (hxs | hg)
    · exact hnk (h.unique hz hx hzs hxs)
    · obtain ⟨h', hh'⟩ := Option.ne_none_iff_exists'.1 hzs
      have heq := h.leader hz hh'
      rw [hg] at heq
      subst heq
      cases hpc : z.pc <;> simp [hpc, ShutdownPc.stage?] at hh'
  have hcalls : ∀ {n z}, E'.shutdowns n = some z →
      (n = k ∧ z = y) ∨ (n ≠ k ∧ E.shutdowns n = some z) := by
    intro n z hz
    rw [hsh] at hz
    by_cases hnk : n = k
    · subst hnk
      rw [Function.update_self] at hz
      exact .inl ⟨rfl, (Option.some.inj hz).symm⟩
    · rw [Function.update_of_ne hnk] at hz
      exact .inr ⟨hnk, hz⟩
  refine ⟨hle, hph, hst, hj, hr, hd, ?_, ?_, ?_, ?_, fun hg => hsw.trans (hout hg),
    fun hg => hwg.trans (hret hg), ?_, ?_, ?_, ?_, ?_, hp.trans h.panicked⟩
  · intro s z hz
    rw [hsub] at hz
    rw [hn]
    exact h.submits hz
  · intro n z hz
    rw [hnext]
    rcases hcalls hz with ⟨rfl, -⟩ | ⟨-, hz⟩
    · exact h.shutdowns hx
    · exact h.shutdowns hz
  · rw [hsw, h.submitWG, State.inside, State.inside, hsub, hn]
  · rw [hwg, h.wg, State.alive, State.alive, hws, hwc]
  · intro n z h' hz hs
    rcases hcalls hz with ⟨rfl, rfl⟩ | ⟨hnk, hz⟩
    · exact hlead h' hs
    · rcases hothers with hg | hg
      · exact (h.leader hz hs).trans hg.symm
      · exact absurd hg (hother hnk hz (by simp [hs]))
  · intro n n' z z' hz hz' hs hs'
    rcases hcalls hz with ⟨rfl, rfl⟩ | ⟨hnk, hz⟩
    · rcases hcalls hz' with ⟨rfl, -⟩ | ⟨hnk', hz'⟩
      · rfl
      · exact absurd (hnew hs) (hother hnk' hz' hs')
    · rcases hcalls hz' with ⟨rfl, rfl⟩ | ⟨hnk', hz'⟩
      · exact absurd (hnew hs') (hother hnk hz hs)
      · exact h.unique hz hz' hs hs'
  · intro n z hz hpc
    rw [hsw]
    rcases hcalls hz with ⟨rfl, rfl⟩ | ⟨-, hz⟩
    · exact hcj hpc
    · exact h.closeJobs hz hpc
  · intro n z hz hpc
    rw [hwg]
    rcases hcalls hz with ⟨rfl, rfl⟩ | ⟨-, hz⟩
    · exact hcr hpc
    · exact h.closeResults hz hpc
  · intro n z hz hpc
    rcases hcalls hz with ⟨rfl, rfl⟩ | ⟨-, hz⟩
    · exact hlate hpc
    · have := h.late hz hpc
      omega

theorem afterShutdown_stage? {x : ShutdownCall} : (State.afterShutdown x).pc.stage? = none := by
  unfold State.afterShutdown
  dsimp only
  split <;> rfl

/-- A wait of a `Shutdown`, or its end: the stage stays. -/
theorem shutdown_passed (h : Staged E g) {x : ShutdownCall} (hx : E.shutdowns k = some x) {pc : ShutdownPc}
    (hpc : (x.pc = .enter ∧ E.phase ≠ .running ∧ pc = .waitDone) ∨
      (x.pc = .waitDone ∧ E.doneCh ≠ .pending ∧ pc = (State.afterShutdown x).pc) ∨
      (x.pc = .waitSubmits ∧ E.submitWG = 0 ∧ pc = .closeJobs) ∨
      (x.pc = .waitWorkers ∧ E.wg = 0 ∧ pc = .closeResults)) : Staged (E.putShutdown k { x with pc := pc }) g := by
  have hlead : ∀ {h'}, x.pc.stage? = some h' → h' = g := h.leader hx
  refine h.shutdown_goes (y := { x with pc := pc }) hx h.le le_rfl h.phase h.stopCh h.jobs
    h.results h.doneCh rfl rfl rfl rfl rfl rfl rfl rfl rfl ?_ (.inl rfl) ?_ ?_ ?_
    h.outside h.returned ?_
  · rcases hpc with ⟨-, -, rfl⟩ | ⟨-, -, rfl⟩ | ⟨hx', -, rfl⟩ | ⟨hx', -, rfl⟩
    · nofun
    · intro h' hs
      rw [afterShutdown_stage?] at hs
      cases hs
    · intro h' hs
      exact hlead (by rw [hx']; exact hs)
    · intro h' hs
      exact hlead (by rw [hx']; exact hs)
  · rcases hpc with ⟨-, -, rfl⟩ | ⟨-, -, rfl⟩ | ⟨hx', -, rfl⟩ | ⟨hx', -, rfl⟩
    · exact fun hne => absurd rfl hne
    · exact fun hne => absurd afterShutdown_stage? hne
    · exact fun _ => .inl (by simp [hx', ShutdownPc.stage?])
    · exact fun _ => .inl (by simp [hx', ShutdownPc.stage?])
  · rcases hpc with ⟨-, -, rfl⟩ | ⟨-, -, rfl⟩ | ⟨-, h0, -⟩ | ⟨-, -, rfl⟩
    · nofun
    · unfold State.afterShutdown; dsimp only; split <;> nofun
    · exact fun _ => h0
    · nofun
  · rcases hpc with ⟨-, -, rfl⟩ | ⟨-, -, rfl⟩ | ⟨-, -, rfl⟩ | ⟨-, h0, -⟩
    · nofun
    · unfold State.afterShutdown; dsimp only; split <;> nofun
    · nofun
    · exact fun _ => h0
  · rcases hpc with ⟨-, -, rfl⟩ | ⟨-, hd, -⟩ | ⟨-, -, rfl⟩ | ⟨-, -, rfl⟩
    · nofun
    · intro _
      by_contra hg
      have := h.le
      exact hd (by rw [h.doneCh, if_pos (by omega)])
    · nofun
    · nofun

/-- **A step of a `Shutdown`**: what it closes brings the next stage, and it
is the only one that may. -/
theorem shutdown_step (h : Staged E g) {x : ShutdownCall} (hx : E.shutdowns k = some x)
    (hs : ShutdownSteps E k x E') : ∃ g', g ≤ g' ∧ Staged E' g' := by
  have hlead : ∀ {h'}, x.pc.stage? = some h' → h' = g := h.leader hx
  cases hs with
  | cancels hpc =>
    exact ⟨g, le_rfl, h.shutdown_goes hx h.le le_rfl h.phase h.stopCh h.jobs h.results h.doneCh rfl rfl rfl
      rfl rfl rfl rfl rfl rfl nofun (.inl rfl) (fun hne => absurd rfl hne) nofun nofun
      h.outside h.returned nofun⟩
  | cancelledPending hpc =>
    exact ⟨g, le_rfl, h.shutdown_goes hx h.le le_rfl h.phase h.stopCh h.jobs h.results h.doneCh rfl rfl rfl
      rfl rfl rfl rfl rfl rfl nofun (.inl rfl) (fun hne => absurd rfl hne) nofun nofun
      h.outside h.returned fun _ => h.late hx (.inl hpc)⟩
  | passed hpc => exact ⟨g, le_rfl, h.shutdown_passed hx hpc⟩
  | entered hpc hph =>
    have hg : g = 0 := by
      by_contra hg
      rw [h.phase, if_neg hg] at hph
      split at hph <;> cases hph
    subst hg
    refine ⟨1, by omega, h.shutdown_goes (y := { x with pc := .waitSubmits }) hx (by omega) (by omega) rfl ?_
      h.jobs h.results h.doneCh rfl rfl rfl rfl rfl rfl rfl rfl rfl ?_ (.inr (.inr rfl))
      (fun _ => .inr rfl) nofun nofun (by omega) (by omega) nofun⟩
    · simp [h.stopCh]
    · intro h' hs
      exact (Option.some.inj hs).symm
  | closedJobs hpc =>
    have hg : 1 = g := hlead (by rw [hpc]; rfl)
    subst hg
    refine ⟨2, by omega, h.shutdown_goes (y := { x with pc := .waitWorkers }) hx (by omega) (by omega) h.phase
      h.stopCh ?_ h.results h.doneCh rfl rfl rfl rfl rfl rfl rfl rfl rfl ?_ ?_ ?_ nofun nofun
      (fun _ => h.closeJobs hx hpc) (by omega) nofun⟩
    · simp [h.jobs]
    · intro h' hs
      exact (Option.some.inj hs).symm
    · exact .inr (.inl (by simp [hpc, ShutdownPc.stage?]))
    · exact fun _ => .inl (by simp [hpc, ShutdownPc.stage?])
  | closedResults hpc =>
    have hg : 2 = g := hlead (by rw [hpc]; rfl)
    subst hg
    refine ⟨3, by omega, h.shutdown_goes (y := { x with pc := .finish }) hx (by omega) (by omega) h.phase
      h.stopCh h.jobs ?_ h.doneCh rfl rfl rfl rfl rfl rfl rfl rfl rfl ?_ ?_ ?_ nofun nofun
      (fun _ => h.outside (by omega)) (fun _ => h.closeResults hx hpc) nofun⟩
    · simp [h.results]
    · intro h' hs
      exact (Option.some.inj hs).symm
    · exact .inr (.inl (by simp [hpc, ShutdownPc.stage?]))
    · exact fun _ => .inl (by simp [hpc, ShutdownPc.stage?])
  | finished hpc =>
    have hg : 3 = g := hlead (by rw [hpc]; rfl)
    subst hg
    refine ⟨4, by omega, h.shutdown_goes (y := State.afterShutdown x) hx (by omega) (by omega) rfl h.stopCh
      h.jobs h.results ?_ rfl rfl rfl rfl rfl rfl rfl rfl rfl ?_ ?_ ?_ ?_ ?_
      (fun _ => h.outside (by omega)) (fun _ => h.returned (by omega)) fun _ => rfl⟩
    · simp [h.doneCh]
    · intro h' hs
      rw [afterShutdown_stage?] at hs
      cases hs
    · exact .inr (.inl (by simp [hpc, ShutdownPc.stage?]))
    · exact fun hne => absurd afterShutdown_stage? hne
    · unfold State.afterShutdown; dsimp only; split <;> nofun
    · unfold State.afterShutdown; dsimp only; split <;> nofun

/-- Another `Shutdown` is called. -/
theorem shutdown_called (h : Staged E g) (force : Bool) :
    Staged { E.putShutdown E.nextShutdown ⟨force, if force then .cancel else .enter⟩ with
      nextShutdown := E.nextShutdown + 1 } g := by
  have hold : ∀ {n z}, Function.update E.shutdowns E.nextShutdown
      (some ⟨force, if force then .cancel else .enter⟩) n = some z →
      (z.pc = .cancel ∨ z.pc = .enter) ∨ E.shutdowns n = some z := by
    intro n z hz
    by_cases hn : n = E.nextShutdown
    · subst hn
      rw [Function.update_self] at hz
      cases hz
      dsimp only
      split
      · exact .inl (.inl rfl)
      · exact .inl (.inr rfl)
    · rw [Function.update_of_ne hn] at hz
      exact .inr hz
  have hnone : ∀ {pc : ShutdownPc}, pc = .cancel ∨ pc = .enter → pc.stage? = none := by
    rintro pc (rfl | rfl) <;> rfl
  refine ⟨h.le, h.phase, h.stopCh, h.jobs, h.results, h.doneCh, h.submits, ?_, h.submitWG, h.wg,
    h.outside, h.returned, ?_, ?_, ?_, ?_, ?_, h.panicked⟩
  · intro n z hz
    simp only [State.putShutdown] at hz ⊢
    by_cases hn : n = E.nextShutdown
    · omega
    · rw [Function.update_of_ne hn] at hz
      have := h.shutdowns hz
      omega
  · intro n z h' hz hs
    rcases hold hz with hpc | hz
    · rw [hnone hpc] at hs
      cases hs
    · exact h.leader hz hs
  · intro n n' z z' hz hz' hs hs'
    rcases hold hz with hpc | hz
    · exact absurd (hnone hpc) hs
    · rcases hold hz' with hpc | hz'
      · exact absurd (hnone hpc) hs'
      · exact h.unique hz hz' hs hs'
  · intro n z hz hpc
    rcases hold hz with hpc' | hz
    · rw [hpc] at hpc'
      simp at hpc'
    · exact h.closeJobs hz hpc
  · intro n z hz hpc
    rcases hold hz with hpc' | hz
    · rw [hpc] at hpc'
      simp at hpc'
    · exact h.closeResults hz hpc
  · intro n z hz hpc
    rcases hold hz with hpc' | hz
    · rcases hpc with hpc | hpc <;> rw [hpc] at hpc' <;> simp at hpc'
    · exact h.late hz hpc

/-- **A step keeps the stage, or brings the next.** -/
theorem step (h : Staged E g) {a : Action} (hs : Steps E a E') : ∃ g', g ≤ g' ∧ Staged E' g' := by
  cases hs with
  | idle => exact ⟨g, le_rfl, h⟩
  | submit job =>
    refine ⟨g, le_rfl, h.frame rfl rfl rfl rfl rfl ?_ rfl rfl ?_ h.wg (fun h0 _ => h0) id h.panicked⟩
    · intro s x hx
      simp only [State.putSubmit] at hx ⊢
      by_cases hn : s = E.nextSubmit
      · omega
      · rw [Function.update_of_ne hn] at hx
        have := h.submits hx
        omega
    · have hcount := count_succ (p := Submit.isInside) (f := E.submits) (n := E.nextSubmit)
        (y := ⟨{ job with call := E.nextSubmit }, .check⟩)
      simp only [Submit.isInside, SubmitPc.isInside, Bool.toNat_false] at hcount
      exact h.submitWG.trans hcount.symm
  | submitStep hx hs => exact ⟨g, le_rfl, h.submit_step hx hs⟩
  | worker hi hs => exact ⟨g, le_rfl, h.worker_step hi hs⟩
  | shutdown force => exact ⟨g, le_rfl, h.shutdown_called force⟩
  | shutdownStep hx hs => exact h.shutdown_step hx hs

end Staged

theorem staged_newExecutor (workerCount queueSize : ℕ) :
    Staged (newExecutor workerCount queueSize) 0 := by
  refine ⟨by omega, rfl, rfl, rfl, rfl, rfl, nofun, nofun, rfl, ?_, by omega, by omega, nofun, nofun,
    nofun, nofun, nofun, rfl⟩
  exact (count_eq_self fun i _ => ⟨_, rfl, rfl⟩).symm

end Executor

end ZkRuntime
