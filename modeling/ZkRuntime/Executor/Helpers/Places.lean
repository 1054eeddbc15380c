import Mathlib.Logic.Equiv.Basic
import ZkRuntime.Executor.Helpers.Stages
/-!
# Where a job is

From its registration on a job is in one place: with the `Submit` that
registered it, in the queue, with a worker, or among the results. Each step
moves at most one job, so the places before and after a step correspond one
to one, and the registry has the job with the status that belongs to its
place. Once `doneCh` is closed what is left in the queue is in no place.
-/

namespace ZkRuntime

namespace Executor

open Worker (JobStatus Result TaskError)

/-- A place a job may be in. -/
inductive Place where
  | submit (s : ℕ)
  | queued (k : ℕ)
  | worker (i : ℕ)
  | delivered (k : ℕ)
  deriving DecidableEq

/-- Behind the registration, before the job is handed over. -/
def SubmitPc.isHolding : SubmitPc → Bool
  | .select | .unregister => true
  | _ => false

/-- The job a worker has, and the status the registry has for it. -/
def WorkerPc.holds : WorkerPc → Option (Job × JobStatus)
  | .start job => some (job, .pending)
  | .executing job | .finish job _ => some (job, .running)
  | .sending job res => some (job, res.status)
  | _ => none

/-- The result a worker has. -/
def WorkerPc.result? : WorkerPc → Option (Job × Result)
  | .finish job res | .sending job res => some (job, res)
  | _ => none

/-- The result of a job: its status ends what runs. -/
def IsResult (job : Job) (res : Result) : Prop :=
  res.jobID = job.id ∧ validTransition .running res.status = true

/-- **The job in a place**, and the status it should have. -/
def State.holds (E : State) : Place → Option (Job × JobStatus)
  | .submit s => (E.submits s).bind fun x => if x.pc.isHolding then some (x.job, .pending) else none
  | .queued k => if E.doneCh = .pending then E.queue[k]?.map fun job => (job, .pending) else none
  | .worker i => (E.workers i).holds
  | .delivered k => E.delivered[k]?.map fun d => (d.1, d.2.status)

/-- **Every registered job came from a `Submit`.** -/
structure Sourced (E : State) : Prop where
  source : ∀ {id j}, E.jobRegistry id = some j → ∃ x, E.submits j.call = some x ∧
    x.job.id = id ∧ { x.job with status := j.status } = j ∧
    (x.pc.isHolding = true ∨ x.pc = .leaving none ∨ x.pc = .returned none)
  call : ∀ {s x}, E.submits s = some x → x.job.call = s
  fresh : ∀ {s x}, E.submits s = some x → x.isInside = true → x.job.status = .pending

/-- **Every job in a place is registered**, and no two have one ID. -/
structure Placed (E : State) : Prop where
  registered : ∀ {p job st}, E.holds p = some (job, st) →
    E.jobRegistry job.id = some { job with status := st }
  unique : ∀ {p p' job job' st st'}, E.holds p = some (job, st) → E.holds p' = some (job', st') →
    job.id = job'.id → p = p'

/-- **The workers keep to the registry.** -/
structure Working (E : State) : Prop where
  /-- Who is running is with a worker. -/
  running : ∀ {id j}, E.jobRegistry id = some j → j.status = .running →
    ∃ i < E.workerCount, ∃ job, (E.workers i).holds = some (job, .running) ∧ job.id = id
  result : ∀ {i job res}, (E.workers i).result? = some (job, res) → IsResult job res
  results : ∀ d ∈ E.delivered, IsResult d.1 d.2
  unfailed : ∀ {i job res}, E.workers i ≠ .failed job res
  /-- There are no more workers than were started. -/
  idle : ∀ {i}, E.workerCount ≤ i → E.workers i = .idle

variable {E E' : State} {g i s k : ℕ}

theorem holds_submit {x : Submit} (hx : E.submits s = some x) (h : x.pc.isHolding = true) :
    E.holds (.submit s) = some (x.job, .pending) := by
  simp [State.holds, hx, h]

theorem SubmitPc.isInside_of_isHolding {pc : SubmitPc} (h : pc.isHolding = true) :
    pc.isInside = true := by
  cases pc <;> first | rfl | cases h

/-! ## Where the jobs came from -/

namespace Sourced

/-- Two entries that came from one `Submit` are one. -/
theorem id_eq (h : Sourced E) {id id' : Int64} {j j' : Job} (hj : E.jobRegistry id = some j)
    (hj' : E.jobRegistry id' = some j') (hcall : j.call = j'.call) : id = id' := by
  obtain ⟨x, hx, hid, -⟩ := h.source hj
  obtain ⟨x', hx', hid', -⟩ := h.source hj'
  rw [hcall, hx'] at hx
  cases hx
  exact hid.symm.trans hid'

/-- A `Submit` goes on, and the registry stays or loses its entry. -/
theorem submit_goes (h : Sourced E) {x y : Submit} (hx : E.submits s = some x)
    (hsub : E'.submits = Function.update E.submits s (some y))
    (hreg : ∀ {id j}, E'.jobRegistry id = some j → E.jobRegistry id = some j)
    (hid : y.job.id = x.job.id) (hcall : y.job.call = x.job.call)
    (hstays : ∀ {id j}, E'.jobRegistry id = some j → j.call = s → y.job = x.job ∧
      (y.pc.isHolding = true ∨ y.pc = .leaving none ∨ y.pc = .returned none))
    (hfresh : y.isInside = true → y.job.status = .pending) : Sourced E' where
  source := by
    intro id j hj
    obtain ⟨x', hx', hid', heq, hpc⟩ := h.source (hreg hj)
    rw [hsub]
    by_cases hs : j.call = s
    · obtain ⟨hjob, hpc'⟩ := hstays hj hs
      rw [hs, hx] at hx'
      cases hx'
      exact ⟨y, by rw [hs, Function.update_self], hid.trans hid', by rw [hjob]; exact heq, hpc'⟩
    · exact ⟨x', by rw [Function.update_of_ne hs]; exact hx', hid', heq, hpc⟩
  call := by
    intro n z hz
    rw [hsub] at hz
    by_cases hn : n = s
    · subst hn
      rw [Function.update_self] at hz
      cases hz
      exact hcall.trans (h.call hx)
    · rw [Function.update_of_ne hn] at hz
      exact h.call hz
  fresh := by
    intro n z hz
    rw [hsub] at hz
    by_cases hn : n = s
    · subst hn
      rw [Function.update_self] at hz
      cases hz
      exact hfresh
    · rw [Function.update_of_ne hn] at hz
      exact h.fresh hz

/-- The place an entry leaves its `Submit` in. -/
theorem pc_of_call (h : Sourced E) {x : Submit} (hx : E.submits s = some x) {id : Int64} {j : Job}
    (hj : E.jobRegistry id = some j) (hs : j.call = s) :
    x.job.id = id ∧ (x.pc.isHolding = true ∨ x.pc = .leaving none ∨ x.pc = .returned none) := by
  obtain ⟨x', hx', hid, -, hpc⟩ := h.source hj
  rw [hs, hx] at hx'
  cases hx'
  exact ⟨hid, hpc⟩

/-- **A step of a `Submit`**: only the registration brings an entry, and it is
that of the job it came with. -/
theorem submit_step (h : Sourced E) {x : Submit} (hx : E.submits s = some x)
    (hs : SubmitSteps E s x E') : Sourced E' := by
  have hpc' : ∀ {id j}, E.jobRegistry id = some j → j.call = s →
      x.pc.isHolding = true ∨ x.pc = .leaving none ∨ x.pc = .returned none :=
    fun hj hcall => (h.pc_of_call hx hj hcall).2
  have hfresh : x.isInside = true → x.job.status = .pending := h.fresh hx
  cases hs with
  | @passed pc hpc =>
    refine h.submit_goes (y := { x with pc := pc }) hx rfl id rfl rfl ?_ ?_
    · intro id j hj hcall
      refine ⟨rfl, ?_⟩
      rcases hpc with ⟨h1, -⟩ | ⟨h1, -, -⟩ | ⟨h1, -⟩ | ⟨-, rfl⟩
      · simpa [h1, SubmitPc.isHolding] using hpc' hj hcall
      · simpa [h1, SubmitPc.isHolding] using hpc' hj hcall
      · simpa [h1, SubmitPc.isHolding] using hpc' hj hcall
      · exact .inl rfl
    · intro hin
      rcases hpc with ⟨-, rfl | rfl⟩ | ⟨-, -, rfl⟩ | ⟨h1, -⟩ | ⟨h1, -⟩
      · cases hin
      · cases hin
      · cases hin
      · exact hfresh (by simp [Submit.isInside, h1, SubmitPc.isInside])
      · exact hfresh (by simp [Submit.isInside, h1, SubmitPc.isInside])
  | entered hpc hph =>
    refine h.submit_goes (y := ⟨{ x.job with status := .pending }, .register⟩) hx rfl id rfl rfl ?_ fun _ => rfl
    intro id j hj hcall
    simpa [hpc, SubmitPc.isHolding] using hpc' hj hcall
  | registered hpc hnew =>
    have hpending := hfresh (by simp [Submit.isInside, hpc, SubmitPc.isInside])
    -- the registry with nothing new in it, and then the new entry
    have hold : Sourced (E.putSubmit s { x with pc := .select }) := h.submit_goes hx rfl id rfl rfl
      (fun hj hcall => ⟨rfl, .inl rfl⟩) fun _ => hpending
    refine ⟨?_, hold.call, hold.fresh⟩
    intro id j hj
    dsimp only at hj
    by_cases hid : id = x.job.id
    · subst hid
      rw [Function.update_self] at hj
      cases hj
      rw [h.call hx]
      exact ⟨_, Function.update_self .., rfl, rfl, .inl rfl⟩
    · rw [Function.update_of_ne hid] at hj
      exact hold.source hj
  | send_panics hpc hj => exact ⟨h.source, h.call, h.fresh⟩
  | sent hpc hj hq =>
    exact h.submit_goes (y := { x with pc := .leaving none }) hx rfl id rfl rfl
      (fun _ _ => ⟨rfl, .inr (.inl rfl)⟩)
      fun _ => hfresh (by simp [Submit.isInside, hpc, SubmitPc.isInside])
  | handed hpc hj hq hi hw =>
    exact h.submit_goes (y := { x with pc := .leaving none }) hx rfl id rfl rfl
      (fun _ _ => ⟨rfl, .inr (.inl rfl)⟩)
      fun _ => hfresh (by simp [Submit.isInside, hpc, SubmitPc.isInside])
  | unregistered hpc =>
    have hkeeps : ∀ {id j}, Function.update E.jobRegistry x.job.id none id = some j →
        id ≠ x.job.id ∧ E.jobRegistry id = some j := by
      intro id j hj
      by_cases hid : id = x.job.id
      · rw [hid, Function.update_self] at hj
        cases hj
      · rw [Function.update_of_ne hid] at hj
        exact ⟨hid, hj⟩
    refine h.submit_goes (y := { x with pc := .leaving (some .notRunning) }) hx rfl
      (fun hj => (hkeeps hj).2) rfl rfl ?_
      fun _ => hfresh (by simp [Submit.isInside, hpc, SubmitPc.isInside])
    intro id j hj hcall
    exact absurd (h.pc_of_call hx (hkeeps hj).2 hcall).1.symm (hkeeps hj).1
  | @left err hpc =>
    refine h.submit_goes (y := { x with pc := .returned err }) hx rfl id rfl rfl ?_ (by rintro ⟨⟩)
    intro id j hj hcall
    refine ⟨rfl, .inr (.inr ?_)⟩
    simpa [hpc, SubmitPc.isHolding] using hpc' hj hcall

/-- The `Submit` calls stay where they are, and the entries keep what is not
their status. -/
theorem frame (h : Sourced E) (hsub : E'.submits = E.submits)
    (hreg : ∀ {id j}, E'.jobRegistry id = some j → ∃ j₀ st, E.jobRegistry id = some j₀ ∧ j = { j₀ with status := st }) :
    Sourced E' where
  source := by
    intro id j hj
    obtain ⟨j₀, st, hj₀, rfl⟩ := hreg hj
    obtain ⟨x, hx, hid, heq, hpc⟩ := h.source hj₀
    refine ⟨x, hsub ▸ hx, hid, ?_, hpc⟩
    rw [← heq]
  call hx := h.call (hsub ▸ hx)
  fresh hx := h.fresh (hsub ▸ hx)

theorem setStatus_entry {j j' : Job} {id id' : Int64} {st : JobStatus}
    (hj : E.jobRegistry id = some j) (hj' : (E.setStatus j id st).jobRegistry id' = some j') :
    ∃ j₀ st', E.jobRegistry id' = some j₀ ∧ j' = { j₀ with status := st' } := by
  simp only [State.setStatus] at hj'
  by_cases hid : id' = id
  · subst hid
    rw [Function.update_self] at hj'
    cases hj'
    exact ⟨j, st, hj, rfl⟩
  · rw [Function.update_of_ne hid] at hj'
    exact ⟨j', j'.status, hj', rfl⟩

theorem step (h : Sourced E) (hg : Staged E g) {a : Action} (hs : Steps E a E') : Sourced E' := by
  have hsame : ∀ {id j}, E.jobRegistry id = some j →
      ∃ j₀ st, E.jobRegistry id = some j₀ ∧ j = { j₀ with status := st } := fun hj => ⟨_, _, hj, rfl⟩
  cases hs with
  | idle => exact h
  | submit job =>
    have hold : ∀ {n z}, Function.update E.submits E.nextSubmit
        (some ⟨{ job with call := E.nextSubmit }, .check⟩) n = some z →
        (n = E.nextSubmit ∧ z = ⟨{ job with call := E.nextSubmit }, .check⟩) ∨ E.submits n = some z := by
      intro n z hz
      by_cases hn : n = E.nextSubmit
      · subst hn
        rw [Function.update_self] at hz
        exact .inl ⟨rfl, (Option.some.inj hz).symm⟩
      · rw [Function.update_of_ne hn] at hz
        exact .inr hz
    refine ⟨?_, ?_, ?_⟩
    · intro id j hj
      obtain ⟨x, hx, hrest⟩ := h.source hj
      have hlt := hg.submits hx
      exact ⟨x, (Function.update_of_ne (by omega) ..).trans hx, hrest⟩
    · intro n z hz
      rcases hold hz with ⟨rfl, rfl⟩ | hz
      · rfl
      · exact h.call hz
    · intro n z hz hin
      rcases hold hz with ⟨rfl, rfl⟩ | hz
      · cases hin
      · exact h.fresh hz hin
  | submitStep hx hs => exact h.submit_step hx hs
  | worker hi hs =>
    cases hs with
    | began hw hj hv => exact h.frame rfl (setStatus_entry hj)
    | updated hw hj hv => exact h.frame rfl (setStatus_entry hj)
    | _ => exact h.frame rfl hsame
  | shutdown force => exact h.frame rfl hsame
  | shutdownStep hx hs =>
    cases hs with
    | cancelledPending hpc =>
      refine h.frame rfl fun {id j} hj => ?_
      obtain ⟨j₀, hj₀, rfl⟩ := Option.map_eq_some_iff.1 hj
      by_cases hp : j₀.status = .pending
      · exact ⟨j₀, .cancelled, hj₀, if_pos hp⟩
      · exact ⟨j₀, j₀.status, hj₀, if_neg hp⟩
    | _ => exact h.frame rfl hsame

end Sourced

/-! ## What the workers do -/

theorem isResult_executeJob (job : Job) (out : Except TaskError Bytes) (err : Option Coordinator.ContextError)
    (deadline : Option ℕ) (now : ℕ) : IsResult job (Worker.executeJob job.id out err deadline now) := by
  have herror : ∀ e, IsResult job (Worker.errorResult job.id e) := by
    intro e
    refine ⟨rfl, ?_⟩
    unfold Worker.errorResult
    dsimp only
    split <;> rfl
  unfold Worker.executeJob
  split
  · exact herror _
  · split
    · exact herror _
    · exact ⟨rfl, rfl⟩

namespace Working

/-- Workers and results stay as they are, and nobody begins to run. -/
theorem frame (h : Working E) (hw : E'.workers = E.workers) (hn : E'.workerCount = E.workerCount)
    (hd : E'.delivered = E.delivered)
    (hreg : ∀ {id j}, E'.jobRegistry id = some j → j.status = .running →
      ∃ j₀, E.jobRegistry id = some j₀ ∧ j₀.status = .running) : Working E' where
  running := by
    intro id j hj hst
    obtain ⟨j₀, hj₀, hst₀⟩ := hreg hj hst
    rw [hw, hn]
    exact h.running hj₀ hst₀
  result hr := h.result (hw ▸ hr)
  results d hd' := h.results d (hd ▸ hd')
  unfailed := by
    intro i job res hf
    rw [hw] at hf
    exact h.unfailed hf
  idle hi := by
    rw [hw]
    exact h.idle (hn ▸ hi)

/-- A worker goes on to `p`. What runs behind the step runs with it, or was
running before with another worker. -/
theorem goes (h : Working E) {p : WorkerPc} (hi : i < E.workerCount)
    (hw : E'.workers = Function.update E.workers i p) (hn : E'.workerCount = E.workerCount)
    (hrun : ∀ {id j}, E'.jobRegistry id = some j → j.status = .running →
      (∃ job, p.holds = some (job, .running) ∧ job.id = id) ∨
        (∃ j₀, E.jobRegistry id = some j₀ ∧ j₀.status = .running) ∧
          ∀ job, (E.workers i).holds = some (job, .running) → job.id ≠ id)
    (hres : ∀ {job res}, p.result? = some (job, res) → IsResult job res)
    (hdel : ∀ d ∈ E'.delivered, IsResult d.1 d.2) (hfail : ∀ {job res}, p ≠ .failed job res) :
    Working E' where
  running := by
    intro id j hj hst
    rw [hn, hw]
    rcases hrun hj hst with ⟨job, hhold, hid⟩ | ⟨⟨j₀, hj₀, hst₀⟩, hother⟩
    · exact ⟨i, hi, job, by rw [Function.update_self]; exact hhold, hid⟩
    · obtain ⟨n, hlt, job, hhold, hid⟩ := h.running hj₀ hst₀
      by_cases hni : n = i
      · subst hni
        exact absurd hid (hother job hhold)
      · exact ⟨n, hlt, job, by rw [Function.update_of_ne hni]; exact hhold, hid⟩
  result := by
    intro n job res hr
    rw [hw] at hr
    by_cases hni : n = i
    · subst hni
      rw [Function.update_self] at hr
      exact hres hr
    · rw [Function.update_of_ne hni] at hr
      exact h.result hr
  results := hdel
  unfailed := by
    intro n job res hf
    rw [hw] at hf
    by_cases hni : n = i
    · subst hni
      rw [Function.update_self] at hf
      exact hfail hf
    · rw [Function.update_of_ne hni] at hf
      exact h.unfailed hf
  idle := by
    intro n hle
    rw [hn] at hle
    rw [hw, Function.update_of_ne (by omega)]
    exact h.idle hle

/-- A worker that sends has a result. -/
theorem sends_eq (h : Working E) {job : Job} {res : Result} (hs : (E.workers i).sends = some (job, res)) :
    E.workers i = .sending job res ∧ IsResult job res := by
  have hw : E.workers i = .sending job res := by
    cases hpc : E.workers i with
    | failed => exact absurd hpc h.unfailed
    | sending =>
      rw [hpc] at hs
      cases hs
      rfl
    | _ =>
      rw [hpc] at hs
      cases hs
  exact ⟨hw, h.result (by rw [hw]; rfl)⟩

theorem ne_running {st : JobStatus} (h : validTransition .running st = true) : st ≠ .running := by
  rintro rfl
  cases h

/-- The registry has the status an update by a worker starts from, so the
update does not fail. -/
theorem updates (h : Working E) (hp : Placed E) {job : Job} {st : JobStatus}
    (hw : (E.workers i = .start job ∧ st = .running) ∨ ∃ res, E.workers i = .finish job res ∧ st = res.status) :
    ∃ j, E.jobRegistry job.id = some j ∧ validTransition j.status st = true := by
  rcases hw with ⟨hw, rfl⟩ | ⟨res, hw, rfl⟩
  · have hhold : E.holds (.worker i) = some (job, .pending) := by
      rw [State.holds, hw]
      rfl
    exact ⟨_, hp.registered hhold, rfl⟩
  · have hhold : E.holds (.worker i) = some (job, .running) := by
      rw [State.holds, hw]
      rfl
    have hres : IsResult job res := h.result (i := i) (by rw [hw]; rfl)
    exact ⟨_, hp.registered hhold, hres.2⟩

/-- A worker gives up nothing that runs but a job that has ended. -/
theorem sends_ne (h : Working E) {job job' : Job} {res : Result} (hs : (E.workers i).sends = some (job, res)) :
    (E.workers i).holds ≠ some (job', .running) := by
  obtain ⟨hw, hres⟩ := h.sends_eq hs
  intro hhold
  rw [hw, WorkerPc.holds, Option.some.injEq, Prod.mk.injEq] at hhold
  exact ne_running hres.2 hhold.2

/-- **A step of a worker**: what it begins runs with it, and what ends is
behind it. -/
theorem worker_step (h : Working E) (hp : Placed E) {c : WorkerChoice} (hi : i < E.workerCount)
    (hs : WorkerSteps E i c E') : Working E' := by
  have hold : ∀ {id j}, E.jobRegistry id = some j → j.status = .running →
      ∃ j₀, E.jobRegistry id = some j₀ ∧ j₀.status = .running := fun hj hst => ⟨_, hj, hst⟩
  cases hs with
  | took hw hq =>
    exact h.goes hi rfl rfl (fun hj hst => .inr ⟨hold hj hst, by rw [hw]; rintro _ ⟨⟩⟩) (by rintro _ _ ⟨⟩) h.results (by rintro _ _ ⟨⟩)
  | closed hw hq hj =>
    exact h.goes hi rfl rfl (fun hj hst => .inr ⟨hold hj hst, by rw [hw]; rintro _ ⟨⟩⟩) (by rintro _ _ ⟨⟩) h.results (by rintro _ _ ⟨⟩)
  | quit hw hc =>
    refine h.goes hi rfl rfl (fun hj hst => .inr ⟨hold hj hst, ?_⟩) (by rintro _ _ ⟨⟩) h.results (by rintro _ _ ⟨⟩)
    intro job hhold
    rcases hw with hw | hw
    · rw [hw] at hhold
      cases hhold
    · obtain ⟨⟨job', res⟩, hsends⟩ := Option.ne_none_iff_exists'.1 hw
      exact absurd hhold (h.sends_ne hsends)
  | @began job j hw hj hv =>
    refine h.goes (p := .executing job) hi rfl rfl ?_ (by rintro _ _ ⟨⟩) h.results (by rintro _ _ ⟨⟩)
    intro id j' hj' hst
    simp only [State.setStatus, State.putWorker] at hj'
    by_cases hid : id = job.id
    · exact .inl ⟨job, rfl, hid.symm⟩
    · rw [Function.update_of_ne hid] at hj'
      exact .inr ⟨hold hj' hst, by rw [hw]; rintro _ ⟨⟩⟩
  | @ran job res out err deadline now hw hres hc =>
    refine h.goes (p := .finish job res) hi rfl rfl ?_ ?_ h.results (by rintro _ _ ⟨⟩)
    · intro id j hj hst
      by_cases hid : job.id = id
      · exact .inl ⟨job, rfl, hid⟩
      · refine .inr ⟨hold hj hst, ?_⟩
        rw [hw]
        intro job' hhold
        cases hhold
        exact hid
    · intro job' res' hr
      cases hr
      rw [hres]
      exact isResult_executeJob ..
  | @updated job j res hw hj hv =>
    have hres : IsResult job res := h.result (i := i) (by rw [hw]; rfl)
    refine h.goes (p := .sending job res) hi rfl rfl ?_ ?_ h.results (by rintro _ _ ⟨⟩)
    · intro id j' hj' hst
      simp only [State.setStatus, State.putWorker] at hj'
      by_cases hid : id = job.id
      · rw [hid, Function.update_self] at hj'
        cases hj'
        exact absurd hst (ne_running hres.2)
      · rw [Function.update_of_ne hid] at hj'
        refine .inr ⟨hold hj' hst, ?_⟩
        rw [hw]
        intro job' hhold
        cases hhold
        exact Ne.symm hid
    · intro job' res' hr
      cases hr
      exact hres
  | @failed job e st hw hj =>
    obtain ⟨j, hreg, hv⟩ := h.updates hp hw
    rw [hj j hreg] at hv
    cases hv
  | deliver_panics hw hr => exact h.frame rfl rfl rfl hold
  | @delivered job res hw hr =>
    refine h.goes (p := .idle) hi rfl rfl (fun hj hst => .inr ⟨hold hj hst, ?_⟩) (by rintro _ _ ⟨⟩) ?_ (by rintro _ _ ⟨⟩)
    · exact fun job' hhold => absurd hhold (h.sends_ne hw)
    · intro d hd
      rcases List.mem_append.1 hd with hd | hd
      · exact h.results d hd
      · rw [List.mem_singleton.1 hd]
        exact (h.sends_eq hw).2

/-- **A step of a `Submit`** leaves what runs alone. -/
theorem submit_step (h : Working E) (hsrc : Sourced E) {x : Submit} (hx : E.submits s = some x)
    (hs : SubmitSteps E s x E') : Working E' := by
  have hold : ∀ {id j}, E.jobRegistry id = some j → j.status = .running →
      ∃ j₀, E.jobRegistry id = some j₀ ∧ j₀.status = .running := fun hj hst => ⟨_, hj, hst⟩
  cases hs with
  | registered hpc hnew =>
    have hpending := hsrc.fresh hx (by simp [Submit.isInside, hpc, SubmitPc.isInside])
    refine h.frame rfl rfl rfl ?_
    intro id j hj hst
    dsimp only at hj
    by_cases hid : id = x.job.id
    · rw [hid, Function.update_self] at hj
      cases hj
      rw [hpending] at hst
      cases hst
    · rw [Function.update_of_ne hid] at hj
      exact hold hj hst
  | unregistered hpc =>
    refine h.frame rfl rfl rfl ?_
    intro id j hj hst
    dsimp only at hj
    by_cases hid : id = x.job.id
    · rw [hid, Function.update_self] at hj
      cases hj
    · rw [Function.update_of_ne hid] at hj
      exact hold hj hst
  | handed hpc hj hq hi hw =>
    exact h.goes hi rfl rfl (fun hj hst => .inr ⟨hold hj hst, by rw [hw]; rintro _ ⟨⟩⟩) (by rintro _ _ ⟨⟩) h.results (by rintro _ _ ⟨⟩)
  | _ => exact h.frame rfl rfl rfl hold

theorem step (h : Working E) (hsrc : Sourced E) (hp : Placed E) {a : Action} (hs : Steps E a E') :
    Working E' := by
  have hold : ∀ {id j}, E.jobRegistry id = some j → j.status = .running →
      ∃ j₀, E.jobRegistry id = some j₀ ∧ j₀.status = .running := fun hj hst => ⟨_, hj, hst⟩
  cases hs with
  | submitStep hx hs => exact h.submit_step hsrc hx hs
  | worker hi hs => exact h.worker_step hp hi hs
  | shutdownStep hx hs =>
    cases hs with
    | cancelledPending hpc =>
      refine h.frame rfl rfl rfl ?_
      intro id j hj hst
      obtain ⟨j₀, hj₀, rfl⟩ := Option.map_eq_some_iff.1 hj
      by_cases hpend : j₀.status = .pending
      · rw [if_pos hpend] at hst
        cases hst
      · rw [if_neg hpend] at hst
        exact ⟨j₀, hj₀, hst⟩
    | _ => exact h.frame rfl rfl rfl hold
  | _ => exact h.frame rfl rfl rfl hold

end Working

/-! ## One place for every job -/

theorem putSubmit_holds_eq {x y : Submit} (hx : E.submits s = some x)
    (hjob : x.pc.isHolding = true → y.job = x.job) (hpc : y.pc.isHolding = x.pc.isHolding) (p : Place) :
    (E.putSubmit s y).holds p = E.holds p := by
  cases p with
  | submit n =>
    by_cases hn : n = s
    · subst hn
      cases hhold : x.pc.isHolding with
      | false => simp [State.holds, State.putSubmit, hx, hpc, hhold]
      | true => simp [State.holds, State.putSubmit, hx, hpc, hhold, hjob hhold]
    · simp [State.holds, State.putSubmit, Function.update_of_ne hn]
  | _ => rfl

namespace Placed

/-- No job changes its place, and no status changes. -/
theorem frame (h : Placed E) (hholds : ∀ {p v}, E'.holds p = some v → E.holds p = some v)
    (hreg : ∀ {p job st}, E'.holds p = some (job, st) → E'.jobRegistry job.id = E.jobRegistry job.id) :
    Placed E' where
  registered hp := (hreg hp).trans (h.registered (hholds hp))
  unique hp hp' := h.unique (hholds hp) (hholds hp')

/-- **One job goes from one place to another**, its status set. Every place
`p` has what `f p` had before, and `q` is where the job is now. -/
theorem moved (h : Placed E) {f : Place → Place} {q : Place} {job₀ : Job} {st t : JobStatus}
    (hf : Function.Injective f) (hplace : E.holds (f q) = some (job₀, st))
    (hq : ∀ {v}, E'.holds q = some v → v = (job₀, t))
    (hother : ∀ {p v}, p ≠ q → E'.holds p = some v → E.holds (f p) = some v)
    (hset : E'.jobRegistry job₀.id = some { job₀ with status := t })
    (hreg : ∀ {id}, id ≠ job₀.id → E'.jobRegistry id = E.jobRegistry id) : Placed E' := by
  have hcarry : ∀ {p job st}, E'.holds p = some (job, st) → ∃ st', E.holds (f p) = some (job, st') := by
    intro p job st' hp
    by_cases hpq : p = q
    · subst hpq
      cases hq hp
      exact ⟨st, hplace⟩
    · exact ⟨st', hother hpq hp⟩
  have hunique : ∀ {p p' job job' st st'}, E'.holds p = some (job, st) →
      E'.holds p' = some (job', st') → job.id = job'.id → p = p' := by
    intro p p' job job' st' st'' hp hp' hid
    obtain ⟨_, h1⟩ := hcarry hp
    obtain ⟨_, h2⟩ := hcarry hp'
    exact hf (h.unique h1 h2 hid)
  refine ⟨?_, hunique⟩
  intro p job st' hp
  by_cases hpq : p = q
  · subst hpq
    cases hq hp
    exact hset
  · -- another job has another ID
    have hid : job.id ≠ job₀.id := fun hid => hpq (hf (h.unique (hother hpq hp) hplace hid))
    rw [hreg hid]
    exact h.registered (hother hpq hp)

/-- The same where every other job stays: what was in `a` is in `q`. -/
theorem goes (h : Placed E) {a q : Place} {job₀ : Job} {st t : JobStatus}
    (hplace : E.holds a = some (job₀, st)) (hgone : a ≠ q → E'.holds a = none)
    (hq : ∀ {v}, E'.holds q = some v → v = (job₀, t))
    (hother : ∀ {p v}, p ≠ a → p ≠ q → E'.holds p = some v → E.holds p = some v)
    (hset : E'.jobRegistry job₀.id = some { job₀ with status := t })
    (hreg : ∀ {id}, id ≠ job₀.id → E'.jobRegistry id = E.jobRegistry id) : Placed E' := by
  refine h.moved (Equiv.swap a q).injective (by rw [Equiv.swap_apply_right]; exact hplace) hq ?_ hset hreg
  intro p v hpq hp
  by_cases hpa : p = a
  · subst hpa
    rw [hgone hpq] at hp
    cases hp
  · rw [Equiv.swap_apply_of_ne_of_ne hpa hpq]
    exact hother hpa hpq hp

/-- A job that is new comes to a place. -/
theorem adds (h : Placed E) {q : Place} {job₀ : Job} (hnew : E.jobRegistry job₀.id = none)
    (hself : E'.holds q = some (job₀, job₀.status)) (hother : ∀ {p}, p ≠ q → E'.holds p = E.holds p)
    (hset : E'.jobRegistry job₀.id = some job₀)
    (hreg : ∀ {id}, id ≠ job₀.id → E'.jobRegistry id = E.jobRegistry id) : Placed E' := by
  -- no other job has its ID
  have hnew' : ∀ {p job st}, p ≠ q → E'.holds p = some (job, st) →
      E.holds p = some (job, st) ∧ job.id ≠ job₀.id := by
    intro p job st hpq hp
    rw [hother hpq] at hp
    refine ⟨hp, fun hid => ?_⟩
    have := h.registered hp
    rw [hid, hnew] at this
    cases this
  refine ⟨?_, ?_⟩
  · intro p job st hp
    by_cases hpq : p = q
    · rw [hpq, hself] at hp
      cases hp
      exact hset
    · obtain ⟨hold, hid⟩ := hnew' hpq hp
      rw [hreg hid]
      exact h.registered hold
  · intro p p' job job' st st' hp hp' hid
    by_cases hpq : p = q
    · by_cases hpq' : p' = q
      · rw [hpq, hpq']
      · rw [hpq, hself] at hp
        cases hp
        exact absurd hid.symm (hnew' hpq' hp').2
    · by_cases hpq' : p' = q
      · rw [hpq', hself] at hp'
        cases hp'
        exact absurd hid (hnew' hpq hp).2
      · exact h.unique (hnew' hpq hp).1 (hnew' hpq' hp').1 hid

/-- A job leaves its place and the registry. -/
theorem drops (h : Placed E) {q : Place} {job₀ : Job} {st₀ : JobStatus} (hhold : E.holds q = some (job₀, st₀))
    (hself : E'.holds q = none) (hother : ∀ {p}, p ≠ q → E'.holds p = E.holds p)
    (hreg : ∀ {id}, id ≠ job₀.id → E'.jobRegistry id = E.jobRegistry id) : Placed E' := by
  have hstays : ∀ {p v}, E'.holds p = some v → p ≠ q ∧ E.holds p = some v := by
    intro p v hp
    by_cases hpq : p = q
    · rw [hpq, hself] at hp
      cases hp
    · exact ⟨hpq, hother hpq ▸ hp⟩
  refine h.frame (fun hp => (hstays hp).2) fun {p job st} hp => ?_
  obtain ⟨hpq, hp⟩ := hstays hp
  exact hreg fun hid => hpq (h.unique hp hhold hid)

/-- Another place than those a `Submit` has to do with. -/
theorem holds_eq_of_submits {y : Submit} (hsub : E'.submits = Function.update E.submits s (some y))
    (hw : E'.workers = E.workers) (hq : E'.queue = E.queue) (hd : E'.doneCh = E.doneCh)
    (hdel : E'.delivered = E.delivered) {p : Place} (hp : p ≠ .submit s) : E'.holds p = E.holds p := by
  cases p with
  | submit n =>
    have hn : n ≠ s := fun hn => hp (by rw [hn])
    simp only [State.holds, hsub, Function.update_of_ne hn]
  | queued k => simp only [State.holds, hq, hd]
  | worker n => simp only [State.holds, hw]
  | delivered k => simp only [State.holds, hdel]

/-- Another place than those a worker has to do with. -/
theorem holds_eq_of_workers {p : WorkerPc} (hw : E'.workers = Function.update E.workers i p)
    (hsub : E'.submits = E.submits) (hq : E'.queue = E.queue) (hd : E'.doneCh = E.doneCh)
    (hdel : E'.delivered = E.delivered) {q : Place} (hqi : q ≠ .worker i) : E'.holds q = E.holds q := by
  cases q with
  | submit n => simp only [State.holds, hsub]
  | queued k => simp only [State.holds, hq, hd]
  | worker n =>
    have hn : n ≠ i := fun hn => hqi (by rw [hn])
    simp only [State.holds, hw, Function.update_of_ne hn]
  | delivered k => simp only [State.holds, hdel]

/-- What a list with one item more holds elsewhere. -/
theorem getElem?_of_append_singleton {α : Type} {xs : List α} {x y : α} {k : ℕ} (hk : k ≠ xs.length)
    (h : (xs ++ [x])[k]? = some y) : xs[k]? = some y := by
  rcases Nat.lt_or_gt_of_ne hk with hlt | hgt
  · rwa [List.getElem?_append_left hlt] at h
  · rw [List.getElem?_eq_none (by simp; omega)] at h
    cases h

/-- A `Submit` goes on with its job, or without one. -/
theorem submit_stays (h : Placed E) {x y : Submit} (hx : E.submits s = some x)
    (hjob : x.pc.isHolding = true → y.job = x.job) (hpc : y.pc.isHolding = x.pc.isHolding)
    (hp : ∀ p, E'.holds p = (E.putSubmit s y).holds p) (hreg : E'.jobRegistry = E.jobRegistry) : Placed E' := by
  refine h.frame (fun {p v} hv => ?_) fun {p job st} _ => by rw [hreg]
  rw [hp, putSubmit_holds_eq hx hjob hpc] at hv
  exact hv

/-- **A step of a `Submit`**: it puts its job in the registry, hands it to
the queue or to a worker, or takes it out of the registry again. -/
theorem submit_step (h : Placed E) (hsrc : Sourced E) (hg : Staged E g) {x : Submit}
    (hx : E.submits s = some x) (hs : SubmitSteps E s x E') : Placed E' := by
  cases hs with
  | @passed pc hpc =>
    refine h.submit_stays (y := { x with pc := pc }) hx (fun _ => rfl) ?_ (fun _ => rfl) rfl
    rcases hpc with ⟨h1, rfl | rfl⟩ | ⟨h1, -, rfl⟩ | ⟨h1, rfl⟩ | ⟨h1, rfl⟩ <;> rw [h1] <;> rfl
  | entered hpc hph =>
    refine h.submit_stays (y := ⟨{ x.job with status := .pending }, .register⟩) hx ?_ (by rw [hpc]; rfl)
      (fun p => by cases p <;> rfl) rfl
    rw [hpc]
    rintro ⟨⟩
  | registered hpc hnew =>
    have hpending := hsrc.fresh hx (by simp [Submit.isInside, hpc, SubmitPc.isInside])
    refine h.adds (q := .submit s) hnew ?_ (fun hp => ?_) (Function.update_self ..)
      fun hid => Function.update_of_ne hid ..
    · simp [State.holds, State.putSubmit, SubmitPc.isHolding, hpending]
    · refine holds_eq_of_submits (y := { x with pc := .select }) ?_ ?_ ?_ ?_ ?_ hp <;> rfl
  | send_panics hpc hj =>
    have hlt := hg.jobs_of_inside hx (by simp [Submit.isInside, hpc, SubmitPc.isInside])
    exact absurd (by rw [hg.jobs, if_pos hlt]) hj
  | sent hpc hj hq =>
    have hhold := holds_submit hx (by rw [hpc]; rfl)
    refine h.goes (q := .queued E.queue.length) (t := .pending) hhold (fun _ => ?_) ?_ ?_
      (h.registered hhold) fun _ => rfl
    · simp [State.holds, State.putSubmit, SubmitPc.isHolding]
    · intro v hv
      by_cases hd : E.doneCh = .pending
      · simpa [State.holds, State.putSubmit, hd] using hv.symm
      · simp [State.holds, State.putSubmit, hd] at hv
    · intro p v hps hp hv
      cases p with
      | submit n =>
        have hn : n ≠ s := fun hn => hps (by rw [hn])
        simpa [State.holds, State.putSubmit, Function.update_of_ne hn] using hv
      | queued k =>
        have hk : k ≠ E.queue.length := fun hk => hp (by rw [hk])
        by_cases hd : E.doneCh = .pending
        · simp only [State.holds, State.putSubmit, hd, if_true, Option.map_eq_some_iff] at hv ⊢
          obtain ⟨job, hjob, hv⟩ := hv
          exact ⟨job, getElem?_of_append_singleton hk hjob, hv⟩
        · simp [State.holds, State.putSubmit, hd] at hv
      | _ => exact hv
  | @handed i hpc hj hq hi hw =>
    have hhold := holds_submit hx (by rw [hpc]; rfl)
    refine h.goes (q := .worker i) (t := .pending) hhold (fun _ => ?_) ?_ ?_ (h.registered hhold) fun _ => rfl
    · simp [State.holds, State.putSubmit, State.putWorker, SubmitPc.isHolding]
    · intro v hv
      simpa [State.holds, State.putSubmit, State.putWorker, WorkerPc.holds] using hv.symm
    · intro p v hps hp hv
      have hsub : (E.putSubmit s { x with pc := .leaving none }).holds p = E.holds p := by
        refine holds_eq_of_submits (y := { x with pc := .leaving none }) ?_ ?_ ?_ ?_ ?_ hps <;> rfl
      rw [← hsub, ← hv]
      refine (holds_eq_of_workers (p := .start x.job) ?_ ?_ ?_ ?_ ?_ hp).symm <;> rfl
  | unregistered hpc =>
    have hhold := holds_submit hx (by rw [hpc]; rfl)
    refine h.drops hhold ?_ (fun hp => ?_) fun hid => Function.update_of_ne hid ..
    · simp [State.holds, State.putSubmit, SubmitPc.isHolding]
    · refine holds_eq_of_submits (y := { x with pc := .leaving (some .notRunning) }) ?_ ?_ ?_ ?_ ?_ hp <;> rfl
  | @left err hpc =>
    exact h.submit_stays (y := { x with pc := .returned err }) hx (fun _ => rfl) (by rw [hpc]; rfl)
      (fun p => by cases p <;> rfl) rfl

/-- A worker goes on with its job, whose status is set. -/
theorem worker_goes (h : Placed E) {p : WorkerPc} {job : Job} {st t : JobStatus}
    (hold : (E.workers i).holds = some (job, st)) (hp : p.holds = some (job, t))
    (hw : E'.workers = Function.update E.workers i p)
    (hsub : E'.submits = E.submits) (hq : E'.queue = E.queue) (hd : E'.doneCh = E.doneCh)
    (hdel : E'.delivered = E.delivered)
    (hset : E'.jobRegistry job.id = some { job with status := t })
    (hreg : ∀ {id}, id ≠ job.id → E'.jobRegistry id = E.jobRegistry id) : Placed E' := by
  refine h.goes (a := .worker i) (q := .worker i) hold (fun hne => absurd rfl hne) ?_ ?_ hset hreg
  · intro v hv
    rw [State.holds, hw, Function.update_self, hp] at hv
    exact (Option.some.inj hv).symm
  · intro q v hqi _ hv
    rwa [holds_eq_of_workers hw hsub hq hd hdel hqi] at hv

/-- A worker leaves what it has. -/
theorem worker_leaves (h : Placed E) {p : WorkerPc} (hp : p.holds = none)
    (hw : E'.workers = Function.update E.workers i p)
    (hsub : E'.submits = E.submits) (hq : E'.queue = E.queue) (hd : E'.doneCh = E.doneCh)
    (hdel : E'.delivered = E.delivered) (hreg : E'.jobRegistry = E.jobRegistry) : Placed E' := by
  refine h.frame (fun {q v} hv => ?_) fun _ => by rw [hreg]
  by_cases hqi : q = .worker i
  · subst hqi
    rw [State.holds, hw, Function.update_self, hp] at hv
    cases hv
  · rwa [holds_eq_of_workers hw hsub hq hd hdel hqi] at hv

/-- What the worker that takes the head of the queue does to the places. -/
def shift (i : ℕ) : Place → Place
  | .worker n => if n = i then .queued 0 else .worker n
  | .queued k => .queued (k + 1)
  | p => p

theorem shift_injective : Function.Injective (shift i) := by
  intro p p' h
  cases p <;> cases p' <;> simp only [shift] at h <;> (repeat' split at h) <;> simp_all

/-- **A step of a worker**: it takes a job off the queue, goes on with it, or
delivers it. -/
theorem worker_step (h : Placed E) (hwk : Working E) (hg : Staged E g) {c : WorkerChoice}
    (hi : i < E.workerCount) (hs : WorkerSteps E i c E') : Placed E' := by
  cases hs with
  | @took job rest hw hq =>
    have hd : E.doneCh = .pending := by
      have hlt := hg.results_of_alive hi (by rw [hw]; rintro ⟨⟩)
      rw [hg.doneCh, if_pos (by omega)]
    have hhead : E.holds (.queued 0) = some (job, .pending) := by
      simp only [State.holds, hd, if_true, hq]
      rfl
    refine h.moved (q := .worker i) (t := .pending) shift_injective
      (by rw [shift, if_pos rfl]; exact hhead) ?_ ?_ (h.registered hhead) fun _ => rfl
    · intro v hv
      simpa [State.holds, State.putWorker, WorkerPc.holds] using hv.symm
    · intro p v hp hv
      cases p with
      | worker n =>
        have hn : n ≠ i := fun hn => hp (by rw [hn])
        rw [shift, if_neg hn]
        simpa [State.holds, State.putWorker, Function.update_of_ne hn] using hv
      | queued k =>
        simp only [shift, State.holds, State.putWorker, hd, if_true, hq, List.getElem?_cons_succ] at hv ⊢
        exact hv
      | _ => exact hv
  | closed hw hq hj => exact h.worker_leaves (p := .gone) rfl rfl rfl rfl rfl rfl rfl
  | quit hw hc => exact h.worker_leaves (p := .gone) rfl rfl rfl rfl rfl rfl rfl
  | @began job j hw hj hv =>
    have hold : (E.workers i).holds = some (job, .pending) := by rw [hw]; rfl
    have hreg := h.registered (p := .worker i) hold
    rw [hj] at hreg
    refine h.worker_goes (p := .executing job) hold rfl rfl rfl rfl rfl rfl ?_ fun hid =>
      Function.update_of_ne hid ..
    simp only [State.setStatus, State.putWorker, Function.update_self, Option.some.inj hreg]
  | @ran job res out err deadline now hw hres hc =>
    have hold : (E.workers i).holds = some (job, .running) := by rw [hw]; rfl
    exact h.worker_goes (p := .finish job res) hold rfl rfl rfl rfl rfl rfl
      (h.registered (p := .worker i) hold) fun _ => rfl
  | @updated job j res hw hj hv =>
    have hold : (E.workers i).holds = some (job, .running) := by rw [hw]; rfl
    have hreg := h.registered (p := .worker i) hold
    rw [hj] at hreg
    refine h.worker_goes (p := .sending job res) hold rfl rfl rfl rfl rfl rfl ?_ fun hid =>
      Function.update_of_ne hid ..
    simp only [State.setStatus, State.putWorker, Function.update_self, Option.some.inj hreg]
  | @failed job e st hw hj =>
    exact h.worker_leaves (p := .failed _ _) rfl rfl rfl rfl rfl rfl rfl
  | deliver_panics hw hr => exact h.frame (fun hv => hv) fun _ => rfl
  | @delivered job res hw hr =>
    obtain ⟨hw', hres⟩ := hwk.sends_eq hw
    have hold : E.holds (.worker i) = some (job, res.status) := by rw [State.holds, hw']; rfl
    refine h.goes (q := .delivered E.delivered.length) (t := res.status) hold (fun _ => ?_) ?_ ?_
      (h.registered hold) fun _ => rfl
    · simp [State.holds, State.putWorker, WorkerPc.holds]
    · intro v hv
      simpa [State.holds, State.putWorker] using hv.symm
    · intro p v hpi hp hv
      cases p with
      | worker n =>
        have hn : n ≠ i := fun hn => hpi (by rw [hn])
        simpa [State.holds, State.putWorker, Function.update_of_ne hn] using hv
      | delivered k =>
        have hk : k ≠ E.delivered.length := fun hk => hp (by rw [hk])
        obtain ⟨d, hd, hv⟩ := Option.map_eq_some_iff.1 hv
        exact Option.map_eq_some_iff.2 ⟨d, getElem?_of_append_singleton hk hd, hv⟩
      | _ => exact hv

/-- Once the executor has stopped, what is in a place has ended. -/
theorem ended (hwk : Working E) (hg : Staged E 4) {p : Place} {job : Job} {st : JobStatus}
    (hp : E.holds p = some (job, st)) : validTransition .running st = true := by
  cases p with
  | submit s =>
    obtain ⟨x, hx, hpc⟩ := Option.bind_eq_some_iff.1 hp
    split at hpc
    · rename_i hhold
      have := hg.jobs_of_inside hx (SubmitPc.isInside_of_isHolding hhold)
      omega
    · cases hpc
  | queued k =>
    have hd := hg.doneCh
    rw [if_neg (by omega)] at hd
    simp [State.holds, hd] at hp
  | worker i =>
    by_cases hi : i < E.workerCount
    · by_cases hgone : E.workers i = .gone
      · rw [State.holds, hgone] at hp
        cases hp
      · have := hg.results_of_alive hi hgone
        omega
    · rw [State.holds, hwk.idle (by omega)] at hp
      cases hp
  | delivered k =>
    obtain ⟨d, hd, hv⟩ := Option.map_eq_some_iff.1 hp
    cases hv
    exact (hwk.results d (List.mem_of_getElem? hd)).2

theorem shutdown_step (h : Placed E) (hwk : Working E) (hg : Staged E g) {x : ShutdownCall}
    (hx : E.shutdowns k = some x) (hs : ShutdownSteps E k x E') : Placed E' := by
  cases hs with
  | finished hpc =>
    refine h.frame (fun {p v} hv => ?_) fun _ => rfl
    cases p with
    | queued n =>
      have hg3 : 3 = g := hg.leader hx (by rw [hpc]; rfl)
      have hd := hg.doneCh
      rw [if_pos (by omega)] at hd
      simp [State.holds, hd] at hv
    | _ => exact hv
  | cancelledPending hpc =>
    have hholds : ∀ p, (E.cancelPendingJobs.putShutdown k { x with pc := .returned }).holds p = E.holds p :=
      fun p => by cases p <;> rfl
    refine h.frame (fun {p v} hv => (hholds p).symm.trans hv) fun {p job st} hv => ?_
    rw [hholds] at hv
    have hended := ended hwk (hg.late hx (.inl hpc) ▸ hg) hv
    -- what is in a place is not pending
    simp only [State.putShutdown, State.cancelPendingJobs, h.registered hv, Option.map_some]
    rw [if_neg]
    rintro rfl
    cases hended
  | _ => exact h.frame (fun {p v} hv => by cases p <;> exact hv) fun _ => rfl

theorem step (h : Placed E) (hsrc : Sourced E) (hwk : Working E) (hg : Staged E g) {a : Action}
    (hs : Steps E a E') : Placed E' := by
  cases hs with
  | idle => exact h
  | submit job =>
    refine h.frame (fun {p v} hv => ?_) fun _ => rfl
    cases p with
    | submit n =>
      by_cases hn : n = E.nextSubmit
      · subst hn
        simp [State.holds, State.putSubmit, SubmitPc.isHolding] at hv
      · simpa [State.holds, State.putSubmit, Function.update_of_ne hn] using hv
    | _ => exact hv
  | submitStep hx hs => exact h.submit_step hsrc hg hx hs
  | worker hi hs => exact h.worker_step hwk hg hi hs
  | shutdown force => exact h.frame (fun {p v} hv => by cases p <;> exact hv) fun _ => rfl
  | shutdownStep hx hs => exact h.shutdown_step hwk hg hx hs

end Placed

/-- **What every state of a run keeps.** -/
structure Kept (E : State) : Prop where
  staged : ∃ g, Staged E g
  sourced : Sourced E
  placed : Placed E
  working : Working E

theorem Kept.step (h : Kept E) {a : Action} (hs : Steps E a E') : Kept E' := by
  obtain ⟨g, hg⟩ := h.staged
  obtain ⟨g', -, hg'⟩ := hg.step hs
  exact ⟨⟨g', hg'⟩, h.sourced.step hg hs, h.placed.step h.sourced h.working hg hs, h.working.step h.sourced h.placed hs⟩

theorem kept_newExecutor (workerCount queueSize : ℕ) : Kept (newExecutor workerCount queueSize) := by
  refine ⟨⟨0, staged_newExecutor ..⟩, ⟨(by rintro _ _ ⟨⟩), (by rintro _ _ ⟨⟩), (by rintro _ _ ⟨⟩)⟩, ?_, ⟨(by rintro _ _ ⟨⟩), (by rintro _ _ _ ⟨⟩), (by rintro _ ⟨⟩), (by rintro _ _ _ ⟨⟩), fun _ => rfl⟩⟩
  have hnone : ∀ p, (newExecutor workerCount queueSize).holds p = none := fun p => by cases p <;> rfl
  refine ⟨fun {p job st} hp => ?_, fun {p p' job job' st st'} hp => ?_⟩
  · rw [hnone] at hp
    cases hp
  · rw [hnone] at hp
    cases hp

/-- **Every state of a run keeps it.** -/
theorem kept (r : executor.Run) (n : ℕ) : Kept (r.state n) := by
  refine r.invariant (I := Kept) ?_ ?_ n
  · rintro E ⟨workerCount, queueSize, rfl⟩
    exact kept_newExecutor workerCount queueSize
  · intro E a E' h hs
    exact h.step (steps_of_step hs)

end Executor

end ZkRuntime
