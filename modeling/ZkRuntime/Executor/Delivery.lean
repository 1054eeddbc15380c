import ZkRuntime.Executor.Helpers.Progress
/-!
# Delivery

Without a `ForceShutdown` every job whose `Submit` returned nil comes out
of `Results` once, with the status the registry ends with, and a `Submit`
that failed leaves nothing behind. Nothing is sent on a closed channel, and
no update of a status is refused.
-/

namespace ZkRuntime

namespace Executor

open Worker (JobStatus Result TaskError)

variable {E E' : State} {g i s k : ℕ}

/-- A list that has one element of a kind. -/
theorem filter_eq_singleton {α : Type} {l : List α} {p : α → Bool} {a : α} (ha : a ∈ l) (hp : p a = true)
    (hunique : ∀ {m n : ℕ} {b c : α}, l[m]? = some b → l[n]? = some c → p b = true → p c = true → m = n) :
    l.filter p = [a] := by
  induction l with
  | nil => cases ha
  | cons b l ih =>
    have htail : ∀ {m n : ℕ} {b c : α}, l[m]? = some b → l[n]? = some c → p b = true → p c = true → m = n :=
      fun hb hc h1 h2 => Nat.succ.inj (hunique (m := _ + 1) (n := _ + 1) hb hc h1 h2)
    rcases List.mem_cons.1 ha with rfl | ha
    · rw [List.filter_cons_of_pos hp, List.filter_eq_nil_iff.2]
      intro c hc hpc
      obtain ⟨n, hn⟩ := List.mem_iff_getElem?.1 hc
      cases hunique (m := 0) (n := n + 1) rfl hn hp hpc
    · rw [List.filter_cons_of_neg, ih ha htail]
      intro hpb
      obtain ⟨n, hn⟩ := List.mem_iff_getElem?.1 ha
      cases hunique (m := 0) (n := n + 1) rfl hn hpb hp

/-! ## What a step does to the registry and the results -/

/-- **A status changes along `validTransition`.** -/
theorem validTransition_of_steps {a : Action} (hs : Steps E a E') {id : Int64} {j j' : Job}
    (hj : E.jobRegistry id = some j) (hj' : E'.jobRegistry id = some j') :
    j'.status = j.status ∨ validTransition j.status j'.status = true := by
  have hsame : E'.jobRegistry = E.jobRegistry → j'.status = j.status ∨ validTransition j.status j'.status = true := by
    intro hreg
    rw [hreg, hj] at hj'
    cases hj'
    exact .inl rfl
  -- an entry that is set
  have hset : ∀ {j₀ : Job} {id₀ : Int64} {st : JobStatus}, E.jobRegistry id₀ = some j₀ →
      validTransition j₀.status st = true → (E.setStatus j₀ id₀ st).jobRegistry id = some j' →
      j'.status = j.status ∨ validTransition j.status j'.status = true := by
    intro j₀ id₀ st hj₀ hv hset
    simp only [State.setStatus] at hset
    by_cases hid : id = id₀
    · subst hid
      rw [hj] at hj₀
      cases hj₀
      rw [Function.update_self] at hset
      cases hset
      exact .inr hv
    · rw [Function.update_of_ne hid, hj] at hset
      cases hset
      exact .inl rfl
  cases hs with
  | @submitStep s c x _ hx hs =>
    cases hs with
    | registered hpc hnew =>
      dsimp only at hj'
      by_cases hid : id = x.job.id
      · rw [hid, hnew] at hj
        cases hj
      · rw [Function.update_of_ne hid, hj] at hj'
        cases hj'
        exact .inl rfl
    | unregistered hpc =>
      dsimp only at hj'
      by_cases hid : id = x.job.id
      · rw [hid, Function.update_self] at hj'
        cases hj'
      · rw [Function.update_of_ne hid, hj] at hj'
        cases hj'
        exact .inl rfl
    | _ => exact hsame rfl
  | worker hi hs =>
    cases hs with
    | began hw hj₀ hv => exact hset hj₀ hv hj'
    | updated hw hj₀ hv => exact hset hj₀ hv hj'
    | _ => exact hsame rfl
  | shutdownStep hx hs =>
    cases hs with
    | cancelledPending hpc =>
      simp only [State.putShutdown, State.cancelPendingJobs, hj, Option.map_some, Option.some.injEq] at hj'
      subst hj'
      by_cases hp : j.status = .pending
      · rw [if_pos hp, hp]
        exact .inr rfl
      · rw [if_neg hp]
        exact .inl rfl
    | _ => exact hsame rfl
  | _ => exact hsame rfl

theorem delivered_of_steps {a : Action} (hs : Steps E a E') {d : Job × Result} (hd : d ∈ E.delivered) :
    d ∈ E'.delivered := by
  cases hs with
  | submitStep hx hs => cases hs <;> exact hd
  | worker hi hs =>
    cases hs with
    | delivered hw hr => exact List.mem_append_left _ hd
    | _ => exact hd
  | shutdownStep hx hs => cases hs <;> exact hd
  | _ => exact hd

/-- A `Submit` that has returned stays as it is. -/
theorem returned_of_steps {a : Action} (hg : Staged E g) (hs : Steps E a E') {x : Submit} {err : Option SubmitError}
    (hx : E.submits s = some x) (hpc : x.pc = .returned err) : E'.submits s = some x := by
  cases hs with
  | submit job =>
    have hlt := hg.submits hx
    exact (Function.update_of_ne (by omega) ..).trans hx
  | @submitStep n c y _ hy hs =>
    have hne : s ≠ n := by
      rintro rfl
      rw [hx] at hy
      cases hy
      cases hs with
      | passed h => simp [hpc] at h
      | _ h => simp [hpc] at h
    cases hs <;> first | exact hx | exact (Function.update_of_ne hne ..).trans hx
  | worker hi hs => cases hs <;> exact hx
  | shutdownStep hx' hs => cases hs <;> exact hx
  | _ => exact hx

theorem returned_of_le (r : executor.Run) {m n : ℕ} (hmn : m ≤ n) {x : Submit} {err : Option SubmitError}
    (hx : (r.state m).submits s = some x) (hpc : x.pc = .returned err) : (r.state n).submits s = some x := by
  induction n, hmn using Nat.le_induction with
  | base => exact hx
  | succ n _ ih =>
    obtain ⟨g, hg⟩ := (kept r n).staged
    exact returned_of_steps hg (steps_of_step (r.next n)) ih hpc

theorem delivered_of_le (r : executor.Run) {m n : ℕ} (hmn : m ≤ n) {d : Job × Result}
    (hd : d ∈ (r.state m).delivered) : d ∈ (r.state n).delivered := by
  induction n, hmn using Nat.le_induction with
  | base => exact hd
  | succ n _ ih => exact delivered_of_steps (steps_of_step (r.next n)) ih

/-! ## One result a job -/

namespace Kept

theorem holds_delivered {d : Job × Result} (hd : E.delivered[k]? = some d) :
    E.holds (.delivered k) = some (d.1, d.2.status) := by
  simp [State.holds, hd]

/-- Two results of one `Submit` are one. -/
theorem delivered_unique (h : Kept E) {m n : ℕ} {d d' : Job × Result} (hd : E.delivered[m]? = some d)
    (hd' : E.delivered[n]? = some d') (hcall : d.1.call = d'.1.call) : m = n := by
  have h1 := holds_delivered hd
  have h2 := holds_delivered hd'
  have hid := h.sourced.id_eq (h.placed.registered h1) (h.placed.registered h2) hcall
  cases h.placed.unique h1 h2 hid
  rfl

/-- The result of a job, as the registry has it. -/
theorem of_delivered (h : Kept E) {job : Job} {res : Result} (hd : (job, res) ∈ E.delivered) :
    (E.delivered.filter fun d => d.1.call = job.call) = [(job, res)] ∧ res.jobID = job.id ∧
      E.jobRegistry job.id = some { job with status := res.status } := by
  obtain ⟨k, hk⟩ := List.mem_iff_getElem?.1 hd
  refine ⟨filter_eq_singleton hd (by simp) ?_, (h.working.results _ hd).1, h.placed.registered (holds_delivered hk)⟩
  intro m n b c hb hc h1 h2
  exact h.delivered_unique hb hc ((of_decide_eq_true h1).trans (of_decide_eq_true h2).symm)

/-- **A `Submit` that failed has no entry and no result.** -/
theorem of_refused (h : Kept E) {x : Submit} {e : SubmitError} (hx : E.submits s = some x)
    (hpc : x.pc = .returned (some e)) :
    (E.delivered.filter fun d => d.1.call = s) = [] ∧ ∀ id j, E.jobRegistry id = some j → j.call ≠ s := by
  have hentry : ∀ id j, E.jobRegistry id = some j → j.call ≠ s := by
    intro id j hj hcall
    obtain ⟨-, hpc'⟩ := h.sourced.pc_of_call hx hj hcall
    rw [hpc] at hpc'
    simp [SubmitPc.isHolding] at hpc'
  refine ⟨List.filter_eq_nil_iff.2 ?_, hentry⟩
  intro d hd hcall
  obtain ⟨k, hk⟩ := List.mem_iff_getElem?.1 hd
  exact hentry _ _ (h.placed.registered (holds_delivered hk)) (of_decide_eq_true hcall)

end Kept

/-- A `Submit` that returned nil has its entry. -/
theorem Calm.registered (h : Calm E) {x : Submit} (hx : E.submits s = some x) (hpc : x.pc = .returned none) :
    ∃ p st, E.holds p = some (x.job, st) ∧ E.jobRegistry x.job.id = some { x.job with status := st } := by
  obtain ⟨p, st, hp, -⟩ := h.unlost.present hx (.inr hpc)
  exact ⟨p, st, hp, h.kept.placed.registered hp⟩

/-- **Delivery.** In a run without a `ForceShutdown`: a job whose `Submit`
returned nil comes out once, with the status of its entry from then on; a
`Submit` that failed leaves no entry and no result; once every `Submit` has
returned the registry has the IDs of those that returned nil, each of one;
and no channel panics, no status leaves its edges and no update fails. Only
the first needs the workers to be treated fairly. -/
theorem delivery (r : executor.Run) (hcount : 0 < (r.state 0).workerCount)
    (hcalls : ∀ n, r.act n ≠ .shutdown true) :
    (Fair r → ∀ m s x, (r.state m).submits s = some x → x.pc = .returned none →
      ∃ n res, m ≤ n ∧ ∀ n', n ≤ n' →
        ((r.state n').delivered.filter fun d => d.1.call = s) = [(x.job, res)] ∧ res.jobID = x.job.id ∧
          (r.state n').jobRegistry x.job.id = some { x.job with status := res.status }) ∧
    (∀ m s x e, (r.state m).submits s = some x → x.pc = .returned (some e) → ∀ n, m ≤ n →
      ((r.state n).delivered.filter fun d => d.1.call = s) = [] ∧
        ∀ id j, (r.state n).jobRegistry id = some j → j.call ≠ s) ∧
    (∀ n, (∀ s x, (r.state n).submits s = some x → ∃ err, x.pc = .returned err) → ∀ id,
      (r.state n).jobRegistry id ≠ none ↔
        ∃ s x, (r.state n).submits s = some x ∧ x.pc = .returned none ∧ x.job.id = id) ∧
    (∀ n s s' x x', (r.state n).submits s = some x → (r.state n).submits s' = some x' →
      x.pc = .returned none → x'.pc = .returned none → x.job.id = x'.job.id → s = s') ∧
    (∀ n, (r.state n).panicked = false ∧ (r.state n).jobs ≠ .panicked ∧ (r.state n).results ≠ .panicked ∧
      (r.state n).stopCh ≠ .panicked ∧ (r.state n).doneCh ≠ .panicked) ∧
    (∀ n id j j', (r.state n).jobRegistry id = some j → (r.state (n + 1)).jobRegistry id = some j' →
      j'.status = j.status ∨ validTransition j.status j'.status = true) ∧
    ∀ n i job res, (r.state n).workers i ≠ .failed job res := by
  have hcalm := calm r hcount hcalls
  refine ⟨?_, ?_, ?_, ?_, ?_, ?_, ?_⟩
  · intro hfair m s x hx hpc
    obtain ⟨n, hmn, res, hres⟩ := exists_delivered hcalm hfair hx (.inr hpc)
    refine ⟨n, res, hmn, fun n' hle => ?_⟩
    have hcall : x.job.call = s := (kept r m).sourced.call hx
    rw [← hcall]
    exact (kept r n').of_delivered (delivered_of_le r hle hres)
  · intro m s x e hx hpc n hmn
    exact (kept r n).of_refused (returned_of_le r hmn hx hpc) hpc
  · intro n hall id
    constructor
    · intro hne
      obtain ⟨j, hj⟩ := Option.ne_none_iff_exists'.1 hne
      obtain ⟨x, hx, hid, -, hpc⟩ := (kept r n).sourced.source hj
      obtain ⟨err, herr⟩ := hall _ _ hx
      rw [herr] at hpc
      rcases hpc with hpc | hpc | hpc
      · cases hpc
      · cases hpc
      · exact ⟨_, x, hx, herr.trans hpc, hid⟩
    · rintro ⟨s, x, hx, hpc, rfl⟩
      obtain ⟨p, st, -, hreg⟩ := (hcalm n).registered hx hpc
      rw [hreg]
      rintro ⟨⟩
  · intro n s s' x x' hx hx' hpc hpc' hid
    obtain ⟨p, st, hp, -⟩ := (hcalm n).registered hx hpc
    obtain ⟨p', st', hp', -⟩ := (hcalm n).registered hx' hpc'
    have hplace := (kept r n).placed.unique hp hp' hid
    subst hplace
    rw [hp] at hp'
    have hjob : x.job = x'.job := congrArg Prod.fst (Option.some.inj hp')
    rw [← (kept r n).sourced.call hx, ← (kept r n).sourced.call hx', hjob]
  · intro n
    obtain ⟨g, hg⟩ := (kept r n).staged
    refine ⟨hg.panicked, ?_, ?_, ?_, ?_⟩
    · rw [hg.jobs]; split <;> rintro ⟨⟩
    · rw [hg.results]; split <;> rintro ⟨⟩
    · rw [hg.stopCh]; split <;> rintro ⟨⟩
    · rw [hg.doneCh]; split <;> rintro ⟨⟩
  · intro n id j j' hj hj'
    exact validTransition_of_steps (steps_of_step (r.next n)) hj hj'
  · intro n i job res
    exact (kept r n).working.unfailed

/-- A job is handed to the only worker, which runs it and delivers. -/
def deliveryScript : List Action :=
  .submit ⟨1, 5, true, .pending, 0⟩ :: List.replicate 3 (.submitStep 0 .go) ++
    [.submitStep 0 (.hand 0), .submitStep 0 .go, .worker 0 .go, .worker 0 (.ran (.ok [0x78]) none 5 1),
      .worker 0 .go, .worker 0 .deliver]

theorem plays_deliveryScript : executor.plays (newExecutor 1 0) deliveryScript = true := by decide +kernel

/-- The run of the script. -/
def deliveryRun : executor.Run :=
  .ofScript (newExecutor 1 0) deliveryScript .idle step_idle ⟨1, 0, rfl⟩ plays_deliveryScript

/-- A worker with nothing to do cannot step. -/
theorem not_enabled_of_resting (hidle : i < E.workerCount → E.workers i = .idle) (hq : E.queue = [])
    (hj : E.jobs = .pending) (hc : E.cancelled = false) : ¬ executor.Enabled (OfWorker i) E := by
  rintro ⟨a, ⟨c, rfl⟩, hstep⟩
  replace hstep : (E.step (.worker i c)).isSome = true := hstep
  by_cases hi : i < E.workerCount
  · rw [State.step, if_pos hi, hidle hi] at hstep
    cases c <;> simp [State.workerMove, hq, hj, hc] at hstep
  · rw [State.step, if_neg hi] at hstep
    cases hstep

/-- Behind the script every worker rests. -/
theorem fair_deliveryRun : Fair deliveryRun := by
  intro i
  refine System.Run.weaklyFair_of_disabled (N := deliveryScript.length) fun n hn => ?_
  have hrest : deliveryRun.state n = executor.play (newExecutor 1 0) deliveryScript deliveryScript.length :=
    System.play_of_length_le _ _ n hn
  have hlast : (deliveryRun.state n).workerCount = 1 ∧ (deliveryRun.state n).workers 0 = .idle ∧
      (deliveryRun.state n).queue = [] ∧ (deliveryRun.state n).jobs = .pending ∧
      (deliveryRun.state n).cancelled = false := by
    rw [hrest]
    decide +kernel
  obtain ⟨hcount, hidle, hq, hj, hc⟩ := hlast
  refine not_enabled_of_resting (fun hi => ?_) hq hj hc
  obtain rfl : i = 0 := by omega
  exact hidle

theorem delivery_one : ∃ n res, 6 ≤ n ∧ ∀ n', n ≤ n' →
    ((deliveryRun.state n').delivered.filter fun d => d.1.call = 0) = [(⟨1, 5, true, .pending, 0⟩, res)] ∧
      res.jobID = 1 ∧ (deliveryRun.state n').jobRegistry 1 = some ⟨1, 5, true, res.status, 0⟩ := by
  have hcalls : ∀ n, deliveryRun.act n ≠ .shutdown true := by
    intro n
    show deliveryScript.getD n .idle ≠ .shutdown true
    rw [List.getD_eq_getElem?_getD]
    cases ha : deliveryScript[n]? with
    | none => rintro ⟨⟩
    | some a =>
      have hall : (deliveryScript.all fun a => a ≠ .shutdown true) = true := by decide +kernel
      simpa using List.all_eq_true.1 hall a (List.mem_of_getElem? ha)
  have hx : (deliveryRun.state 6).submits 0 = some ⟨⟨1, 5, true, .pending, 0⟩, .returned none⟩ := by
    decide +kernel
  exact (delivery deliveryRun Nat.one_pos hcalls).1 fair_deliveryRun 6 0 _ hx rfl

end Executor

end ZkRuntime
