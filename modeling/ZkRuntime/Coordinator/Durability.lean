import ZkRuntime.Coordinator.Verification
/-!
# Exclusive ownership, and durability before the response

A job has one session at a time, nothing but it publishes or finalizes the
job's attempts, and a response goes to a client only when the record it
speaks of is in the store, where it still is as the job is released.
-/

namespace ZkRuntime

namespace Coordinator

variable {isPrint : ℕ → Bool} {s s' : State} {x x' : Session} {c : Choice} {e : Effect}

/-- A submission executes the validated specification of its request. -/
def Submitted (x : Session) : Prop :=
  ∀ req, x.source = .submit req → validateJobSpec (jobSpecFromRequest req) = .ok x.spec ∧
    x.pc ≠ .reload

theorem Submitted.move (h : Moves isPrint s x c e (some x')) (hx : Submitted x) : Submitted x' := by
  intro req hsrc
  rw [h.source_eq] at hsrc
  obtain ⟨hv, hpc⟩ := hx req hsrc
  cases h with
  | reload_current h => exact absurd h hpc
  | entered h hzk hv' =>
    -- Validating again changes nothing.
    have hcan : validateJobSpec x.spec = .ok x.spec := canonical_of_validateJobSpec hv
    rw [hcan] at hv'
    cases hv'
    exact ⟨hv, by simp⟩
  | _ => exact ⟨hv, by simp [Session.goto, Session.retry, Session.repairAborted]⟩

variable {r : (coordinator isPrint).Run} {n : ℕ} {sid : SessionID}

theorem submitted (hx : (r.state n).sessions sid = some x) : Submitted x := by
  refine session_invariant (P := fun _ x => Submitted x) (fun h _ _ _ => h)
    (fun _ _ h hm => h.move hm) (fun s req spec hv => ?_) (fun s snapshot ctxErr => ?_)
    (fun _ h => h) r n hx
  · intro req' hsrc
    cases hsrc
    exact ⟨hv, by simp [State.submitSession]⟩
  · intro req hsrc
    cases hsrc

/-- The step of a terminal `Save` that succeeds. -/
theorem TakesAt.effect_of_commit {m : Move} {att : Attempt} {resp : ExecuteJobResponse}
    {st : JobState} (ht : TakesAt r n sid x .go m) (hpc : x.pc = .commit att resp st) :
    m.effect = .save (x.record st att.attemptID att.worker) true := by
  have hmoves := ht.took.moves
  generalize m.effect = e at hmoves ⊢
  generalize m.next = next at hmoves
  cases hmoves with
  | committed h =>
    rw [hpc] at h
    cases h
    rfl
  | _ => simp_all [Pc.readsContext, Session.holdsMu]

variable (r) in
/-- The session `sid` has a successful `Save` of the record in the step `k`. -/
def SavedBy (k : ℕ) (sid : SessionID) (row : JobRecord) : Prop :=
  ∃ y m, TakesAt r k sid y .go m ∧ m.effect = .save row true

/-- The record speaks of the response: its identities, the state its status
names, and the validated specification of the request. -/
structure Records (row : JobRecord) (rep : SubmitJobResponse) (spec : JobSpec) : Prop where
  jobID : row.jobID = rep.jobID
  attemptID : row.attemptID = rep.attemptID
  state : jobStateFromStatus rep.status = some row.state
  taskType : row.taskType = spec.taskType
  payload : row.payload = spec.payload
  timeoutMs : row.timeoutMs = spec.timeoutMs

/-- **Durability before the response.** -/
theorem durable_of_release {m : Move} {out : Outcome} {rep : SubmitJobResponse}
    {req : SubmitJobRequest} (ht : TakesAt r n sid x .go m) (hpc : x.pc = .release out)
    (hrep : out.reply = some rep) (hsrc : x.source = .submit req) :
    ∃ spec k row, validateJobSpec (jobSpecFromRequest req) = .ok spec ∧ k < n ∧
      SavedBy r k sid row ∧ Records row rep spec ∧
      (r.state n).store.load rep.jobID = some row := by
  cases out with
  | accepted att resp =>
    simp only [Outcome.reply, Option.some.injEq] at hrep
    subst hrep
    obtain ⟨k, y, m', st, hkn, hty, hypc, hspec, -⟩ := exists_commit_of_release ht.took.live hpc
    have htr := (tracked r n).tracks ht.took.live
    simp only [Tracks, hpc] at htr
    obtain ⟨-, st', hresp, hload⟩ := htr
    have hst : st = st' := by
      have htry := (tracked r k).tracks hty.took.live
      simp only [Tracks, hypc] at htry
      have hstatus := htry.2.2.status
      rw [hresp.status] at hstatus
      exact (Option.some.inj hstatus).symm
    subst hst
    have hrow : y.record st att.attemptID att.worker = x.record st att.attemptID att.worker := by
      simp only [Session.record, hspec]
    refine ⟨x.spec, k, x.record st att.attemptID att.worker, (submitted ht.took.live req hsrc).1,
      hkn, ⟨y, m', hty, ?_⟩, ⟨hresp.jobID.symm, hresp.attemptID.symm, hresp.status, rfl, rfl, rfl⟩,
      ?_⟩
    · rw [← hrow]
      exact hty.effect_of_commit hypc
    · rw [hresp.jobID]
      exact hload
  | _ => simp [Outcome.reply] at hrep

/-! ## Who writes -/

/-- A row changes in a step of its owner, or while there is no session. -/
theorem owner_of_change {j : JobID}
    (h : (r.state (n + 1)).store.load j ≠ (r.state n).store.load j) :
    (∃ sid x c m, TakesAt r n sid x c m ∧ x.jobID = j) ∨
      ((∃ c, r.act n = .markRecovering c) ∧ ∀ sid, (r.state n).sessions sid = none) := by
  rcases load_of_saveCall r n j with heq | ⟨row, hs, hj, -⟩
  · exact absurd heq h
  · cases hs with
    | @session sid x c m _ ht he =>
      exact .inl ⟨sid, x, c, m, ht, (ht.writes he).jobID_eq.symm.trans hj⟩
    | @startup c _ _ _ ha hp =>
      refine .inr ⟨⟨c, ha⟩, fun sid => ?_⟩
      cases hx : (r.state n).sessions sid with
      | none => rfl
      | some x =>
        have hserving := (tracked r n).owned.serving hx
        rw [hp] at hserving
        cases hserving

/-- A generation is published in a step of the owner. -/
theorem owner_of_memory {j : JobID} {a : AttemptID}
    (h : (r.state (n + 1)).jobAttempts j = some a) (hne : (r.state n).jobAttempts j ≠ some a) :
    ∃ sid x c m, TakesAt r n sid x c m ∧ x.jobID = j := by
  rcases memory_of_step (steps_of_step (r.next n)) h with hold | ⟨sid, x, w, ha, hx, -, hj, -⟩
  · exact absurd hold hne
  · obtain ⟨y, m, ht⟩ := takesAt_of_act r ha
    have hxy := ht.took.live.symm.trans hx
    cases hxy
    exact ⟨sid, _, .go, m, ht, hj⟩

/-- The job an action claims. -/
def Action.claims : Action → Option JobID
  | .submit req _ => some req.jobID
  | .recover snapshot _ => some snapshot.jobID
  | _ => none

theorem tryClaim_of_active (hj : x.jobID ∈ s.activeJobs) (h : s.tryClaim x = some s') : s' = s := by
  rcases steps_tryClaim h with heq | ⟨-, hj', -⟩
  · exact heq
  · exact absurd hj hj'

/-- **A refused claim changes nothing**, the owner's claim included. -/
theorem refused_of_active {j : JobID} {a : Action} (ha : a.claims = some j) (hj : j ∈ s.activeJobs)
    (h : s.step isPrint a = some s') : s' = s := by
  cases a with
  | submit req ctxErr =>
    cases ha
    simp only [State.step, State.submit] at h
    split at h
    · cases h
    · split at h
      · cases h; rfl
      · split at h
        · cases h; rfl
        · split at h
          · cases h; rfl
          · rename_i hv
            have hspec : (State.submitSession req _).jobID = req.jobID :=
              jobID_of_validateJobSpec hv
            exact tryClaim_of_active (by rw [hspec]; exact hj) h
  | recover snapshot ctxErr =>
    cases ha
    simp only [State.step, State.recover] at h
    split at h
    · cases h
    · split at h
      · cases h; rfl
      · exact tryClaim_of_active (x := State.recoverySession isPrint snapshot ctxErr) hj h
  | _ => simp [Action.claims] at ha

/-- A release gives the job up. -/
theorem released_of_release {m : Move} {out : Outcome} (ht : TakesAt r n sid x .go m)
    (hpc : x.pc = .release out) :
    x.jobID ∉ (r.state (n + 1)).activeJobs ∧ (r.state (n + 1)).sessions sid = none := by
  have hmoves := ht.took.moves
  have hnext : m.next = none := by
    generalize m.effect = e at hmoves
    generalize m.next = next at hmoves ⊢
    cases hmoves with
    | released => rfl
    | _ => simp_all [Pc.readsContext, Pc.attempt]
  have heq := ht.took.eq
  refine ⟨?_, ?_⟩
  · rw [heq, activeJobs_advance hmoves, if_pos hnext]
    simp
  · rw [heq, sessions_advance_self]
    exact hnext

/-- **Exclusive ownership, and durability before the response.** At most
one session lives on a job; `activeJobs` is always the set of the jobs that
have one, a release gives up its own job, and a refused claim changes
nothing; a job's row changes in a step of its owner, or by startup while
there is no session, and its generation in memory in a step of its owner.
A response goes to a client behind a successful `Save` of the record it
speaks of, which is still stored as the job is released. -/
theorem ownership (r : (coordinator isPrint).Run) (n : ℕ) :
    (∀ i k x y, (r.state n).sessions i = some x → (r.state n).sessions k = some y →
      x.jobID = y.jobID → i = k) ∧
    (∀ j, j ∈ (r.state n).activeJobs ↔
      ∃ sid x, (r.state n).sessions sid = some x ∧ x.jobID = j) ∧
    (∀ sid x m out, TakesAt r n sid x .go m → x.pc = .release out →
      x.jobID ∉ (r.state (n + 1)).activeJobs ∧ (r.state (n + 1)).sessions sid = none) ∧
    (∀ j, (r.act n).claims = some j → j ∈ (r.state n).activeJobs → r.state (n + 1) = r.state n) ∧
    (∀ j, (r.state (n + 1)).store.load j ≠ (r.state n).store.load j →
      (∃ sid x c m, TakesAt r n sid x c m ∧ x.jobID = j) ∨
        ((∃ c, r.act n = .markRecovering c) ∧ ∀ sid, (r.state n).sessions sid = none)) ∧
    (∀ j a, (r.state (n + 1)).jobAttempts j = some a → (r.state n).jobAttempts j ≠ some a →
      ∃ sid x c m, TakesAt r n sid x c m ∧ x.jobID = j) ∧
    (∀ sid x m out rep req, TakesAt r n sid x .go m → x.pc = .release out →
      out.reply = some rep → x.source = .submit req →
      ∃ spec k row, validateJobSpec (jobSpecFromRequest req) = .ok spec ∧ k < n ∧
        SavedBy r k sid row ∧ Records row rep spec ∧
        (r.state n).store.load rep.jobID = some row) := by
  have howned := (tracked r n).owned
  refine ⟨fun i k x y hx hy hj => howned.unique hx hy hj, howned.active,
    fun sid x m out ht hpc => released_of_release ht hpc,
    fun j ha hj => refused_of_active ha hj (r.next n), fun j h => owner_of_change h,
    fun j a h hne => owner_of_memory h hne,
    fun sid x m out rep req ht hpc hrep hsrc => durable_of_release ht hpc hrep hsrc⟩

/-- A submission as it is released, its second attempt accepted. -/
theorem exists_release :
    ∃ (r : (coordinator asciiPrint).Run) (x : Session) (m : Move) (att : Attempt),
      TakesAt r 28 0 x .go m ∧ x.source = .submit exampleRequest ∧
      x.pc = .release (.accepted att ⟨7, ascii "SUCCEEDED", ascii "ok", [], 2⟩) := by
  obtain ⟨x, m, ht, hpc, -⟩ := takesAt_scripted plays_retryScript 28 0 .go
    (.release (.accepted ⟨exampleWorker, 2, 1, 5000000000⟩
      ⟨7, ascii "SUCCEEDED", ascii "ok", [], 2⟩)) exampleSpec rfl (by decide +kernel)
  have hsrc := session_scripted ht.took.live Session.source (.submit exampleRequest)
    (by decide +kernel)
  exact ⟨_, x, m, _, ht, hsrc, hpc⟩

theorem ownership_retry :
    ∃ (r : (coordinator asciiPrint).Run) (k : ℕ) (row : JobRecord), k < 28 ∧ SavedBy r k 0 row ∧
      (r.state 28).store.load 7 = some row ∧ row.attemptID = 2 := by
  obtain ⟨r, x, m, att, ht, hsrc, hpc⟩ := exists_release
  obtain ⟨spec, k, row, -, hk, hsaved, hrec, hload⟩ :=
    (ownership r 28).2.2.2.2.2.2 0 x m _ _ exampleRequest ht hpc rfl hsrc
  exact ⟨r, k, row, hk, hsaved, hload, hrec.attemptID⟩

end Coordinator

end ZkRuntime
