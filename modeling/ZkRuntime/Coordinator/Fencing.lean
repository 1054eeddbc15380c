import ZkRuntime.Coordinator.Transitions
/-!
# Result fencing

A result reaches the store only behind the last acceptance check of
`persistTerminalResult`, which is passed only by the answer to the current
attempt, under an unexpired lease and a live context. Retries, late
dispatches and slow verifications change nothing in this: between the check
and the `Save` the session holds `s.mu`, and nobody else writes its job.
-/

namespace ZkRuntime

namespace Coordinator

variable {isPrint : ℕ → Bool} (r : (coordinator isPrint).Run)

/-- The step `n` is the `Save` of `persistTerminalResult` for the attempt
`a` of `j`, whatever becomes of it. -/
def CommitsAt (n : ℕ) (j : JobID) (a : AttemptID) : Prop :=
  ∃ sid x c m att resp st, TakesAt r n sid x c m ∧ x.pc = .commit att resp st ∧ x.jobID = j ∧
    att.attemptID = a

/-- The same, and it succeeds: the response is accepted and saved. -/
def SavesAt (n : ℕ) (j : JobID) (a : AttemptID) : Prop :=
  ∃ sid x m att resp st, TakesAt r n sid x .go m ∧ x.pc = .commit att resp st ∧ x.jobID = j ∧
    att.attemptID = a

/-- The step `n` returns the response of the attempt `a` of `j`. -/
def ReturnsAt (n : ℕ) (j : JobID) (a : AttemptID) : Prop :=
  ∃ sid x m att resp, TakesAt r n sid x .go m ∧ x.pc = .release (.accepted att resp) ∧
    x.jobID = j ∧ att.attemptID = a

/-- **What holds when a result passes the last check.** `j`'s generation in
memory is the attempt, the response answers the attempt's dispatch and
carries both identities, the lease is the attempt's and has not expired. -/
structure Acceptable (s : State) (j : JobID) (att : Attempt) (resp : ExecuteJobResponse) : Prop where
  memory : s.jobAttempts j = some att.attemptID
  answer : ∃ d res, s.dispatches att.dispatch = some d ∧ d.req.jobID = j ∧
    d.req.attemptID = att.attemptID ∧ d.result = some res ∧ res.resp = some resp
  jobID : resp.jobID = j
  attemptID : resp.attemptID = att.attemptID
  lease : ∃ l, s.leases j = some l ∧ l.attemptID = att.attemptID ∧ s.now < l.expiresAt

/-- The session `sid` passes the last acceptance check in the step `k`, and
holds its result from there to the step `n`. -/
structure AcceptsAt (k n : ℕ) (sid : SessionID) (j : JobID) (att : Attempt)
    (resp : ExecuteJobResponse) (st : JobState) : Prop where
  before : k < n
  check : ∃ y m, TakesAt r k sid y .go m ∧ y.pc = .accept att resp st ∧ y.jobID = j ∧
    y.ctxErr = none
  holds : ∀ l, k < l → l ≤ n → ∃ z, (r.state l).sessions sid = some z ∧ z.pc = .commit att resp st
  acceptable : Acceptable (r.state k) j att resp

variable {r} {j : JobID} {a b : AttemptID} {m n : ℕ}

theorem lease_of_isLeaseCurrent {lease : Option JobLease} {now : Time}
    (h : isLeaseCurrent lease a now = true) :
    ∃ l, lease = some l ∧ l.attemptID = a ∧ now < l.expiresAt := by
  unfold isLeaseCurrent at h
  split at h
  · cases h
  · rename_i l
    simp only [Bool.and_eq_true, beq_iff_eq, decide_eq_true_eq] at h
    exact ⟨l, rfl, h.1, h.2⟩

/-- **Every terminal `Save` stands behind an acceptance check.** -/
theorem exists_acceptsAt {sid : SessionID} {x : Session} {c : Choice} {mv : Move} {att : Attempt}
    {resp : ExecuteJobResponse} {st : JobState} (ht : TakesAt r n sid x c mv)
    (hpc : x.pc = .commit att resp st) : ∃ k, AcceptsAt r k n sid x.jobID att resp st := by
  obtain ⟨k, y, c', m', y', hkn, hty, hnext, -, ⟨hq1, hq2⟩, hl⟩ := exists_move r
    (Q := fun z => z.pc = .commit att resp st ∧ z.jobID = x.jobID) (fun _ _ => Iff.rfl)
    (fun a' z hb => by cases hb <;> simp [State.submitSession, State.recoverySession])
    ht.took.live ⟨hpc, rfl⟩
  have hmoves := hty.took.moves
  rw [hnext] at hmoves
  have htr := (tracked r k).tracks hty.took.live
  generalize m'.effect = e at hmoves
  -- Only the check itself leads to the `Save`.
  cases hmoves with
  | accepted h hctx hlease =>
    simp only [Session.goto, Pc.commit.injEq] at hq1
    obtain ⟨rfl, rfl, rfl⟩ := hq1
    simp only [Tracks, h] at htr
    obtain ⟨hf, ⟨d, res, hd1, hd2, hd3⟩, hr⟩ := htr
    obtain ⟨d', hd1', hreq⟩ := hf.dispatched
    have hy : y.jobID = x.jobID := hq2
    rw [hd1] at hd1'
    cases hd1'
    refine ⟨k, hkn, ⟨y, m', hty, h, hy, hctx⟩, fun l h1 h2 => ?_, ⟨?_, ?_, ?_, hr.attemptID, ?_⟩⟩
    · obtain ⟨z, hz, hzpc, -⟩ := hl l h1 h2
      exact ⟨z, hz, hzpc⟩
    · rw [← hy]; exact hf.current.memory
    · exact ⟨d, res, hd1, by rw [hreq, ← hy]; rfl, by rw [hreq]; rfl, hd2, hd3⟩
    · rw [← hy]; exact hr.jobID
    · rw [← hy]; exact lease_of_isLeaseCurrent hlease
  | _ => simp [Session.goto, Session.retry, Session.repairAborted] at hq1

/-- A terminal `Save` finds its own attempt stored. -/
theorem CommitsAt.running (h : CommitsAt r n j a) : RunningAt (r.state n) j a := by
  obtain ⟨sid, x, c, mv, att, resp, st, ht, hpc, rfl, rfl⟩ := h
  have htr := (tracked r n).tracks ht.took.live
  simp only [Tracks, hpc] at htr
  exact ⟨_, htr.1.current.row, rfl, rfl⟩

/-- What is published is not above what is stored afterwards. -/
theorem PublishesAt.le_running (hc : ClearRun r) (hm : PublishesAt r m j b) (hmn : m < n)
    (hn : RunningAt (r.state n) j a) : b ≤ a := by
  obtain ⟨row, hrow, -, rfl⟩ := hm.running
  obtain ⟨row', hrow', hle⟩ := stored_mono r hc (show m + 1 ≤ n by omega) hrow
  obtain ⟨row'', hrow'', -, rfl⟩ := hn
  rw [hrow'] at hrow''
  cases hrow''
  exact hle

/-- **A superseded result is not saved any more.** -/
theorem CommitsAt.not_superseded (hc : ClearRun r) (hm : PublishesAt r m j b) (hab : a < b)
    (hmn : m < n) : ¬ CommitsAt r n j a := by
  intro hn
  have hle := hm.le_running hc hmn hn.running
  exact absurd (Int64.lt_of_le_of_lt hle hab) Int64.lt_irrefl

/-- A response that is returned was accepted and saved before. -/
theorem ReturnsAt.saved (h : ReturnsAt r n j a) : ∃ k, k < n ∧ SavesAt r k j a := by
  obtain ⟨sid, x, mv, att, resp, ht, hpc, rfl, rfl⟩ := h
  obtain ⟨k, y, c', m', y', hkn, hty, hnext, -, ⟨hq1, hq2⟩, -⟩ := exists_move r
    (Q := fun z => z.pc = .release (.accepted att resp) ∧ z.jobID = x.jobID) (fun _ _ => Iff.rfl)
    (fun a' z hb => by cases hb <;> simp [State.submitSession, State.recoverySession])
    ht.took.live ⟨hpc, rfl⟩
  have hmoves := hty.took.moves
  rw [hnext] at hmoves
  generalize m'.effect = e at hmoves
  cases hmoves with
  | committed h =>
    simp only [Pc.release.injEq, Outcome.accepted.injEq] at hq1
    obtain ⟨rfl, rfl⟩ := hq1
    exact ⟨k, hkn, sid, y, m', _, _, _, hty, h, hq2, rfl⟩
  | _ => simp [Session.goto, Session.retry, Session.repairAborted] at hq1

theorem SavesAt.commits (h : SavesAt r n j a) : CommitsAt r n j a := by
  obtain ⟨sid, x, mv, att, resp, st, ht, hpc, hj, ha⟩ := h
  exact ⟨sid, x, .go, mv, att, resp, st, ht, hpc, hj, ha⟩

/-! ## The law -/

variable (r) in
/-- **Every terminal `Save` is of the greatest attempt published** for its
job, behind an acceptance check it passed. -/
def AcceptanceLaw : Prop :=
  ∀ n sid x c m att resp st, TakesAt r n sid x c m → x.pc = .commit att resp st →
    (∃ k, AcceptsAt r k n sid x.jobID att resp st) ∧
      ∀ l b, l < n → PublishesAt r l x.jobID b → b ≤ att.attemptID

variable (r) in
/-- **A superseded response is lost**: one that was not accepted and saved
when a greater attempt of its job was published is not saved any more, and
not returned. -/
def SupersedingLaw : Prop :=
  ∀ m n j a b, PublishesAt r m j b → a < b → (∀ k, k < m → ¬ SavesAt r k j a) → m < n →
    ¬ CommitsAt r n j a ∧ ¬ ReturnsAt r n j a

theorem acceptanceLaw (hc : ClearRun r) : AcceptanceLaw r := by
  intro n sid x c m att resp st ht hpc
  refine ⟨exists_acceptsAt ht hpc, fun l b hln hl => ?_⟩
  have hn : CommitsAt r n x.jobID att.attemptID :=
    ⟨sid, x, c, m, att, resp, st, ht, hpc, rfl, rfl⟩
  exact hl.le_running hc hln hn.running

theorem supersedingLaw (hc : ClearRun r) : SupersedingLaw r := by
  intro m n j a b hm hab hnot hmn
  refine ⟨CommitsAt.not_superseded hc hm hab hmn, fun hret => ?_⟩
  obtain ⟨k, hkn, hk⟩ := hret.saved
  rcases Nat.lt_trichotomy k m with hlt | rfl | hgt
  · exact hnot k hlt hk
  · -- One step does not publish and commit.
    obtain ⟨sid, x, w, mv, ht, hpc, -⟩ := hm
    obtain ⟨sid', x', mv', att, resp, st, ht', hpc', -⟩ := hk
    have hsid := ht.act.symm.trans ht'.act
    cases hsid
    have hx := ht.took.live.symm.trans ht'.took.live
    cases hx
    rw [hpc] at hpc'
    cases hpc'
  · exact CommitsAt.not_superseded hc hm hab hgt hk.commits

/-- **Result fencing.** Every terminal `Save` stands behind an acceptance
check under the lock, passed by the answer to the current attempt. While
the store stays clear of the last 64-bit integer, that attempt is the
greatest one published for the job, and a superseded response never reaches
the store or a client. -/
theorem fencing (r : (coordinator isPrint).Run) :
    (∀ n sid x c m att resp st, TakesAt r n sid x c m → x.pc = .commit att resp st →
      ∃ k, AcceptsAt r k n sid x.jobID att resp st) ∧
    (ClearRun r → AcceptanceLaw r ∧ SupersedingLaw r) :=
  ⟨fun _ _ _ _ _ _ _ _ ht hpc => exists_acceptsAt ht hpc,
    fun hc => ⟨acceptanceLaw hc, supersedingLaw hc⟩⟩

/-- The second attempt of a submission is saved, and the first is not
saved after it was published. -/
theorem fencing_retry :
    ∃ r : (coordinator asciiPrint).Run, ClearRun r ∧ PublishesAt r 19 7 2 ∧ SavesAt r 27 7 2 ∧
      ¬ CommitsAt r 27 7 1 := by
  have hc : ClearRun (scripted .empty retryScript plays_retryScript) :=
    clearRun_scripted _ (by decide +kernel)
  have h1 : PublishesAt (scripted .empty retryScript plays_retryScript) 19 7 2 := by
    obtain ⟨x, m, ht, hpc, hspec⟩ := takesAt_scripted plays_retryScript 19 0 .go
      (.publishSave exampleWorker 2) exampleSpec rfl (by decide +kernel)
    exact ⟨0, x, _, m, ht, hpc, congrArg JobSpec.jobID hspec⟩
  have h2 : SavesAt (scripted .empty retryScript plays_retryScript) 27 7 2 := by
    obtain ⟨x, m, ht, hpc, hspec⟩ := takesAt_scripted plays_retryScript 27 0 .go
      (.commit ⟨exampleWorker, 2, 1, 5000000000⟩ ⟨7, ascii "SUCCEEDED", ascii "ok", [], 2⟩ .succeeded)
      exampleSpec rfl (by decide +kernel)
    exact ⟨0, x, m, _, _, _, ht, hpc, congrArg JobSpec.jobID hspec, rfl⟩
  have hno : ∀ k, k < 19 →
      ¬ SavesAt (scripted .empty retryScript plays_retryScript) k 7 1 := by
    intro k hk hs
    -- No session is at a terminal `Save` before the second publication.
    obtain ⟨sid, x, m, att, resp, st, ht, hpc, -, -⟩ := hs
    have hpcs : ∀ k, k < 19 → ∀ i, i < 1 →
        ((((coordinator asciiPrint).play (offline .empty) retryScript k).sessions i).map
          fun x => x.pc.attempt.isSome && x.holdsMu) ≠ some true := by decide +kernel
    have hlive : ((coordinator asciiPrint).play (offline .empty) retryScript k).sessions sid =
        some x := ht.took.live
    have hsid : sid < 1 := by
      have hfresh := (tracked (scripted .empty retryScript plays_retryScript) k).owned.fresh ht.took.live
      have hnext : ∀ k, k < 19 →
          ((coordinator asciiPrint).play (offline .empty) retryScript k).nextSession ≤ 1 := by
        decide +kernel
      exact Nat.lt_of_lt_of_le hfresh (hnext k hk)
    refine hpcs k hk sid hsid ?_
    rw [hlive]
    simp [hpc, Pc.attempt, Session.holdsMu]
  exact ⟨_, hc, h1, h2, (((fencing _).2 hc).2 19 27 7 1 2 h1 (by decide) hno (by omega)).1⟩

/-- The last generation fails, and the least one is answered. -/
def lastRetryScript : List Action :=
  startup ++ [.submit exampleRequest none, .session 0 .go, .session 0 .go] ++ attemptScript 0 ++
    [.deliver 0 ⟨none, true⟩, .session 0 .result, .session 0 .go] ++ attemptScript 0 ++
    [.deliver 1 (answer "SUCCEEDED" Int64.minValue), .session 0 .result] ++
    List.replicate 6 (.session 0 .go)

def nearlyLastStore : Store := ⟨[{ lastRow with attemptID := Int64.maxValue - 1 }], by simp⟩

theorem plays_lastRetryScript :
    (coordinator asciiPrint).plays (offline nearlyLastStore) lastRetryScript = true := by
  decide +kernel

/-- **Without the condition it fails**: behind the last generation the
least one is accepted. -/
theorem fencing_wrap :
    ¬ ∀ r : (coordinator asciiPrint).Run, AcceptanceLaw r ∧ SupersedingLaw r := by
  intro h
  obtain ⟨hlaw, -⟩ := h (scripted nearlyLastStore lastRetryScript plays_lastRetryScript)
  have h1 : PublishesAt (scripted nearlyLastStore lastRetryScript plays_lastRetryScript) 11 7
      Int64.maxValue := by
    obtain ⟨x, m, ht, hpc, hspec⟩ := takesAt_scripted plays_lastRetryScript 11 0 .go
      (.publishSave exampleWorker Int64.maxValue) exampleSpec rfl (by decide +kernel)
    exact ⟨0, x, _, m, ht, hpc, congrArg JobSpec.jobID hspec⟩
  obtain ⟨x, m, ht, hpc, hspec⟩ := takesAt_scripted plays_lastRetryScript 27 0 .go
    (.commit ⟨exampleWorker, Int64.minValue, 1, 5000000000⟩
      ⟨7, ascii "SUCCEEDED", ascii "ok", [], Int64.minValue⟩ .succeeded) exampleSpec rfl (by decide +kernel)
  have hj : x.jobID = 7 := congrArg JobSpec.jobID hspec
  have hle := (hlaw 27 0 x .go m _ _ _ ht hpc).2 11 Int64.maxValue (by omega) (hj ▸ h1)
  exact absurd hle (by decide)

end Coordinator

end ZkRuntime
