import ZkRuntime.Coordinator.Durability
import ZkRuntime.Coordinator.Helpers.Settling
/-!
# No job is left `Running`

Where no store operation fails, and the store stays clear of the last
generation: a session that has published an attempt does not release its
job before its last attempt is closed, a submission's in a terminal state
and a recovery's in one or handed back. What the state is follows from what
the session met. A session that has published nothing leaves the record as
it found it, whatever the generations are.
-/

namespace ZkRuntime

namespace Coordinator

variable {isPrint : ℕ → Bool} (r : (coordinator isPrint).Run)

/-! ## What a session met -/

/-- The session `sid`, as it is `x`, releases its job in the step `n`. -/
structure ReleasesAt (n : ℕ) (sid : SessionID) (x : Session) (out : Outcome) : Prop where
  takes : ∃ m, TakesAt r n sid x .go m
  pc : x.pc = .release out

/-- The session claims the job in the step `k`. -/
def ClaimsAt (k : ℕ) (sid : SessionID) (j : JobID) : Prop :=
  ∃ y, Begins isPrint (r.act k) y ∧ r.state (k + 1) = (r.state k).claim y ∧
    sid = (r.state k).nextSession ∧ y.jobID = j

/-- Before the step `n` the session has received a status that
`jobStateFromStatus` does not know. -/
def UnrecognisedBefore (n : ℕ) (sid : SessionID) : Prop :=
  ∃ k y c m att resp, k < n ∧ TakesAt r k sid y c m ∧ y.pc = .fence att (some resp) ∧
    jobStateFromStatus resp.status = none

/-- Before the step `n` the session has committed an accepted result whose
status is `st`. -/
def AcceptedBefore (n : ℕ) (sid : SessionID) (st : JobState) : Prop :=
  ∃ k y m att resp, k < n ∧ TakesAt r k sid y .go m ∧ y.pc = .commit att resp st

/-- Before the step `n`, its retries exhausted, the session's context was
live at the last check of `persistSubmitFailure`. -/
def ExhaustedLiveBefore (n : ℕ) (sid : SessionID) : Prop :=
  ∃ k y m a f current, k < n ∧ TakesAt r k sid y .go m ∧ y.pc = .failCheck a f current ∧
    y.ctxErr = none

/-- The context of the session has ended, and no result was committed
before it: neither a worker's nor the exhaustion of the retries. -/
structure EndedFirst (n : ℕ) (sid : SessionID) (x : Session) : Prop where
  ended : x.ctxErr ≠ none
  accepted : ∀ st, ¬ AcceptedBefore r n sid st
  exhausted : ¬ ExhaustedLiveBefore r n sid

variable {r} {n : ℕ} {sid : SessionID} {x : Session} {out : Outcome}

theorem ReleasesAt.live (h : ReleasesAt r n sid x out) : (r.state n).sessions sid = some x := by
  obtain ⟨m, ht⟩ := h.takes
  exact ht.took.live

/-! ## A session that has published nothing -/

/-- A step of its session leaves the row of a job, where the session has
published nothing. -/
theorem TakesAt.row_of_unpublished {c : Choice} {m : Move} {x' : Session} (hok : FailureFree r)
    (ht : TakesAt r n sid x c m) (hnext : m.next = some x') (hn : x'.lastPublished = none)
    (j : JobID) : (r.state (n + 1)).store.load j = (r.state n).store.load j := by
  have hf := hok n
  rw [ht.act] at hf
  have hmoves := ht.took.moves
  rw [hnext] at hmoves
  have hsilent := hmoves.silent_of_unpublished hf ((tracked r n).tracks ht.took.live)
    (unpublished r n ht.took.live) hn
  rw [ht.took.eq]
  rcases load_apply (s := r.state n) (e := m.effect) (j := x.jobID) (k := j) with h | ⟨row, he, -⟩
  · exact h
  · rw [hsilent] at he
    cases he

/-- A session that has published nothing has published nothing before, and
its step, or another's, leaves the row of its job. -/
theorem unpublished_before (hok : FailureFree r) {x' : Session}
    (hx' : (r.state (n + 1)).sessions sid = some x') (hn : x'.lastPublished = none) :
    (∃ x, (r.state n).sessions sid = some x ∧ x.lastPublished = none ∧ x.jobID = x'.jobID ∧
      (r.state (n + 1)).store.load x'.jobID = (r.state n).store.load x'.jobID) ∨
      (ClaimsAt r n sid x'.jobID ∧
        (r.state (n + 1)).store.load x'.jobID = (r.state n).store.load x'.jobID) := by
  rcases session_before (steps_of_step (r.next n)) hx' with
    ⟨x, hx, hidle⟩ | ⟨x, c, m, ha, htook, hnext⟩ | ⟨hb, hcl, hsid, -⟩
  · refine .inl ⟨x, hx, hidle.lastPublished ▸ hn, hidle.jobID.symm, ?_⟩
    by_contra hne
    rcases owner_of_change hne with ⟨sid', y, c, m, ht, hj⟩ | ⟨-, hnone⟩
    · obtain rfl := (tracked r n).owned.unique ht.took.live hx (hj.trans hidle.jobID)
      have hnext : m.next = some x' := ht.sessions_eq.symm.trans hx'
      exact hne (ht.row_of_unpublished hok hnext hn _)
    · rw [hnone sid] at hx
      cases hx
  · have ht : TakesAt r n sid x c m := ⟨ha, htook⟩
    have hmoves := htook.moves
    rw [hnext] at hmoves
    refine .inl ⟨x, htook.live, ?_, hmoves.jobID_eq.symm, ht.row_of_unpublished hok hnext hn _⟩
    rcases hmoves.lastPublished_cases with ⟨w, a, -, -, hsome⟩ | ⟨hlast, -⟩
    · rw [hsome] at hn
      cases hn
    · exact hlast ▸ hn
  · exact .inr ⟨⟨x', hb, hcl, hsid, rfl⟩, by rw [hcl]; rfl⟩

/-- **While a session has published nothing, the record of its job is the
one it claimed.** -/
theorem row_of_unpublished (hok : FailureFree r) (hx : (r.state n).sessions sid = some x)
    (hn : x.lastPublished = none) :
    ∃ k, k < n ∧ ClaimsAt r k sid x.jobID ∧
      ∀ l, k ≤ l → l ≤ n → (r.state l).store.load x.jobID = (r.state k).store.load x.jobID := by
  induction n generalizing x with
  | zero =>
    have h0 : r.state 0 = (r.state 0).restart .down (r.state 0).config := r.start
    rw [h0] at hx
    simp [State.restart] at hx
  | succ n ih =>
    rcases unpublished_before hok hx hn with ⟨y, hy, hyn, hj, hrow⟩ | ⟨hcl, hrow⟩
    · obtain ⟨k, hkn, hcl, hl⟩ := ih hy hyn
      rw [hj] at hcl hl
      refine ⟨k, by omega, hcl, fun l h1 h2 => ?_⟩
      rcases Nat.lt_or_ge n l with hlt | hge
      · obtain rfl : l = n + 1 := by omega
        exact hrow.trans (hl n (by omega) (by omega))
      · exact hl l h1 hge
    · refine ⟨n, by omega, hcl, fun l h1 h2 => ?_⟩
      rcases Nat.lt_or_ge n l with hlt | hge
      · obtain rfl : l = n + 1 := by omega
        exact hrow
      · obtain rfl : l = n := by omega
        rfl

/-! ## A session that has published -/

/-- A session that has committed a result releases its job with it. -/
theorem AcceptedBefore.release {st : JobState} (h : AcceptedBefore r n sid st)
    (hx : (r.state n).sessions sid = some x) :
    ∃ att resp, x.pc = .release (.accepted att resp) ∧
      jobStateFromStatus resp.status = some st := by
  obtain ⟨k, y, m, att, resp, hkn, ht, hpc⟩ := h
  have htr := (tracked r k).tracks ht.took.live
  simp only [Tracks, hpc] at htr
  have hmoves := ht.took.moves
  generalize hnext : m.next = next at hmoves
  generalize m.effect = e at hmoves
  cases hmoves with
  | committed h =>
    rw [hpc] at h
    cases h
    refine persists r (Q := fun z => ∃ att resp, z.pc = .release (.accepted att resp) ∧
      jobStateFromStatus resp.status = some st) (fun _ _ => Iff.rfl) ?_ hkn (ht.sessions_eq.trans hnext)
      ⟨att, resp, rfl, htr.2.2.status⟩ hx
    rintro l z c' m' z' hz hz' ⟨att', resp', hzpc, -⟩
    have hmz := hz.took.moves
    rw [hz'] at hmz
    generalize m'.effect = e' at hmz
    cases hmz <;> simp_all [Pc.readsContext, Pc.attempt]
  | _ => simp_all [Pc.readsContext, Session.holdsMu]

/-- A session whose context was live at the last check of
`persistSubmitFailure` closes its job as `Failed`. -/
theorem ExhaustedLiveBefore.release (hok : FailureFree r) (hclear : ClearRun r)
    (h : ExhaustedLiveBefore r n sid) (hx : (r.state n).sessions sid = some x) :
    (∃ a f row, x.pc = .failSave a f row) ∨
      ∃ a f, x.pc = .release (.failed (.exhausted a f)) := by
  obtain ⟨k, y, m, a, f, current, hkn, ht, hpc, hctx⟩ := h
  have htr := (tracked r k).tracks ht.took.live
  simp only [Tracks, hpc] at htr
  have hst := settles hok hclear k ht.took.live
  simp only [Settles, hpc] at hst
  have hmoves := ht.took.moves
  generalize hnext : m.next = next at hmoves
  generalize m.effect = e at hmoves
  cases hmoves with
  | failChecked h =>
    refine persists r (Q := fun z => (∃ a f row, z.pc = .failSave a f row) ∨
      ∃ a f, z.pc = .release (.failed (.exhausted a f))) (fun _ _ => Iff.rfl) ?_ hkn (ht.sessions_eq.trans hnext)
      (.inl ⟨_, _, _, rfl⟩) hx
    intro l z c' m' z' hz hz' hq
    have hf := hok l
    rw [hz.act] at hf
    have hmz := hz.took.moves
    rw [hz'] at hmz
    generalize m'.effect = e' at hmz
    cases hmz with
    | failSaved => exact .inr ⟨_, _, rfl⟩
    | failSave_fails => simp [Action.storeFails, Choice.storeFails] at hf
    | _ => rcases hq with ⟨_, _, _, hq⟩ | ⟨_, _, hq⟩ <;> simp_all [Pc.readsContext, Pc.attempt]
  | failCheck_skipped h hg =>
    -- The session stands at its attempt, so the row is the one the check asks for.
    rw [hpc] at h
    cases h
    obtain ⟨row, hrow, hown⟩ := hst.2.row
    rcases hg with hctx' | hne
    · exact absurd hctx hctx'
    · exact absurd ⟨Store.jobID_of_load hrow, hown⟩ (hne row (htr.1.trans hrow))
  | _ => simp_all [Pc.attempt]

/-- A submission that ends with its retries exhausted had a live context at
the last check of `persistSubmitFailure`. -/
theorem exhaustedLiveBefore_of_release (hok : FailureFree r) (hclear : ClearRun r)
    {a : AttemptID} {f : AttemptFailure} (hx : (r.state n).sessions sid = some x)
    (hpc : x.pc = .release (.failed (.exhausted a f))) (hp : x.lastPublished = some a)
    (hsrc : x.source.isRecovery = false) : ExhaustedLiveBefore r n sid := by
  obtain ⟨k, y, c, m, y', hkn, ht, hnext, -, ⟨hq1, hq2, hq3⟩, -⟩ := exists_move r
    (Q := fun z => z.pc = .release (.failed (.exhausted a f)) ∧ z.lastPublished = some a ∧
      z.source.isRecovery = false) (fun _ _ => Iff.rfl)
    (fun a' z hb => by cases hb <;> simp [State.submitSession, State.recoverySession])
    hx ⟨hpc, hp, hsrc⟩
  have hst := settles hok hclear k ht.took.live
  have hmoves := ht.took.moves
  rw [hnext] at hmoves
  rw [hmoves.source_eq] at hq3
  -- Of the steps that end a session so, only the `Save` of `persistSubmitFailure` remains.
  have hsave : ∃ row, y.pc = .failSave a f row := by
    generalize m.effect = e at hmoves
    cases hmoves with
    | failSaved h =>
      simp only [Session.goto, Pc.release.injEq, Outcome.failed.injEq,
        ExecuteError.exhausted.injEq] at hq1
      obtain ⟨rfl, rfl⟩ := hq1
      exact ⟨_, h⟩
    | recovery_unpublished h hsrc' => rw [hsrc'] at hq3; cases hq3
    | cancelCheck_live h hctx =>
      simp only [Session.goto, Pc.release.injEq, Outcome.failed.injEq] at hq1
      subst hq1
      simp only [Settles, h] at hst
      rcases hst.2 with hn | ⟨b, -, hctx' | ⟨b', st, heq⟩⟩
      · exact absurd (hn.symm.trans hq2) (by simp)
      · exact absurd hctx hctx'
      · cases heq
    | repairLoad_skipped h =>
      simp only [Settles, h] at hst
      rw [hst.1] at hq3
      cases hq3
    | repairSaved h =>
      simp only [Settles, h] at hst
      rw [hst.1] at hq3
      cases hq3
    | _ => simp [Session.goto, Session.retry, Session.repairAborted] at hq1
  obtain ⟨row, hsave⟩ := hsave
  obtain ⟨l, z, c', m', z', hlk, hz, hznext, -, hq, -⟩ := exists_move r
    (Q := fun z => z.pc = .failSave a f row) (fun _ _ => Iff.rfl)
    (fun a' z hb => by cases hb <;> simp [State.submitSession, State.recoverySession])
    ht.took.live hsave
  have hmz := hz.took.moves
  rw [hznext] at hmz
  generalize m'.effect = e' at hmz
  cases hmz with
  | failChecked h hctx => exact ⟨l, z, m', _, _, _, by omega, hz, h, hctx⟩
  | _ => simp [Session.goto, Session.retry, Session.repairAborted] at hq

/-- A session that ends with an unrecognised status has received one. -/
theorem unrecognisedBefore_of_release {e : ExecuteError} (he : e.IsInvalidStatus)
    (hx : (r.state n).sessions sid = some x) (hpc : x.pc = .release (.failed e)) :
    UnrecognisedBefore r n sid := by
  obtain ⟨a, status, rfl⟩ := he
  obtain ⟨k, y, c, m, y', hkn, ht, hnext, hny, hq, -⟩ := exists_move r
    (Q := fun z => z.pc = .failed (.invalidStatus a status) ∨
      z.pc = .cancelCheck (.invalidStatus a status) ∨
      (∃ b, z.pc = .repairLoad (.invalidStatus a status) b) ∨
      (∃ row, z.pc = .repairSave (.invalidStatus a status) row) ∨
      z.pc = .release (.failed (.invalidStatus a status))) (fun _ _ => Iff.rfl)
    (fun a' z hb => by cases hb <;> simp [State.submitSession, State.recoverySession])
    hx (.inr (.inr (.inr (.inr hpc))))
  have hmoves := ht.took.moves
  rw [hnext] at hmoves
  generalize m.effect = e' at hmoves
  cases hmoves with
  | status_unknown h hst => exact ⟨k, y, _, m, _, _, hkn, ht, h, hst⟩
  | _ => simp_all [Session.goto, Session.retry, Session.repairAborted]

/-! ## The law -/

variable (r) in
/-- **What the state of a closed record says of its session**, as it
releases its job. -/
structure Closed (n : ℕ) (sid : SessionID) (x : Session) (row : JobRecord) : Prop where
  terminal : row.state = .succeeded ∨ row.state = .failed ∨ row.state = .cancelled
  failed : row.state = .failed ↔ AcceptedBefore r n sid .failed ∨ ExhaustedLiveBefore r n sid
  cancelled : row.state = .cancelled ↔ AcceptedBefore r n sid .cancelled ∨ EndedFirst r n sid x
  succeeded : row.state = .succeeded → AcceptedBefore r n sid .succeeded

variable (r) in
/-- A submission that has published an attempt, and received no unrecognised
status, releases its job with the record of its last attempt closed. -/
def SubmitLaw (n : ℕ) : Prop :=
  ∀ sid x out a, ReleasesAt r n sid x out → x.source.isRecovery = false →
    x.lastPublished = some a → ¬ UnrecognisedBefore r n sid →
    ∃ row, (r.state n).store.load x.jobID = some row ∧ row.attemptID = a ∧ Closed r n sid x row

variable (r) in
/-- A recovery that has published an attempt ends, whatever the reason, with
the record of its last attempt terminal or `Recovering`. -/
def RecoveryLaw (n : ℕ) : Prop :=
  ∀ sid x out a, ReleasesAt r n sid x out → x.source.isRecovery = true →
    x.lastPublished = some a →
    ∃ row, (r.state n).store.load x.jobID = some row ∧ row.attemptID = a ∧
      (row.state.isTerminal = true ∨ row.state = .recovering)

variable (r) in
/-- A session that has published nothing leaves the record as it found it. -/
def UntouchedLaw (n : ℕ) : Prop :=
  ∀ sid x out, ReleasesAt r n sid x out → x.lastPublished = none →
    ∃ k, k < n ∧ ClaimsAt r k sid x.jobID ∧
      ∀ l, k ≤ l → l ≤ n → (r.state l).store.load x.jobID = (r.state k).store.load x.jobID

/-- A submission that ends with an accepted result. -/
theorem closed_accepted (hok : FailureFree r) (hclear : ClearRun r) {att : Attempt}
    {resp : ExecuteJobResponse} (h : ReleasesAt r n sid x (.accepted att resp)) :
    ∃ row, (r.state n).store.load x.jobID = some row ∧ row.attemptID = att.attemptID ∧
      Closed r n sid x row := by
  have htr := (tracked r n).tracks h.live
  simp only [Tracks, h.pc] at htr
  obtain ⟨-, st, hresp, hload⟩ := htr
  -- The result that was committed is the one the session ends with.
  have hunique : ∀ {st'}, AcceptedBefore r n sid st' → st' = st := by
    intro st' hacc
    obtain ⟨att', resp', hpc, hst'⟩ := hacc.release h.live
    rw [h.pc] at hpc
    cases hpc
    exact Option.some.inj (hst'.symm.trans hresp.status)
  have hacc : AcceptedBefore r n sid st := by
    obtain ⟨k, y, m, st', hkn, ht, hpc, -⟩ := exists_commit_of_release h.live h.pc
    obtain rfl := hunique ⟨k, y, m, att, resp, hkn, ht, hpc⟩
    exact ⟨k, y, m, att, resp, hkn, ht, hpc⟩
  have hlive : ¬ ExhaustedLiveBefore r n sid := by
    intro hex
    rcases hex.release hok hclear h.live with ⟨a, f, row, hpc⟩ | ⟨a, f, hpc⟩ <;>
      rw [h.pc] at hpc <;> cases hpc
  refine ⟨_, hload, rfl, terminal_of_status hresp.status, ⟨?_, ?_⟩, ⟨?_, ?_⟩, ?_⟩
  · rintro (rfl : st = .failed)
    exact .inl hacc
  · rintro (hf | hf)
    · exact (hunique hf).symm
    · exact absurd hf hlive
  · rintro (rfl : st = .cancelled)
    exact .inl hacc
  · rintro (hc | hc)
    · exact (hunique hc).symm
    · exact absurd hacc (hc.accepted st)
  · rintro (rfl : st = .succeeded)
    exact hacc

/-- A session that ends without an accepted result has committed none. -/
theorem not_acceptedBefore (h : ReleasesAt r n sid x out)
    (hout : ∀ att resp, out ≠ .accepted att resp) (st : JobState) :
    ¬ AcceptedBefore r n sid st := by
  intro hacc
  obtain ⟨att, resp, hpc, -⟩ := hacc.release h.live
  rw [h.pc] at hpc
  cases hpc
  exact hout att resp rfl

/-- **Submissions.** -/
theorem submitLaw (hok : FailureFree r) (hclear : ClearRun r) (n : ℕ) : SubmitLaw r n := by
  intro sid x out a h hsrc hp hun
  have hst := settles hok hclear n h.live
  simp only [Settles, h.pc] at hst
  have hset := hst a hp
  cases out with
  | accepted att resp =>
    obtain ⟨row, hrow, ha, hcl⟩ := closed_accepted hok hclear h
    exact ⟨row, hrow, ha.trans hset, hcl⟩
  | failed e =>
    rcases hset with ⟨hsrc', -⟩ | ⟨-, hinv⟩ | ⟨⟨f, rfl⟩, row, hrow, hfail, ha⟩
    · rw [hsrc'] at hsrc
      cases hsrc
    · exact absurd (unrecognisedBefore_of_release hinv h.live h.pc) hun
    · have hex := exhaustedLiveBefore_of_release hok hclear h.live h.pc hp hsrc
      have hacc := not_acceptedBefore h (by simp)
      refine ⟨row, hrow, ha, .inr (.inl hfail), ⟨fun _ => .inr hex, fun _ => hfail⟩, ⟨?_, ?_⟩, ?_⟩
      · intro hc
        rw [hfail] at hc
        cases hc
      · rintro (hc | hc)
        · exact absurd hc (hacc _)
        · exact absurd hex hc.exhausted
      · intro hc
        rw [hfail] at hc
        cases hc
  | cancelled ce =>
    obtain ⟨hctx, row, hrow, hcan, ha⟩ := hset
    have hacc := not_acceptedBefore h (by simp)
    have hex : ¬ ExhaustedLiveBefore r n sid := by
      intro hex
      rcases hex.release hok hclear h.live with ⟨b, f, row', hpc⟩ | ⟨b, f, hpc⟩ <;>
        rw [h.pc] at hpc <;> cases hpc
    have hended : EndedFirst r n sid x := ⟨by simp [hctx], hacc, hex⟩
    refine ⟨row, hrow, ha, .inr (.inr hcan), ⟨?_, ?_⟩, ⟨fun _ => .inr hended, fun _ => hcan⟩, ?_⟩
    · intro hf
      rw [hcan] at hf
      cases hf
    · rintro (hf | hf)
      · exact absurd hf (hacc _)
      · exact absurd hf hex
    · intro hs
      rw [hcan] at hs
      cases hs
  | _ => exact absurd hset (by simp [Settled])

/-- **Recoveries.** -/
theorem recoveryLaw (hok : FailureFree r) (hclear : ClearRun r) (n : ℕ) : RecoveryLaw r n := by
  intro sid x out a h hsrc hp
  have hst := settles hok hclear n h.live
  simp only [Settles, h.pc] at hst
  have hset := hst a hp
  cases out with
  | accepted att resp =>
    obtain ⟨row, hrow, ha, hcl⟩ := closed_accepted hok hclear h
    refine ⟨row, hrow, ha.trans hset, .inl ?_⟩
    rcases hcl.terminal with h | h | h <;> rw [h] <;> rfl
  | failed e =>
    rcases hset with ⟨-, row, hrow, hrec, ha⟩ | ⟨hsrc', -⟩ | ⟨-, row, hrow, hfail, ha⟩
    · exact ⟨row, hrow, ha, .inr hrec⟩
    · rw [hsrc'] at hsrc
      cases hsrc
    · exact ⟨row, hrow, ha, .inl (by rw [hfail]; rfl)⟩
  | cancelled ce =>
    obtain ⟨-, row, hrow, hcan, ha⟩ := hset
    exact ⟨row, hrow, ha, .inl (by rw [hcan]; rfl)⟩
  | _ => exact absurd hset (by simp [Settled])

/-- **No job is left `Running`.** In a run without store failures a session
that has published nothing leaves the record as it found it; and where the
store stays clear of the last 64-bit generation, a session that has
published releases its job with the record of its last attempt closed, or
handed back by a recovery. -/
theorem finalization (r : (coordinator isPrint).Run) (hok : FailureFree r) (n : ℕ) :
    (ClearRun r → SubmitLaw r n ∧ RecoveryLaw r n) ∧ UntouchedLaw r n :=
  ⟨fun hclear => ⟨submitLaw hok hclear n, recoveryLaw hok hclear n⟩,
    fun _ _ _ h hn => row_of_unpublished hok h.live hn⟩

/-! ## Runs of scripts -/

theorem failureFree_scripted {st : Store} {as : List Action}
    (h : (coordinator asciiPrint).plays (offline st) as = true)
    (hf : as.all (fun a => !a.storeFails) = true) : FailureFree (scripted st as h) := by
  intro n
  show (as.getD n (.tick 0)).storeFails = false
  rw [List.getD_eq_getElem?_getD]
  cases ha : as[n]? with
  | none => rfl
  | some a => simpa using List.all_eq_true.1 hf a (List.mem_of_getElem? ha)

/-- No session stands before an unrecognised status. -/
def knownStatus (x : Session) : Bool :=
  match x.pc with
  | .fence _ (some resp) => (jobStateFromStatus resp.status).isSome
  | _ => true

theorem not_unrecognisedBefore_scripted {st : Store} {as : List Action}
    (h : (coordinator asciiPrint).plays (offline st) as = true) (sid : SessionID)
    (hk : ((coordinator asciiPrint).trail (offline st) as).all
      (fun s => (s.sessions sid).all knownStatus) = true) (n : ℕ) :
    ¬ UnrecognisedBefore (scripted st as h) n sid := by
  rintro ⟨k, y, c, m, att, resp, -, ht, hpc, hst⟩
  have hs := List.all_eq_true.1 hk _ (System.play_mem_trail as (offline st) k)
  have hy : ((coordinator asciiPrint).play (offline st) as k).sessions sid = some y := ht.took.live
  rw [hy] at hs
  simp [knownStatus, hpc, hst] at hs

/-- A submission whose two worker calls fail, and `k` more of its steps. -/
def exhaustScript (k : ℕ) : List Action :=
  startup ++ [.submit exampleRequest none, .session 0 .go, .session 0 .go] ++ attemptScript 0 ++
    [.deliver 0 ⟨none, true⟩, .session 0 .result, .session 0 .go] ++ attemptScript 0 ++
    [.deliver 1 ⟨none, true⟩, .session 0 .result, .session 0 .go] ++
    List.replicate k (.session 0 .go)

theorem plays_exhaustScript :
    (coordinator asciiPrint).plays (offline .empty) (exhaustScript 7) = true := by decide +kernel

theorem plays_exhaustScript_lastStore :
    (coordinator asciiPrint).plays (offline lastStore) (exhaustScript 6) = true := by
  decide +kernel

/-- A submission as it is released, where its script comes to its release. -/
theorem releasesAt_scripted {st : Store} {as : List Action}
    (h : (coordinator asciiPrint).plays (offline st) as = true) (n : ℕ) (sid : SessionID)
    (out : Outcome) (src : Source) (last : Option AttemptID) (j : JobID)
    (ha : as.getD n (.tick 0) = .session sid .go)
    (hx : (((coordinator asciiPrint).play (offline st) as n).sessions sid).map
      (fun x => (x.pc, x.source, x.lastPublished, x.jobID)) = some (.release out, src, last, j)) :
    ∃ x, ReleasesAt (scripted st as h) n sid x out ∧ x.source = src ∧ x.lastPublished = last ∧
      x.jobID = j := by
  obtain ⟨x, m, ht⟩ := takesAt_of_act (scripted st as h) ha
  have hval := session_scripted ht.took.live _ _ hx
  simp only [Prod.mk.injEq] at hval
  exact ⟨x, ⟨⟨m, ht⟩, hval.1⟩, hval.2⟩

theorem finalization_exhausted :
    ∃ (r : (coordinator asciiPrint).Run) (row : JobRecord), FailureFree r ∧ ClearRun r ∧
      (r.state 30).store.load 7 = some row ∧ row.attemptID = 2 ∧
      (row.state = .failed ↔ AcceptedBefore r 30 0 .failed ∨ ExhaustedLiveBefore r 30 0) := by
  have hok := failureFree_scripted plays_exhaustScript (by decide +kernel)
  have hclear := clearRun_scripted plays_exhaustScript (by decide +kernel)
  obtain ⟨x, hrel, hsrc, hp, hj⟩ := releasesAt_scripted plays_exhaustScript 30 0
    (.failed (.exhausted 2 (.rpc 2))) (.submit exampleRequest) (some 2) 7 rfl (by decide +kernel)
  obtain ⟨row, hrow, ha, hcl⟩ := ((finalization _ hok 30).1 hclear).1 0 x _ 2 hrel
    (by rw [hsrc]; rfl) hp (not_unrecognisedBefore_scripted _ 0 (by decide +kernel) 30)
  rw [hj] at hrow
  exact ⟨_, row, hok, hclear, hrow, ha, hcl.failed⟩

/-- **At the last generation the law fails**: the job of the row of the last
generation is submitted once more, its generations wrap to the least ones,
which `persistSubmitFailure` does not take for its own, and the job is
released as `Running`. -/
theorem finalization_wrap : ¬ ∀ r : (coordinator asciiPrint).Run, FailureFree r → ∀ n,
    SubmitLaw r n ∧ RecoveryLaw r n ∧ UntouchedLaw r n := by
  intro h
  obtain ⟨x, hrel, hsrc, hp, hj⟩ := releasesAt_scripted plays_exhaustScript_lastStore 29 0
    (.failed (.exhausted (Int64.minValue + 1) (.rpc (Int64.minValue + 1))))
    (.submit exampleRequest) (some (Int64.minValue + 1)) 7 rfl (by decide +kernel)
  obtain ⟨row, hrow, -, hcl⟩ := (h _ (failureFree_scripted plays_exhaustScript_lastStore
    (by decide +kernel)) 29).1 0 x _ _ hrel (by rw [hsrc]; rfl) hp
    (not_unrecognisedBefore_scripted _ 0 (by decide +kernel) 29)
  have hrunning : (((coordinator asciiPrint).play (offline lastStore) (exhaustScript 6)
      29).store.load 7).map JobRecord.state = some .running := by decide +kernel
  rw [hj] at hrow
  have hload : ((coordinator asciiPrint).play (offline lastStore) (exhaustScript 6)
      29).store.load 7 = some row := hrow
  rw [hload] at hrunning
  have hst : row.state = .running := Option.some.inj hrunning
  rcases hcl.terminal with h | h | h <;> rw [hst] at h <;> cases h

end Coordinator

end ZkRuntime
