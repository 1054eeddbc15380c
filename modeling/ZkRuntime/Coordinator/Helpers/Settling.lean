import ZkRuntime.Coordinator.Helpers.History
/-!
# How a session settles its job

Where no store call fails. A session that has published nothing finds the
generation it began with in memory, so no finalization runs for it and it
writes nothing. One that has published finds its own `Running` row at its
last generation wherever it stands outside an attempt, and no exit leaves
that row behind: `Settles` says so place by place, up to the release.
-/

namespace ZkRuntime

namespace Coordinator

variable {isPrint : ℕ → Bool} {s s' : State} {x x' : Session} {c : Choice} {e : Effect}

/-! ## Store operations that fail -/

/-- The store call of a session's step fails. -/
def Choice.storeFails : Choice → Bool
  | .loadFails | .saveFails _ => true
  | _ => false

/-- The action has a store operation that fails. -/
def Action.storeFails : Action → Bool
  | .checkDisabledZK fails => fails
  | .listRunning rows => rows.isNone
  | .markRecovering c | .session _ c => c.storeFails
  | _ => false

/-- **No store operation of the run fails.** -/
def FailureFree (r : (coordinator isPrint).Run) : Prop := ∀ n, (r.act n).storeFails = false

/-! ## Sessions that have published nothing -/

/-- The generation a session began with has been read, and the session is
not over. -/
def Pc.begun : Pc → Bool
  | .reload | .readInitial | .release _ => false
  | _ => true

/-- The places of a finalization that has passed its guards. -/
def Pc.finalizes : Pc → Bool
  | .failCheck .. | .failSave .. | .cancelSave .. | .repairLoad .. | .repairSave .. => true
  | _ => false

/-- What a session that has published nothing finds in memory, and where it
does not come. -/
structure Untouched (s : State) (x : Session) : Prop where
  memory : x.pc.begun = true → (s.jobAttempts x.jobID).getD 0 = x.initialAttempt
  finalizes : x.pc.finalizes = false

/-- **A session that has published nothing finalizes nothing.** -/
def Unpublished (s : State) (x : Session) : Prop := x.lastPublished = none → Untouched s x

/-- A session reads the generation it began with once. -/
theorem Moves.begun_cases (h : Moves isPrint s x c e (some x')) (hb : x'.pc.begun = true) :
    x'.initialAttempt = (s.jobAttempts x.jobID).getD 0 ∨
      (x.pc.begun = true ∧ x'.initialAttempt = x.initialAttempt) := by
  cases h with
  | initial h => exact .inl rfl
  | context h he =>
    refine .inr ⟨?_, rfl⟩
    cases hpc : x.pc <;> simp_all [Pc.readsContext, Pc.begun]
  | retried h hh =>
    refine .inr ⟨?_, rfl⟩
    cases hpc : x.pc <;> simp_all [Pc.attempt, Pc.begun]
  | _ =>
    refine .inr ⟨?_, rfl⟩
    simp_all [Pc.begun, Session.goto, Session.repairAborted]

/-- The guards of the finalizations compare the memory with the generation
the session began with. -/
theorem Moves.finalizes_cases (h : Moves isPrint s x c e (some x'))
    (hf : x'.pc.finalizes = true) :
    x.pc.finalizes = true ∨
      (x.pc.begun = true ∧ x.initialAttempt < (s.jobAttempts x.jobID).getD 0) := by
  cases h with
  | recovery_published h hsrc hm ha =>
    rw [← hm] at ha
    exact .inr ⟨by simp [h, Pc.begun], ha⟩
  | failLoaded h ha hm =>
    rw [← hm] at ha
    exact .inr ⟨by simp [h, Pc.begun], ha⟩
  | cancelLoaded h ha => exact .inr ⟨by simp [h, Pc.begun], ha⟩
  | failChecked h => exact .inl (by simp [h, Pc.finalizes])
  | repairLoaded h => exact .inl (by simp [h, Pc.finalizes])
  | _ => simp [Pc.finalizes, Session.goto, Session.retry, Session.repairAborted] at hf

/-- Only a publication is remembered as one. -/
theorem Moves.lastPublished_cases (h : Moves isPrint s x c e (some x')) :
    (∃ w a, x.pc = .publishSave w a ∧ c = .go ∧ x'.lastPublished = some a) ∨
      (x'.lastPublished = x.lastPublished ∧ (s.apply x.jobID e).jobAttempts = s.jobAttempts) := by
  cases h with
  | published h => exact .inl ⟨_, _, h, rfl, rfl⟩
  | publishSave_fails h => exact .inr ⟨rfl, by simp only [State.apply]; split <;> rfl⟩
  | commit_fails h => exact .inr ⟨rfl, by simp only [State.apply]; split <;> rfl⟩
  | failSave_fails h => exact .inr ⟨rfl, by simp only [State.apply]; split <;> rfl⟩
  | cancelSave_fails h => exact .inr ⟨rfl, by simp only [State.apply]; split <;> rfl⟩
  | repairSave_fails h => exact .inr ⟨rfl, by simp only [State.apply]; split <;> rfl⟩
  | _ => exact .inr ⟨rfl, rfl⟩

theorem Unpublished.move (h : Moves isPrint s x c e (some x')) (hx : Unpublished s x) :
    Unpublished (s.apply x.jobID e) x' := by
  intro hn
  rcases h.lastPublished_cases with ⟨w, a, -, -, hsome⟩ | ⟨hlast, hmem⟩
  · rw [hsome] at hn
    cases hn
  · have hu := hx (hlast ▸ hn)
    refine ⟨fun hb => ?_, ?_⟩
    · rw [hmem, h.jobID_eq]
      rcases h.begun_cases hb with heq | ⟨hb', heq⟩
      · exact heq.symm
      · rw [heq]
        exact hu.memory hb'
    · by_contra hf
      rcases h.finalizes_cases (by simpa using hf) with hf' | ⟨hb, hlt⟩
      · simp [hu.finalizes] at hf'
      · rw [hu.memory hb] at hlt
        exact Int64.lt_irrefl hlt

variable (r : (coordinator isPrint).Run)

/-- In every state of a run. -/
theorem unpublished (n : ℕ) {sid : SessionID} (hx : (r.state n).sessions sid = some x) :
    Unpublished (r.state n) x := by
  refine session_invariant (fun h ha _ _ hn => ?_) (fun _ _ h hm => h.move hm)
    (fun s req spec hv _ => ⟨fun hb => by simp [State.submitSession, Pc.begun] at hb, rfl⟩)
    (fun s snapshot ctxErr _ => ⟨fun hb => by simp [State.recoverySession, Pc.begun] at hb, rfl⟩)
    (fun _ h hn => ⟨(h hn).memory, (h hn).finalizes⟩) r n hx
  exact ⟨fun hb => by rw [ha.memory]; exact (h hn).memory hb, (h hn).finalizes⟩

/-- **A session that has published nothing writes nothing**, where its
store calls do not fail. -/
theorem Moves.silent_of_unpublished (h : Moves isPrint s x c e (some x'))
    (hc : c.storeFails = false) (ht : Tracks s x) (hu : Unpublished s x)
    (hn : x'.lastPublished = none) : e.record? = none := by
  have hlast : x.lastPublished = none := by
    rcases h.lastPublished_cases with ⟨w, a, -, -, hsome⟩ | ⟨hlast, -⟩
    · rw [hsome] at hn
      cases hn
    · exact hlast ▸ hn
  have hfin := (hu hlast).finalizes
  cases hrec : e.record? with
  | none => rfl
  | some r =>
    cases h.writes ht hrec with
    | publish hpc =>
      generalize hsome : some x' = next at h
      cases h with
      | published =>
        cases hsome
        cases hn
      | publishSave_fails => simp [Choice.storeFails] at hc
      | _ => simp_all [Pc.readsContext, Pc.attempt]
    | commit hpc hf =>
      rw [hf.current.published] at hlast
      cases hlast
    | close hr hst hpc =>
      rcases hpc with ⟨a, f, hpc⟩ | ⟨e, hpc⟩ | ⟨e, hpc⟩ <;> simp [hpc, Pc.finalizes] at hfin

/-! ## Sessions that have published -/

/-- The row of the job, where it is in the state `st` at the generation `a`. -/
def StoredAt (s : State) (j : JobID) (st : JobState) (a : AttemptID) : Prop :=
  ∃ row, s.store.load j = some row ∧ row.state = st ∧ row.attemptID = a

/-- **The session stands at its last generation `a`**: published by it,
above the one it began with, in memory, and stored as `Running`. -/
structure Standing (s : State) (x : Session) (a : AttemptID) : Prop where
  published : x.lastPublished = some a
  memory : s.jobAttempts x.jobID = some a
  initial : x.initialAttempt < a
  pos : 0 < a
  row : StoredAt s x.jobID .running a

/-- The error is an unrecognised status. -/
def ExecuteError.IsInvalidStatus (e : ExecuteError) : Prop := ∃ a st, e = .invalidStatus a st

/-- **How a session that has published `a` may end.** -/
def Settled (s : State) (x : Session) (a : AttemptID) : Outcome → Prop
  | .accepted att _ => att.attemptID = a
  | .failed e =>
    (x.source.isRecovery = true ∧ StoredAt s x.jobID .recovering a) ∨
      (x.source.isRecovery = false ∧ e.IsInvalidStatus) ∨
      ((∃ f, e = .exhausted a f) ∧ StoredAt s x.jobID .failed a)
  | .cancelled ce => x.ctxErr = some ce ∧ StoredAt s x.jobID .cancelled a
  | _ => False

/-- **Where a session stands, place by place.** -/
def Settles (s : State) (x : Session) : Prop :=
  match x.pc with
  | .reload | .readInitial | .enter => x.lastPublished = none
  | .loop | .pick | .publishLoad _ | .publishSave .. | .exhausted =>
    (x.lastErr = none ∧ x.lastPublished = none) ∨ (x.lastErr ≠ none ∧ ∃ a, Standing s x a)
  | .spawn _ a => Standing s x a
  | .select att | .received att _ | .fence att _ | .verify att _ _ | .accept att _ _
  | .commit att _ _ => Standing s x att.attemptID
  | .failed e =>
    (x.lastPublished = none ∧ ∀ a f, e ≠ .exhausted a f) ∨
      ∃ a, Standing s x a ∧ (x.ctxErr ≠ none ∨ (∃ f, e = .exhausted a f) ∨ e.IsInvalidStatus)
  | .failLoad a _ | .failCheck a _ _ => x.source.isRecovery = false ∧ Standing s x a
  | .failSave a _ _ => x.lastPublished = some a
  | .cancelCheck e =>
    x.source.isRecovery = false ∧ (x.lastPublished = none ∨
      ∃ a, Standing s x a ∧ (x.ctxErr ≠ none ∨ e.IsInvalidStatus))
  | .cancelLoad ce => x.ctxErr = some ce ∧ (x.lastPublished = none ∨ ∃ a, Standing s x a)
  | .cancelSave ce r => x.ctxErr = some ce ∧ x.lastPublished = some r.attemptID
  | .repairLoad _ a => x.source.isRecovery = true ∧ Standing s x a
  | .repairSave _ r => x.source.isRecovery = true ∧ x.lastPublished = some r.attemptID
  | .release out => ∀ a, x.lastPublished = some a → Settled s x a out

/-- What standing reads of a state and of a session. -/
theorem Standing.of_eq {a : AttemptID} (h : Standing s x a) (hj : x'.jobID = x.jobID)
    (hp : x'.lastPublished = x.lastPublished) (hi : x'.initialAttempt = x.initialAttempt)
    (hr : s'.store.load x.jobID = s.store.load x.jobID)
    (hm : s'.jobAttempts x.jobID = s.jobAttempts x.jobID) : Standing s' x' a where
  published := hp.trans h.published
  memory := by rw [hj, hm]; exact h.memory
  initial := by rw [hi]; exact h.initial
  pos := h.pos
  row := by
    obtain ⟨row, hrow, hst⟩ := h.row
    exact ⟨row, by rw [hj, hr]; exact hrow, hst⟩

/-- A session that stands passes the guards of its finalization. -/
theorem Standing.initial_lt {a : AttemptID} (h : Standing s x a) :
    (s.jobAttempts x.jobID).getD 0 = a ∧ x.initialAttempt < (s.jobAttempts x.jobID).getD 0 := by
  rw [h.memory]
  exact ⟨rfl, h.initial⟩

theorem Standing.ownRow {a : AttemptID} (h : Standing s x a) : ∃ r, OwnRow s x a r := h.row

/-- The row a session closes is its own. -/
theorem storedAt_close {r : JobRecord} {st : JobState} (h : Held s x r) :
    StoredAt (s.apply x.jobID (.save { r with state := st } true)) x.jobID st r.attemptID := by
  rw [← (Store.jobID_of_load h.row : r.jobID = x.jobID)]
  exact ⟨{ r with state := st }, Store.load_save_self s.store { r with state := st }, rfl, rfl⟩

/-- In a round of the loop the session has published nothing, or stands. -/
theorem standing_of_loop {w : WorkerInfo} {b : AttemptID} (hs : Settles s x)
    (hu : Unpublished s x) (hpc : x.pc = .publishSave w b) :
    x.initialAttempt = (s.jobAttempts x.jobID).getD 0 ∨
      x.initialAttempt < (s.jobAttempts x.jobID).getD 0 := by
  simp only [Settles, hpc] at hs
  rcases hs with ⟨-, hn⟩ | ⟨-, a, ha⟩
  · exact .inl ((hu hn).memory (by simp [hpc, Pc.begun])).symm
  · exact .inr ha.initial_lt.2

/-- **A publication makes the session stand at the generation it returns.** -/
theorem standing_published {w : WorkerInfo} {a : AttemptID} (hs : Settles s x)
    (ht : Tracks s x) (hu : Unpublished s x) (hc : Clear s) (hb : Behind s)
    (hpc : x.pc = .publishSave w a) :
    Standing (s.apply x.jobID (.publish (x.record .running a w)))
      { x with lastPublished := some a, pc := .spawn w a } a := by
  simp only [Tracks, hpc] at ht
  obtain ⟨-, hgt, hpos⟩ := nextAttempt_gt hc hb x.jobID
  rw [← ht] at hgt hpos
  have hinit : x.initialAttempt < a := by
    rcases standing_of_loop hs hu hpc with heq | hlt
    · rw [heq]; exact hgt
    · exact Int64.lt_trans hlt hgt
  exact ⟨rfl, Function.update_self _ _ _, hinit, hpos, _,
    Store.load_save_self s.store (x.record .running a w), rfl, rfl⟩

/-- Inside an attempt the session stands at it. -/
theorem Settles.attempt {att : Attempt} (h : Settles s x) (ha : x.pc.attempt = some att) :
    Standing s x att.attemptID := by
  cases hpc : x.pc <;> simp only [hpc, Pc.attempt] at ha <;> cases ha <;>
    simpa only [Settles, hpc] using h

/-- Where `executeJobFromSource` reads the context, the session has
published nothing, or stands. -/
theorem Settles.readsContext (h : Settles s x) (hr : x.pc.readsContext = true) :
    x.lastPublished = none ∨ ∃ a, Standing s x a := by
  cases hpc : x.pc with
  | enter => simp only [Settles, hpc] at h; exact .inl h
  | loop => simp only [Settles, hpc] at h; exact h.imp (·.2) (·.2)
  | exhausted => simp only [Settles, hpc] at h; exact h.imp (·.2) (·.2)
  | select att => exact .inr ⟨_, h.attempt (by rw [hpc]; rfl)⟩
  | received att res => exact .inr ⟨_, h.attempt (by rw [hpc]; rfl)⟩
  | accept att resp st => exact .inr ⟨_, h.attempt (by rw [hpc]; rfl)⟩
  | _ => simp [hpc, Pc.readsContext] at hr

/-- **A session's own step, where its store call does not fail.** -/
theorem Settles.move (h : Moves isPrint s x c e (some x')) (hx : Settles s x)
    (hf : c.storeFails = false) (ht : Tracks s x) (hu : Unpublished s x) (hc : Clear s)
    (hb : Behind s) (hact : x.jobID ∈ s.activeJobs) : Settles (s.apply x.jobID e) x' := by
  -- Whatever only moves the session keeps it standing.
  have hgo : ∀ {pc a}, Standing s x a → Standing s (x.goto pc) a := fun h =>
    h.of_eq rfl rfl rfl rfl rfl
  cases h with
  | reload_fails => simp [Choice.storeFails] at hf
  | publishLoad_fails => simp [Choice.storeFails] at hf
  | publishSave_fails => simp [Choice.storeFails] at hf
  | commit_fails => simp [Choice.storeFails] at hf
  | failLoad_fails => simp [Choice.storeFails] at hf
  | failSave_fails => simp [Choice.storeFails] at hf
  | cancelLoad_fails => simp [Choice.storeFails] at hf
  | cancelSave_fails => simp [Choice.storeFails] at hf
  | repairLoad_fails => simp [Choice.storeFails] at hf
  | repairSave_fails => simp [Choice.storeFails] at hf
  | reload_stale h =>
    simp only [Settles, h] at hx
    intro a ha
    rw [show x.lastPublished = some a from ha] at hx
    cases hx
  | reload_current h => simpa only [Settles, h] using hx
  | initial h => simpa only [Settles, h] using hx
  | context h he =>
    rcases hx.readsContext h with hn | ⟨a, ha⟩
    · exact .inl ⟨hn, by simp⟩
    · exact .inr ⟨a, hgo ha, .inl (by simp [Session.goto, he])⟩
  | refused h he =>
    simp only [Settles, h] at hx
    refine .inl ⟨hx, ?_⟩
    rcases he with rfl | ⟨e', rfl⟩ <;> simp
  | entered h =>
    simp only [Settles, h] at hx
    exact .inl ⟨rfl, hx⟩
  | loop_on h =>
    simp only [Settles, h] at hx
    exact hx.imp_right (And.imp_right (Exists.imp fun _ => hgo))
  | loop_over h =>
    simp only [Settles, h] at hx
    exact hx.imp_right (And.imp_right (Exists.imp fun _ => hgo))
  | pick_some h =>
    simp only [Settles, h] at hx
    exact hx.imp_right (And.imp_right (Exists.imp fun _ ha => ha.of_eq rfl rfl rfl rfl rfl))
  | pick_none h =>
    simp only [Settles, h] at hx
    exact hx.imp_right (And.imp_right (Exists.imp fun _ ha => ha.of_eq rfl rfl rfl rfl rfl))
  | publishLoaded h =>
    simp only [Settles, h] at hx
    exact hx.imp_right (And.imp_right (Exists.imp fun _ => hgo))
  | published h => exact standing_published hx ht hu hc hb h
  | spawned h =>
    simp only [Settles, h] at hx
    exact hx.of_eq rfl rfl rfl rfl rfl
  | selected h => exact hgo (hx.attempt (by rw [h]; rfl))
  | retried h => exact .inr ⟨by simp [Session.retry], _, (hx.attempt h).of_eq rfl rfl rfl rfl rfl⟩
  | answered h => exact hgo (hx.attempt (by rw [h]; rfl))
  | status_unknown h =>
    exact .inr ⟨_, hgo (hx.attempt (by rw [h]; rfl)), .inr (.inr ⟨_, _, rfl⟩)⟩
  | fenced h => exact hgo (hx.attempt (by rw [h]; rfl))
  | verified h => exact hgo (hx.attempt (by rw [h]; rfl))
  | accepted h => exact hgo (hx.attempt (by rw [h]; rfl))
  | @committed att resp st h =>
    intro a ha
    have hat : x.pc.attempt = some att := by rw [h]; rfl
    exact Option.some.inj ((hx.attempt hat).published.symm.trans ha)
  | @retries_exhausted f h hl =>
    simp only [Settles, h] at hx
    rcases hx with ⟨hn, -⟩ | ⟨-, a, ha⟩
    · rw [hn] at hl; cases hl
    · refine .inr ⟨a, hgo ha, .inr (.inl ⟨f, ?_⟩)⟩
      rw [ha.published]
      rfl
  | no_workers h hl =>
    simp only [Settles, h] at hx
    rcases hx with ⟨-, hn⟩ | ⟨hne, -⟩
    · exact .inl ⟨hn, by simp⟩
    · exact absurd hl hne
  | submit_exhausted h hsrc hctx =>
    simp only [Settles, h] at hx
    rcases hx with ⟨-, hne⟩ | ⟨a, ha, hctx' | ⟨f, heq⟩ | ⟨b, st, heq⟩⟩
    · exact absurd rfl (hne _ _)
    · exact absurd hctx hctx'
    · cases heq
      exact ⟨hsrc, hgo ha⟩
    · cases heq
  | submit_failed h hsrc he =>
    simp only [Settles, h] at hx
    refine ⟨hsrc, ?_⟩
    rcases hx with ⟨hn, -⟩ | ⟨a, ha, hctx | ⟨f, rfl⟩ | hinv⟩
    · exact .inl hn
    · exact .inr ⟨a, hgo ha, .inl hctx⟩
    · exact .inr ⟨a, hgo ha, .inl (he.resolve_right fun hne => hne a f rfl)⟩
    · exact .inr ⟨a, hgo ha, .inr hinv⟩
  | recovery_unpublished h hsrc hle =>
    simp only [Settles, h] at hx
    intro a hp
    rcases hx with ⟨hn, -⟩ | ⟨b, hst, -⟩
    · exact absurd (hn.symm.trans hp) (by simp)
    · exact absurd hst.initial_lt.2 hle
  | recovery_published h hsrc hm hlt =>
    simp only [Settles, h] at hx
    refine ⟨hsrc, ?_⟩
    rcases hx with ⟨hn, -⟩ | ⟨b, hst, -⟩
    · rw [← hm, (hu hn).memory (by simp [h, Pc.begun])] at hlt
      exact absurd hlt Int64.lt_irrefl
    · rw [hst.initial_lt.1] at hm
      subst hm
      exact hst.of_eq rfl rfl rfl rfl rfl
  | failLoad_skipped h hg =>
    simp only [Settles, h] at hx
    obtain ⟨hsrc, hst⟩ := hx
    refine ⟨hsrc, .inr ⟨_, hgo hst, ?_⟩⟩
    rcases hg with hctx | hact' | hle | hle | hne
    · exact .inl hctx
    · exact absurd hact hact'
    · exact absurd hst.initial (Int64.not_lt.2 hle)
    · exact absurd hst.pos (Int64.not_lt.2 hle)
    · exact absurd hst.initial_lt.1 hne
  | failLoaded h =>
    simp only [Settles, h] at hx
    exact ⟨hx.1, hgo hx.2⟩
  | failCheck_skipped h hg =>
    simp only [Settles, h] at hx
    simp only [Tracks, h] at ht
    obtain ⟨hsrc, hst⟩ := hx
    refine ⟨hsrc, .inr ⟨_, hgo hst, ?_⟩⟩
    rcases hg with hctx | hne
    · exact .inl hctx
    · obtain ⟨row, hrow, hown⟩ := hst.row
      exact absurd ⟨Store.jobID_of_load hrow, hown⟩ (hne row (ht.1.trans hrow))
  | failChecked h =>
    simp only [Settles, h] at hx
    exact hx.2.published
  | failSaved h =>
    simp only [Settles, h] at hx
    simp only [Tracks, h] at ht
    intro a ha
    obtain rfl := Option.some.inj (hx.symm.trans ha)
    refine .inr (.inr ⟨⟨_, rfl⟩, ?_⟩)
    rw [← ht.2]
    exact storedAt_close ht.1
  | cancelCheck_live h hctx =>
    simp only [Settles, h] at hx
    obtain ⟨hsrc, hx⟩ := hx
    intro a ha
    rcases hx with hn | ⟨b, -, hctx' | hinv⟩
    · exact absurd (hn.symm.trans ha) (by simp)
    · exact absurd hctx hctx'
    · exact .inr (.inl ⟨hsrc, hinv⟩)
  | cancelCheck_ended h hctx =>
    simp only [Settles, h] at hx
    exact ⟨hctx, hx.2.imp_right (Exists.imp fun _ ha => hgo ha.1)⟩
  | cancelLoad_skipped h hg =>
    simp only [Settles, h] at hx
    intro a ha
    rcases hx.2 with hn | ⟨b, hst⟩
    · exact absurd (hn.symm.trans ha) (by simp)
    · rcases hg with (hact' | hle) | hne
      · exact absurd hact hact'
      · exact absurd hst.initial_lt.2 (Int64.not_lt.2 hle)
      · obtain ⟨row, hrow⟩ := hst.ownRow
        rw [hst.initial_lt.1] at hne
        exact absurd hrow (hne row)
  | cancelLoaded h hlt hr =>
    simp only [Settles, h] at hx
    refine ⟨hx.1, ?_⟩
    rcases hx.2 with hn | ⟨b, hst⟩
    · rw [(hu hn).memory (by simp [h, Pc.begun])] at hlt
      exact absurd hlt Int64.lt_irrefl
    · rw [hst.initial_lt.1] at hr
      rw [hr.2.2]
      exact hst.published
  | cancelSaved h =>
    simp only [Settles, h] at hx
    simp only [Tracks, h] at ht
    intro a ha
    obtain rfl := Option.some.inj (hx.2.symm.trans ha)
    exact ⟨hx.1, storedAt_close ht⟩
  | repairLoad_skipped h hr =>
    simp only [Settles, h] at hx
    obtain ⟨row, hrow⟩ := hx.2.ownRow
    exact absurd hrow (hr row)
  | repairLoaded h hr =>
    simp only [Settles, h] at hx
    refine ⟨hx.1, ?_⟩
    rw [hr.2.2]
    exact hx.2.published
  | repairSaved h =>
    simp only [Settles, h] at hx
    simp only [Tracks, h] at ht
    intro a ha
    obtain rfl := Option.some.inj (hx.2.symm.trans ha)
    exact .inl ⟨hx.1, storedAt_close ht⟩

theorem StoredAt.frame {j : JobID} {st : JobState} {a : AttemptID} (h : StoredAt s j st a)
    (ha : Agree s s' j) : StoredAt s' j st a := by
  obtain ⟨row, hrow, hst⟩ := h
  exact ⟨row, by rw [ha.row]; exact hrow, hst⟩

theorem Settled.idle {a : AttemptID} {out : Outcome} (h : Settled s x a out) (hi : Idle x x')
    (ha : Agree s s' x.jobID) : Settled s' x' a out := by
  cases out with
  | failed e =>
    simp only [Settled, hi.jobID, hi.source] at h ⊢
    rcases h with ⟨hsrc, hrow⟩ | h | ⟨he, hrow⟩
    · exact .inl ⟨hsrc, hrow.frame ha⟩
    · exact .inr (.inl h)
    · exact .inr (.inr ⟨he, hrow.frame ha⟩)
  | cancelled ce =>
    simp only [Settled, hi.jobID] at h ⊢
    exact ⟨(hi.ended (by simp [h.1])).trans h.1, h.2.frame ha⟩
  | _ => exact h

/-- **Where a session stands nobody else changes**, and the end of its
context moves nothing. -/
theorem Settles.idle (h : Settles s x) (hi : Idle x x') (ha : Agree s s' x.jobID) :
    Settles s' x' := by
  have hst : ∀ {a}, Standing s x a → Standing s' x' a := fun h =>
    h.of_eq hi.jobID hi.lastPublished (by rw [hi.eq]) ha.row ha.memory
  have hctx : x.ctxErr ≠ none → x'.ctxErr ≠ none := fun hne => by rwa [hi.ended hne]
  have herr : x'.lastErr = x.lastErr := by rw [hi.eq]
  have hpc' := hi.pc
  cases hpc : x.pc <;> rw [hpc] at hpc' <;>
    simp only [Settles, hpc, hpc', hi.lastPublished, hi.source, herr] at h ⊢
  case loop => exact h.imp_right fun ⟨hl, a, h⟩ => ⟨hl, a, hst h⟩
  case pick => exact h.imp_right fun ⟨hl, a, h⟩ => ⟨hl, a, hst h⟩
  case publishLoad => exact h.imp_right fun ⟨hl, a, h⟩ => ⟨hl, a, hst h⟩
  case publishSave => exact h.imp_right fun ⟨hl, a, h⟩ => ⟨hl, a, hst h⟩
  case exhausted => exact h.imp_right fun ⟨hl, a, h⟩ => ⟨hl, a, hst h⟩
  case failed => exact h.imp_right fun ⟨a, h, he⟩ => ⟨a, hst h, he.imp_left hctx⟩
  case failLoad => exact ⟨h.1, hst h.2⟩
  case failCheck => exact ⟨h.1, hst h.2⟩
  case cancelCheck =>
    exact ⟨h.1, h.2.imp_right fun ⟨a, h, he⟩ => ⟨a, hst h, he.imp_left hctx⟩⟩
  case cancelLoad =>
    exact ⟨(hi.ended (by simp [h.1])).trans h.1, h.2.imp_right fun ⟨a, h⟩ => ⟨a, hst h⟩⟩
  case cancelSave => exact ⟨(hi.ended (by simp [h.1])).trans h.1, h.2⟩
  case repairLoad => exact ⟨h.1, hst h.2⟩
  case release => exact fun a hp => (h a hp).idle hi ha
  all_goals first | exact h | exact hst h

variable {r}

/-- **In every state of a run without store failures**, whose store stays
clear of the last generation. -/
theorem settles (hok : FailureFree r) (hclear : ClearRun r) (n : ℕ) {sid : SessionID}
    (hx : (r.state n).sessions sid = some x) : Settles (r.state n) x := by
  induction n generalizing sid x with
  | zero =>
    have h0 : r.state 0 = (r.state 0).restart .down (r.state 0).config := r.start
    rw [h0] at hx
    simp [State.restart] at hx
  | succ n ih =>
    have htr := tracked r n
    refine sessions_step (fun h ha _ _ => h.idle idle_rfl ha) htr (steps_of_step (r.next n))
      (fun {sid c e y y'} hact hy h hm => ?_) (fun _ => rfl) (fun _ => rfl)
      (fun hctx h => h.idle ⟨rfl, fun hne => absurd hctx hne⟩ agree_rfl) ih _ _ hx
    have hf := hok n
    rw [hact] at hf
    exact h.move hm hf (htr.tracks hy) (unpublished r n hy) (hclear n) (behind r hclear n)
      ((htr.owned.active _).2 ⟨_, _, hy, rfl⟩)

end Coordinator

end ZkRuntime
