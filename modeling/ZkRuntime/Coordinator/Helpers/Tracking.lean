import ZkRuntime.Coordinator.Helpers.Ownership
/-!
# What a session knows of its job

Nothing but its owner writes a job's row, generation or lease, so what a
session has read of them stays true until it writes them itself. `Tracks`
says what that is, place by place. It carries `persistTerminalResult`,
which saves without reading the store again.
-/

namespace ZkRuntime

namespace Coordinator

/-- **The attempt `a` on `w` is current**: stored as `Running`, the
generation in memory, and the one leased. -/
structure Current (s : State) (x : Session) (w : WorkerInfo) (a : AttemptID) : Prop where
  row : s.store.load x.jobID = some (x.record .running a w)
  memory : s.jobAttempts x.jobID = some a
  lease : ∃ l, s.leases x.jobID = some l ∧ l.attemptID = a
  published : x.lastPublished = some a

/-- The attempt is current and was dispatched. -/
structure InFlight (s : State) (x : Session) (att : Attempt) : Prop where
  current : Current s x att.worker att.attemptID
  dispatched : ∃ d, s.dispatches att.dispatch = some d ∧ d.req = x.request att.attemptID

/-- `resp` is what the dispatch of the attempt was answered with. -/
def Answer (s : State) (att : Attempt) (resp : Option ExecuteJobResponse) : Prop :=
  ∃ d res, s.dispatches att.dispatch = some d ∧ d.result = some res ∧ res.resp = resp

/-- The response names the job and the attempt, and its status is `st`. -/
structure Responded (x : Session) (att : Attempt) (resp : ExecuteJobResponse) (st : JobState) :
    Prop where
  jobID : resp.jobID = x.jobID
  attemptID : resp.attemptID = att.attemptID
  status : jobStateFromStatus resp.status = some st

/-- The row `r` is stored as `Running` at the generation in memory. -/
structure Held (s : State) (x : Session) (r : JobRecord) : Prop where
  row : s.store.load x.jobID = some r
  running : r.state = .running
  memory : s.jobAttempts x.jobID = some r.attemptID

/-- **What a session knows, place by place.** -/
def Tracks (s : State) (x : Session) : Prop :=
  match x.pc with
  | .publishSave _ next => next = nextAttempt (s.jobAttempts x.jobID) (s.store.load x.jobID)
  | .spawn w a => Current s x w a
  | .select att => InFlight s x att
  | .received att res => InFlight s x att ∧ Answer s att res.resp
  | .fence att resp => InFlight s x att ∧ Answer s att resp
  | .verify att resp st | .accept att resp st | .commit att resp st =>
    InFlight s x att ∧ Answer s att (some resp) ∧ Responded x att resp st
  | .failCheck a _ current =>
    current = s.store.load x.jobID ∧ s.jobAttempts x.jobID = some a
  | .failSave a _ r => Held s x r ∧ r.attemptID = a
  | .cancelSave _ r | .repairSave _ r => Held s x r
  | .repairLoad _ a => s.jobAttempts x.jobID = some a
  | .release (.accepted att resp) =>
    Answer s att (some resp) ∧ ∃ st, Responded x att resp st ∧
      s.store.load x.jobID = some (x.record st att.attemptID att.worker)
  | _ => True

/-! ## The frame -/

/-- Two states agree on a job: its row, its generation and its lease. -/
structure Agree (s s' : State) (j : JobID) : Prop where
  row : s'.store.load j = s.store.load j
  memory : s'.jobAttempts j = s.jobAttempts j
  lease : s'.leases j = s.leases j

/-- A dispatch keeps its request, and its result once it has one. -/
def Answers (s s' : State) : Prop :=
  ∀ did d, s.dispatches did = some d → ∃ d', s'.dispatches did = some d' ∧ d'.req = d.req ∧
    ∀ res, d.result = some res → d'.result = some res

variable {isPrint : ℕ → Bool} {s s' : State} {x x' : Session} {c : Choice} {e : Effect}

theorem agree_rfl {j : JobID} : Agree s s j := ⟨rfl, rfl, rfl⟩

theorem answers_of_eq (h : s'.dispatches = s.dispatches) : Answers s s' :=
  fun _ d hd => ⟨d, by rw [h]; exact hd, rfl, fun _ hr => hr⟩

theorem Current.frame {w : WorkerInfo} {a : AttemptID} (h : Current s x w a)
    (ha : Agree s s' x.jobID) : Current s' x w a where
  row := by rw [ha.row]; exact h.row
  memory := by rw [ha.memory]; exact h.memory
  lease := by rw [ha.lease]; exact h.lease
  published := h.published

theorem InFlight.frame {att : Attempt} (h : InFlight s x att) (ha : Agree s s' x.jobID)
    (hd : Answers s s') : InFlight s' x att where
  current := h.current.frame ha
  dispatched := by
    obtain ⟨d, hd1, hd2⟩ := h.dispatched
    obtain ⟨d', hd1', hd2', -⟩ := hd _ d hd1
    exact ⟨d', hd1', hd2'.trans hd2⟩

theorem Answer.frame {att : Attempt} {resp : Option ExecuteJobResponse} (h : Answer s att resp)
    (hd : Answers s s') : Answer s' att resp := by
  obtain ⟨d, res, hd1, hd2, hd3⟩ := h
  obtain ⟨d', hd1', -, hd2'⟩ := hd _ d hd1
  exact ⟨d', res, hd1', hd2' res hd2, hd3⟩

theorem Held.frame {r : JobRecord} (h : Held s x r) (ha : Agree s s' x.jobID) : Held s' x r where
  row := by rw [ha.row]; exact h.row
  running := h.running
  memory := by rw [ha.memory]; exact h.memory

/-! Only the specification and the last published generation of a session
matter. -/

theorem Current.congr {w : WorkerInfo} {a : AttemptID} (h : Current s x w a)
    (hs : x'.spec = x.spec) (hl : x'.lastPublished = x.lastPublished) : Current s x' w a where
  row := by simp only [Session.jobID, Session.record, hs]; exact h.row
  memory := by simp only [Session.jobID, hs]; exact h.memory
  lease := by simp only [Session.jobID, hs]; exact h.lease
  published := hl.trans h.published

theorem InFlight.congr {att : Attempt} (h : InFlight s x att) (hs : x'.spec = x.spec)
    (hl : x'.lastPublished = x.lastPublished) : InFlight s x' att where
  current := h.current.congr hs hl
  dispatched := by simp only [Session.request, hs]; exact h.dispatched

theorem Responded.congr {att : Attempt} {resp : ExecuteJobResponse} {st : JobState}
    (h : Responded x att resp st) (hs : x'.spec = x.spec) : Responded x' att resp st where
  jobID := by simp only [Session.jobID, hs]; exact h.jobID
  attemptID := h.attemptID
  status := h.status

theorem Held.congr {r : JobRecord} (h : Held s x r) (hs : x'.spec = x.spec) : Held s x' r where
  row := by simp only [Session.jobID, hs]; exact h.row
  running := h.running
  memory := by simp only [Session.jobID, hs]; exact h.memory

theorem Tracks.congr (h : Tracks s x) (hpc : x'.pc = x.pc) (hs : x'.spec = x.spec)
    (hl : x'.lastPublished = x.lastPublished) : Tracks s x' := by
  have hj : x'.jobID = x.jobID := by simp only [Session.jobID, hs]
  unfold Tracks at h ⊢
  rw [hpc]
  split at h
  · rw [hj]; exact h
  · exact h.congr hs hl
  · exact h.congr hs hl
  · exact ⟨h.1.congr hs hl, h.2⟩
  · exact ⟨h.1.congr hs hl, h.2⟩
  · exact ⟨h.1.congr hs hl, h.2.1, h.2.2.congr hs⟩
  · exact ⟨h.1.congr hs hl, h.2.1, h.2.2.congr hs⟩
  · exact ⟨h.1.congr hs hl, h.2.1, h.2.2.congr hs⟩
  · rw [hj]; exact h
  · exact ⟨h.1.congr hs, h.2⟩
  · exact h.congr hs
  · exact h.congr hs
  · rw [hj]; exact h
  · obtain ⟨h1, st, h2, h3⟩ := h
    exact ⟨h1, st, h2.congr hs, by simp only [Session.jobID, Session.record, hs]; exact h3⟩
  · trivial

/-- **What a session knows stays true** while nobody writes its job. -/
theorem Tracks.frame (h : Tracks s x) (ha : Agree s s' x.jobID) (hd : Answers s s') :
    Tracks s' x := by
  unfold Tracks at h ⊢
  split at h
  · rw [ha.memory, ha.row]; exact h
  · exact h.frame ha
  · exact h.frame ha hd
  · exact ⟨h.1.frame ha hd, h.2.frame hd⟩
  · exact ⟨h.1.frame ha hd, h.2.frame hd⟩
  · exact ⟨h.1.frame ha hd, h.2.1.frame hd, h.2.2⟩
  · exact ⟨h.1.frame ha hd, h.2.1.frame hd, h.2.2⟩
  · exact ⟨h.1.frame ha hd, h.2.1.frame hd, h.2.2⟩
  · rw [ha.memory, ha.row]; exact h
  · exact ⟨h.1.frame ha, h.2⟩
  · exact h.frame ha
  · exact h.frame ha
  · rw [ha.memory]; exact h
  · rw [ha.row]; exact ⟨h.1.frame hd, h.2⟩
  · trivial

/-! ## A session's own step -/

/-- **What a session writes**, against what is stored as it does: a new
generation, the result of the current attempt, or the same row in a final
state or handed back. -/
inductive Writes (s : State) (x : Session) : JobRecord → Prop
  | publish {w : WorkerInfo} {a : AttemptID} (h : x.pc = .publishSave w a)
      (ha : a = nextAttempt (s.jobAttempts x.jobID) (s.store.load x.jobID)) :
      Writes s x (x.record .running a w)
  | commit {att : Attempt} {resp : ExecuteJobResponse} {st : JobState}
      (h : x.pc = .commit att resp st) (hf : InFlight s x att) (hr : Responded x att resp st) :
      Writes s x (x.record st att.attemptID att.worker)
  | close {r : JobRecord} {st : JobState} (hr : Held s x r)
      (hst : st = .failed ∨ st = .cancelled ∨ st = .recovering)
      (hpc : (∃ a f, x.pc = .failSave a f r) ∨ (∃ e, x.pc = .cancelSave e r) ∨
        ∃ e, x.pc = .repairSave e r) :
      Writes s x { r with state := st }

/-- The record an effect writes, in effect or not. -/
def Effect.record? : Effect → Option JobRecord
  | .save r _ | .publish r => some r
  | _ => none

/-- **Every write is one of these.** -/
theorem Moves.writes {r : JobRecord} {next : Option Session} (h : Moves isPrint s x c e next)
    (hx : Tracks s x) (he : e.record? = some r) : Writes s x r := by
  cases h with
  | publishSave_fails h =>
    cases he
    simp only [Tracks, h] at hx
    exact .publish h hx
  | published h =>
    cases he
    simp only [Tracks, h] at hx
    exact .publish h hx
  | commit_fails h =>
    cases he
    simp only [Tracks, h] at hx
    exact .commit h hx.1 hx.2.2
  | committed h =>
    cases he
    simp only [Tracks, h] at hx
    exact .commit h hx.1 hx.2.2
  | failSave_fails h =>
    cases he
    simp only [Tracks, h] at hx
    exact .close hx.1 (.inl rfl) (.inl ⟨_, _, h⟩)
  | failSaved h =>
    cases he
    simp only [Tracks, h] at hx
    exact .close hx.1 (.inl rfl) (.inl ⟨_, _, h⟩)
  | cancelSave_fails h =>
    cases he
    simp only [Tracks, h] at hx
    exact .close hx (.inr (.inl rfl)) (.inr (.inl ⟨_, h⟩))
  | cancelSaved h =>
    cases he
    simp only [Tracks, h] at hx
    exact .close hx (.inr (.inl rfl)) (.inr (.inl ⟨_, h⟩))
  | repairSave_fails h =>
    cases he
    simp only [Tracks, h] at hx
    exact .close hx (.inr (.inr rfl)) (.inr (.inr ⟨_, h⟩))
  | repairSaved h =>
    cases he
    simp only [Tracks, h] at hx
    exact .close hx (.inr (.inr rfl)) (.inr (.inr ⟨_, h⟩))
  | _ => cases he

/-- The job a session writes is its own. -/
theorem Writes.jobID_eq {r : JobRecord} (h : Writes s x r) : r.jobID = x.jobID := by
  cases h with
  | publish => rfl
  | commit => rfl
  | close hr =>
    have hj := Store.jobID_of_load hr.row
    exact hj

/-! ## The shared state behind a step -/

theorem load_apply {j k : JobID} :
    (s.apply j e).store.load k = s.store.load k ∨
      ∃ r, e.record? = some r ∧ k = r.jobID ∧ (s.apply j e).store.load k = some r := by
  cases e with
  | save r applied =>
    cases applied with
    | false => exact .inl rfl
    | true =>
      by_cases hk : k = r.jobID
      · exact .inr ⟨r, rfl, hk, by simp [State.apply, hk]⟩
      · exact .inl (by simp only [State.apply, if_true]; exact Store.load_save_of_ne hk)
  | publish r =>
    by_cases hk : k = r.jobID
    · exact .inr ⟨r, rfl, hk, by simp [State.apply, hk]⟩
    · exact .inl (by simp only [State.apply]; exact Store.load_save_of_ne hk)
  | _ => exact .inl rfl

/-- **A session's step leaves the other jobs alone.** -/
theorem agree_apply {j k : JobID} (hr : ∀ r, e.record? = some r → r.jobID = j) (hk : k ≠ j) :
    Agree s (s.apply j e) k where
  row := by
    rcases load_apply (s := s) (e := e) (j := j) (k := k) with h | ⟨r, he, rfl, -⟩
    · exact h
    · exact absurd (hr r he) hk
  memory := by
    cases e with
    | save r applied => cases applied <;> rfl
    | publish r => simp [State.apply, Function.update_of_ne hk]
    | _ => rfl
  lease := by
    cases e with
    | save r applied => cases applied <;> rfl
    | publish r => simp [State.apply, Function.update_of_ne hk]
    | _ => rfl

/-- A session's step keeps the dispatches there are. -/
theorem answers_apply {j : JobID} (hn : ∀ did d, s.dispatches did = some d → did < s.nextDispatch) :
    Answers s (s.apply j e) := by
  cases e with
  | save r applied => cases applied <;> exact answers_of_eq rfl
  | dispatch w req =>
    intro did d hd
    have hne : did ≠ s.nextDispatch := Nat.ne_of_lt (hn did d hd)
    exact ⟨d, by simp [State.apply, Function.update_of_ne hne, hd], rfl, fun _ hr => hr⟩
  | _ => exact answers_of_eq rfl

/-- What the rest of a step touches nobody tracks. -/
theorem agree_advance {sid : SessionID} {m : Move} {k : JobID} :
    Agree (s.apply x.jobID m.effect) (s.advance sid x m) k := ⟨rfl, rfl, rfl⟩

/-- A generation above the one a session began with is one in memory. -/
theorem memory_of_initial_lt {a : AttemptID}
    (hi : s.jobAttempts x.jobID = none → x.initialAttempt = 0)
    (ha : x.initialAttempt < a) (hm : (s.jobAttempts x.jobID).getD 0 = a) :
    s.jobAttempts x.jobID = some a := by
  cases hj : s.jobAttempts x.jobID with
  | none =>
    rw [hj] at hm
    simp only [Option.getD_none] at hm
    rw [hi hj, ← hm] at ha
    exact absurd ha (Int64.lt_irrefl)
  | some b => rw [hj] at hm; simpa using hm

/-- **A session's own step**: it knows afterwards what its new place says. -/
theorem Tracks.move (h : Moves isPrint s x c e (some x')) (hx : Tracks s x)
    (hi : s.jobAttempts x.jobID = none → x.initialAttempt = 0) :
    Tracks (s.apply x.jobID e) x' := by
  cases h with
  | publishLoaded h => simp only [Tracks, Session.goto]; rfl
  | published h =>
    simp only [Tracks]
    exact ⟨Store.load_save_self _ _, Function.update_self _ _ _,
      ⟨_, Function.update_self _ _ _, rfl⟩, rfl⟩
  | @spawned w a h =>
    simp only [Tracks, h] at hx
    simp only [Tracks, Session.goto]
    have hcur : Current (s.apply x.jobID (.dispatch w (x.request a))) x w a :=
      hx.frame ⟨rfl, rfl, rfl⟩
    exact ⟨hcur.congr rfl rfl, ⟨_, Function.update_self _ _ _, rfl⟩⟩
  | selected h hd hres =>
    simp only [Tracks, h] at hx
    simp only [Tracks, Session.goto]
    exact ⟨hx.congr rfl rfl, ⟨_, _, hd, hres, rfl⟩⟩
  | answered h =>
    simp only [Tracks, h] at hx
    simp only [Tracks, Session.goto]
    exact ⟨hx.1.congr rfl rfl, hx.2⟩
  | fenced h hj ha hst =>
    simp only [Tracks, h] at hx
    simp only [Tracks, Session.goto]
    exact ⟨hx.1.congr rfl rfl, hx.2, ⟨hj, ha, hst⟩⟩
  | verified h =>
    simp only [Tracks, h] at hx
    simp only [Tracks, Session.goto]
    exact ⟨hx.1.congr rfl rfl, hx.2.1, hx.2.2.congr rfl⟩
  | accepted h =>
    simp only [Tracks, h] at hx
    simp only [Tracks, Session.goto]
    exact ⟨hx.1.congr rfl rfl, hx.2.1, hx.2.2.congr rfl⟩
  | committed h =>
    simp only [Tracks, h] at hx
    simp only [Tracks]
    exact ⟨hx.2.1, _, hx.2.2.congr rfl, Store.load_save_self _ _⟩
  | recovery_published h hsrc hm ha =>
    simp only [Tracks]
    exact memory_of_initial_lt hi ha hm
  | failLoaded h ha hm =>
    simp only [Tracks, Session.goto]
    exact ⟨rfl, memory_of_initial_lt hi ha hm⟩
  | failChecked h hctx hst ha =>
    simp only [Tracks, h] at hx
    simp only [Tracks, Session.goto]
    exact ⟨⟨hx.1.symm, hst, by rw [ha]; exact hx.2⟩, ha⟩
  | cancelLoaded h ha hr =>
    simp only [Tracks, Session.goto]
    exact ⟨hr.1, hr.2.1, by rw [hr.2.2]; exact memory_of_initial_lt hi ha rfl⟩
  | repairLoaded h hr =>
    simp only [Tracks, h] at hx
    simp only [Tracks, Session.goto]
    exact ⟨hr.1, hr.2.1, by rw [hr.2.2]; exact hx⟩
  | _ => simp [Tracks, Session.goto, Session.retry, Session.repairAborted]

/-- The generation a session began with is none other while the memory
has none. -/
theorem Moves.initial_eq {next : Option Session} (h : Moves isPrint s x c e next)
    (hn : next = some x') (hi : s.jobAttempts x.jobID = none → x.initialAttempt = 0)
    (hm : (s.apply x.jobID e).jobAttempts x'.jobID = none) : x'.initialAttempt = 0 := by
  subst hn
  have hj : x'.jobID = x.jobID := h.jobID_eq
  rw [hj] at hm
  cases h with
  | initial =>
    have hnone : s.jobAttempts x.jobID = none := hm
    simp [hnone]
  | published => simp [State.apply] at hm
  | publishSave_fails => simp only [State.apply] at hm; split at hm <;> exact hi hm
  | commit_fails => simp only [State.apply] at hm; split at hm <;> exact hi hm
  | failSave_fails => simp only [State.apply] at hm; split at hm <;> exact hi hm
  | cancelSave_fails => simp only [State.apply] at hm; split at hm <;> exact hi hm
  | repairSave_fails => simp only [State.apply] at hm; split at hm <;> exact hi hm
  | _ => exact hi hm

/-! ## Every session -/

/-- **Every session knows its job.** -/
structure Tracked (s : State) : Prop where
  owned : Owned s
  numbered : ∀ did d, s.dispatches did = some d → did < s.nextDispatch
  tracks : ∀ {sid x}, s.sessions sid = some x → Tracks s x
  initial : ∀ {sid x}, s.sessions sid = some x → s.jobAttempts x.jobID = none →
    x.initialAttempt = 0

theorem tracked_restart (s : State) (p : Phase) (cfg : Config) : Tracked (s.restart p cfg) where
  owned := owned_restart s p cfg
  numbered did d h := by simp [State.restart] at h
  tracks h := by simp [State.restart] at h
  initial h := by simp [State.restart] at h

/-- A result is sent to a dispatch that had none. -/
theorem answers_deliver {did : DispatchID} {d : Dispatch} {res : DispatchResult}
    (hd : s.dispatches did = some d) (hres : d.result = none) :
    Answers s { s with
      dispatches := Function.update s.dispatches did (some { d with result := some res }) } := by
  intro i d' hd'
  by_cases hi : i = did
  · subst hi
    rw [hd] at hd'
    cases hd'
    exact ⟨_, Function.update_self _ _ _, rfl, fun r hr => by simp [hres] at hr⟩
  · exact ⟨d', by simp [Function.update_of_ne hi, hd'], rfl, fun _ hr => hr⟩

/-- What a predicate on sessions may read of the state: the session's own
job, the dispatches and the configuration. -/
def Framed (P : State → Session → Prop) : Prop :=
  ∀ {s s' x}, P s x → Agree s s' x.jobID → Answers s s' → s'.config = s.config → P s' x

/-- **The rule for what every session knows.** A predicate its owner's
steps keep, that holds where sessions begin and is not lost with the
context, holds of every session. -/
theorem sessions_step {P : State → Session → Prop} {a : Action} (frame : Framed P)
    (ht : Tracked s) (hs : Steps isPrint s a s')
    (own : ∀ {sid c e x x'}, a = .session sid c → s.sessions sid = some x → P s x →
      Moves isPrint s x c e (some x') → P (s.apply x.jobID e) x')
    (submit : ∀ {req spec}, validateJobSpec (jobSpecFromRequest req) = .ok spec →
      P s (State.submitSession req spec))
    (recover : ∀ {snapshot ctxErr}, a = .recover snapshot ctxErr →
      P s (State.recoverySession isPrint snapshot ctxErr))
    (cancel : ∀ {x e}, x.ctxErr = none → P s x → P s { x with ctxErr := some e })
    (hP : ∀ {sid x}, s.sessions sid = some x → P s x) :
    ∀ sid x, s'.sessions sid = some x → P s' x := by
  have hclaim : ∀ {y}, P s y → ∀ {sid x}, (s.claim y).sessions sid = some x → P (s.claim y) x := by
    intro y hy sid x hx
    simp only [State.claim] at hx
    by_cases hi : sid = s.nextSession
    · subst hi
      rw [Function.update_self] at hx
      cases hx
      exact frame hy ⟨rfl, rfl, rfl⟩ (answers_of_eq rfl) rfl
    · rw [Function.update_of_ne hi] at hx
      exact frame (hP hx) ⟨rfl, rfl, rfl⟩ (answers_of_eq rfl) rfl
  intro sid x hx
  cases hs with
  | tick d => exact frame (hP hx) ⟨rfl, rfl, rfl⟩ (answers_of_eq rfl) rfl
  | stopped => simp [State.restart] at hx
  | booted cfg => simp [State.restart] at hx
  | checked fails hp => exact absurd (ht.owned.serving hx) (by simp [hp])
  | listed hp => exact absurd (ht.owned.serving hx) (by simp [hp])
  | unmarked hp => exact absurd (ht.owned.serving hx) (by simp [hp])
  | marked hp => exact absurd (ht.owned.serving hx) (by simp [hp])
  | mark_fails hp => simp [State.restart] at hx
  | served hp => exact absurd (ht.owned.serving hx) (by simp [hp])
  | registry r => exact frame (hP hx) ⟨rfl, rfl, rfl⟩ (answers_of_eq rfl) rfl
  | refused => exact hP hx
  | submitted _ _ _ hv => exact hclaim (submit hv) hx
  | recovered => exact hclaim (recover rfl) hx
  | @cancelled i e y hy hctx =>
    dsimp only at hx
    by_cases hi : sid = i
    · subst hi
      rw [Function.update_self] at hx
      cases hx
      exact frame (cancel hctx (hP hy)) ⟨rfl, rfl, rfl⟩ (answers_of_eq rfl) rfl
    · rw [Function.update_of_ne hi] at hx
      exact frame (hP hx) ⟨rfl, rfl, rfl⟩ (answers_of_eq rfl) rfl
  | delivered hd hres => exact frame (hP hx) ⟨rfl, rfl, rfl⟩ (answers_deliver hd hres) rfl
  | session hy hmu hm =>
    rename_i i c y m
    have hmv := moves_of_move hm
    have hcfg : (s.advance i y m).config = s.config := by
      cases he : m.effect with
      | save r applied => cases applied <;> simp [State.advance, State.apply, he]
      | _ => simp [State.advance, State.apply, he]
    rcases sessions_advance hx with ⟨rfl, hx'⟩ | ⟨hi, hx'⟩
    · rw [hx'] at hmv
      exact frame (own rfl hy (hP hy) hmv) agree_advance (answers_of_eq rfl)
        (by rw [hcfg]; cases he : m.effect with
          | save r applied => cases applied <;> simp [State.apply]
          | _ => simp [State.apply])
    · have hne : x.jobID ≠ y.jobID := fun heq => hi (ht.owned.unique hx' hy heq)
      have hag : Agree s (s.apply y.jobID m.effect) x.jobID :=
        agree_apply (fun r hr => (hmv.writes (ht.tracks hy) hr).jobID_eq) hne
      exact frame (hP hx') ⟨hag.row, hag.memory, hag.lease⟩ (answers_apply ht.numbered) hcfg

/-- **Every step keeps what the sessions know.** -/
theorem Tracked.step {a : Action} (ht : Tracked s) (hs : Steps isPrint s a s') : Tracked s' := by
  have hsess := sessions_step
    (P := fun s x => Tracks s x ∧ (s.jobAttempts x.jobID = none → x.initialAttempt = 0))
    (fun {_ _ _} h ha hd _ => ⟨h.1.frame ha hd, fun hn => h.2 (ha.memory ▸ hn)⟩) ht hs
    (fun _ _ h hm => ⟨Tracks.move hm h.1 h.2, hm.initial_eq rfl h.2⟩)
    (fun _ => ⟨by simp [Tracks, State.submitSession], fun _ => rfl⟩)
    (fun _ => ⟨by simp [Tracks, State.recoverySession], fun _ => rfl⟩)
    (fun _ h => ⟨h.1.congr rfl rfl rfl, h.2⟩)
    (fun hx => ⟨ht.tracks hx, ht.initial hx⟩)
  refine ⟨ht.owned.step hs, ?_, fun hx => (hsess _ _ hx).1,
    fun hx => (hsess _ _ hx).2⟩
  intro did d hd
  cases hs with
  | stopped => simp [State.restart] at hd
  | booted cfg => simp [State.restart] at hd
  | mark_fails hp => simp [State.restart] at hd
  | delivered hd' hres =>
    dsimp only at hd ⊢
    rename_i i _ _
    by_cases hi : did = i
    · subst hi; exact ht.numbered _ _ hd'
    · rw [Function.update_of_ne hi] at hd; exact ht.numbered _ _ hd
  | session hy hmu hm =>
    rename_i i c y m
    cases he : m.effect with
    | save r applied =>
      cases applied <;> simp only [State.advance, State.apply, he] at hd ⊢ <;>
        exact ht.numbered _ _ hd
    | dispatch w req =>
      simp only [State.advance, State.apply, he] at hd ⊢
      by_cases hi : did = s.nextDispatch
      · subst hi; exact Nat.lt_succ_self _
      · rw [Function.update_of_ne hi] at hd
        exact Nat.lt_succ_of_lt (ht.numbered _ _ hd)
    | _ =>
      simp only [State.advance, State.apply, he] at hd ⊢
      exact ht.numbered _ _ hd
  | _ => exact ht.numbered _ _ hd

/-- **In every state of a run the sessions know their jobs.** -/
theorem tracked (r : (coordinator isPrint).Run) (n : ℕ) : Tracked (r.state n) := by
  refine r.invariant (fun s hs => ?_) (fun s a s' h hs => h.step (steps_of_step hs)) n
  have hs' : s = s.restart .down s.config := hs
  rw [hs']
  exact tracked_restart _ _ _

/-- **The rule over a run**: what sessions begin with and their steps keep,
the sessions of every state have. -/
theorem session_invariant {P : State → Session → Prop} (frame : Framed P)
    (own : ∀ {s sid c e x x'}, Tracked s → s.sessions sid = some x → P s x →
      Moves isPrint s x c e (some x') → P (s.apply x.jobID e) x')
    (submit : ∀ s req spec, validateJobSpec (jobSpecFromRequest req) = .ok spec →
      P s (State.submitSession req spec))
    (recover : ∀ s snapshot ctxErr, P s (State.recoverySession isPrint snapshot ctxErr))
    (cancel : ∀ {s x e}, x.ctxErr = none → P s x → P s { x with ctxErr := some e })
    (r : (coordinator isPrint).Run) (n : ℕ) {sid : SessionID} {x : Session}
    (hx : (r.state n).sessions sid = some x) : P (r.state n) x := by
  induction n generalizing sid x with
  | zero =>
    have h0 : r.state 0 = (r.state 0).restart .down (r.state 0).config := r.start
    rw [h0] at hx
    simp [State.restart] at hx
  | succ n ih =>
    exact sessions_step frame (tracked r n) (steps_of_step (r.next n))
      (fun _ hx h hm => own (tracked r n) hx h hm) (fun hv => submit _ _ _ hv)
      (fun _ => recover _ _ _) cancel ih _ _ hx

end Coordinator

end ZkRuntime
