import ZkRuntime.Coordinator.Helpers.Schedule
import ZkRuntime.Coordinator.Helpers.Settling
/-!
# What a recovery session leaves

Where a failed `Save` leaves the store unchanged. A `Recovering` row is
written by the repair of a recovery and by nothing else a session does. A
recovery of the record `current` keeps its fingerprint through validation,
publication and repair, and what it reports at its end fits the row it
leaves: a `Recovering` row is at the reported generation, and where it
reports a result or a failed repair the row is not `Recovering`.
-/

namespace ZkRuntime

namespace Coordinator

variable {isPrint : ℕ → Bool} {s s' : State} {x x' : Session} {c : Choice} {e : Effect}

/-- The row of a job that is `Recovering`, where it is. -/
def RecoveringRow (s : State) (j : JobID) (row : JobRecord) : Prop :=
  s.store.load j = some row ∧ row.state = .recovering

/-! ## Who writes `Recovering` -/

/-- The places of the repair. -/
def Pc.repairs : Pc → Bool
  | .repairLoad .. | .repairSave .. => true
  | _ => false

/-- Only a recovery repairs. -/
def Sided (x : Session) : Prop := x.pc.repairs = true → x.source.isRecovery = true

theorem Sided.move (h : Moves isPrint s x c e (some x')) (hx : Sided x) : Sided x' := by
  intro hr
  rw [h.source_eq]
  cases h with
  | recovery_published h hsrc => exact hsrc
  | repairLoaded h => exact hx (by simp [h, Pc.repairs])
  | _ => simp [Pc.repairs, Session.goto, Session.retry, Session.repairAborted] at hr

/-- **A `Recovering` row is written by a repair.** -/
theorem Moves.repairs_of_recovering {next : Option Session} {row : JobRecord}
    (h : Moves isPrint s x c e next) (ht : Tracks s x) (he : e.record? = some row)
    (hst : row.state = .recovering) :
    ∃ er r, x.pc = .repairSave er r ∧ row = { r with state := .recovering } := by
  cases h with
  | repairSave_fails h => cases he; exact ⟨_, _, h, rfl⟩
  | repairSaved h => cases he; exact ⟨_, _, h, rfl⟩
  | publishSave_fails => cases he; cases hst
  | published => cases he; cases hst
  | commit_fails h =>
    cases he
    simp only [Tracks, h] at ht
    exact absurd hst (ne_recovering_of_status ht.2.2.status)
  | committed h =>
    cases he
    simp only [Tracks, h] at ht
    exact absurd hst (ne_recovering_of_status ht.2.2.status)
  | failSave_fails => cases he; cases hst
  | failSaved => cases he; cases hst
  | cancelSave_fails => cases he; cases hst
  | cancelSaved => cases he; cases hst
  | _ => cases he

/-! ## Fingerprints -/

/-- The fingerprint of a specification. -/
def specHash (isPrint : ℕ → Bool) (spec : JobSpec) : Bytes :=
  recoverySpecHash isPrint
    ⟨spec.jobID, .running, 0, [], spec.taskType, spec.payload, spec.timeoutMs⟩

theorem recoverySpecHash_eq (r : JobRecord) :
    recoverySpecHash isPrint r = specHash isPrint (jobSpecFromRecord r) :=
  recoverySpecHash_congr rfl

theorem specHash_of_validateJobSpec {spec spec' : JobSpec} (h : validateJobSpec spec = .ok spec') :
    specHash isPrint spec' = specHash isPrint spec :=
  recoverySpecHash_of_validateJobSpec h

/-! ## A recovery -/

/-- The places only a submission comes to. -/
def Pc.submits : Pc → Bool
  | .failLoad .. | .failCheck .. | .failSave .. | .cancelCheck _ | .cancelLoad _
  | .cancelSave .. => true
  | _ => false

/-- How far a recovery is: it has not published before it executes. -/
structure Progress (x : Session) : Prop where
  side : x.pc.submits = false
  begun : x.pc.begun = true → x.result.executed = true
  executed : x.result.executed = false → x.lastPublished = none
  fresh : x.pc = .reload ∨ x.pc = .readInitial → x.result.executed = false

theorem Moves.submits_cases (h : Moves isPrint s x c e (some x')) (hp : x'.pc.submits = true) :
    x.pc.submits = true ∨ x.source.isRecovery = false := by
  cases h with
  | submit_exhausted h hsrc => exact .inr hsrc
  | submit_failed h hsrc => exact .inr hsrc
  | failLoad_skipped h => exact .inl (by simp [h, Pc.submits])
  | failLoaded h => exact .inl (by simp [h, Pc.submits])
  | failCheck_skipped h => exact .inl (by simp [h, Pc.submits])
  | failChecked h => exact .inl (by simp [h, Pc.submits])
  | cancelCheck_ended h => exact .inl (by simp [h, Pc.submits])
  | cancelLoaded h => exact .inl (by simp [h, Pc.submits])
  | _ => simp [Pc.submits, Session.goto, Session.retry, Session.repairAborted] at hp

/-- A session executes from the reading of its generation on. -/
theorem Moves.executed_cases (h : Moves isPrint s x c e (some x')) :
    (x.pc = .readInitial ∧ x'.pc = .enter ∧ x'.result.executed = x.source.isRecovery) ∨
      (x'.result.executed = x.result.executed ∧ (x'.pc.begun = true → x.pc.begun = true) ∧
        (x'.pc = .reload ∨ x'.pc = .readInitial → x.pc = .reload)) := by
  cases h with
  | initial h => exact .inl ⟨h, rfl, rfl⟩
  | reload_current h => exact .inr ⟨rfl, fun hb => by simp [Pc.begun] at hb, fun _ => h⟩
  | context h he =>
    refine .inr ⟨rfl, fun _ => ?_, fun hp => by simp [Session.goto] at hp⟩
    cases hpc : x.pc <;> simp_all [Pc.readsContext, Pc.begun]
  | retried h hh =>
    refine .inr ⟨rfl, fun _ => ?_, fun hp => by simp [Session.retry] at hp⟩
    cases hpc : x.pc <;> simp_all [Pc.attempt, Pc.begun]
  | _ =>
    refine .inr ⟨rfl, fun hb => ?_, fun hp => ?_⟩
    · simp_all [Pc.begun, Session.goto, Session.repairAborted]
    · simp [Session.goto, Session.repairAborted] at hp

theorem Progress.move (h : Moves isPrint s x c e (some x')) (hsrc : x.source.isRecovery = true)
    (hx : Progress x) : Progress x' := by
  refine ⟨?_, fun hb => ?_, fun he => ?_, fun hp => ?_⟩
  · by_contra hs
    rcases h.submits_cases (by simpa using hs) with hs' | hs'
    · simp [hx.side] at hs'
    · simp [hsrc] at hs'
  · rcases h.executed_cases with ⟨-, -, heq⟩ | ⟨heq, hb', -⟩
    · rw [heq, hsrc]
    · rw [heq]
      exact hx.begun (hb' hb)
  · rcases h.executed_cases with ⟨-, -, heq⟩ | ⟨heq, -⟩
    · rw [heq, hsrc] at he
      cases he
    · rw [heq] at he
      rcases h.lastPublished_cases with ⟨w, a, hpc, -, -⟩ | ⟨hlast, -⟩
      · rw [hx.begun (by simp [hpc, Pc.begun])] at he
        cases he
      · rw [hlast]
        exact hx.executed he
  · rcases h.executed_cases with ⟨-, hpc, -⟩ | ⟨heq, -, hpc⟩
    · simp [hpc] at hp
    · rw [heq]
      exact hx.fresh (.inl (hpc hp))

/-- The session is about to release its job. -/
def Pc.over : Pc → Bool
  | .release _ => true
  | _ => false

/-- What the repair works on. -/
def Repairing (isPrint : ℕ → Bool) (current : JobRecord) (x : Session) : Prop :=
  match x.pc with
  | .repairLoad _ a => x.lastPublished = some a ∧ x.result.generation = a
  | .repairSave _ r => x.result.generation = r.attemptID ∧
      recoverySpecHash isPrint r = recoverySpecHash isPrint current
  | _ => True

/-- The job of `current` is `Running` at the generation `a`, in the store
and in memory, with the fingerprint of `current`. -/
structure Retried (isPrint : ℕ → Bool) (s : State) (current : JobRecord) (a : AttemptID) :
    Prop where
  memory : s.jobAttempts current.jobID = some a
  row : ∃ row, s.store.load current.jobID = some row ∧ row.state = .running ∧
    row.attemptID = a ∧ recoverySpecHash isPrint row = recoverySpecHash isPrint current

/-- **A recovery of the record `current`**, on its way and at its end. -/
structure Retrying (isPrint : ℕ → Bool) (s : State) (current : JobRecord) (x : Session) :
    Prop where
  jobID : x.jobID = current.jobID
  spec : specHash isPrint x.spec = recoverySpecHash isPrint current
  hash : x.result.specHash = recoverySpecHash isPrint current
  progress : Progress x
  unpublished : x.lastPublished = none → x.result.generation = current.attemptID ∧
    ∀ row, RecoveringRow s current.jobID row → row = current
  published : ∀ a, x.lastPublished = some a → x.pc.over = false → Retried isPrint s current a
  repairing : Repairing isPrint current x
  live : x.pc.over = false → x.result.terminal = false ∧ x.result.repairFailed = false
  leaves : x.pc.over = true → ∀ row, RecoveringRow s current.jobID row →
    row.attemptID = x.result.generation ∧
      recoverySpecHash isPrint row = recoverySpecHash isPrint current ∧
      x.result.terminal = false ∧ x.result.repairFailed = false
  /-- A nil error is a result, or nothing was executed. -/
  ok : ∀ out, x.pc = .release out → out.isOk = true → x.result.executed = true →
    x.result.terminal = true

variable {current : JobRecord}

/-- A step that leaves the row, the generation and what the session reports. -/
theorem Retrying.quiet (h : Retrying isPrint s current x) (hp : Progress x')
    (hover : x.pc.over = false) (hover' : x'.pc.over = false) (hrep : Repairing isPrint current x')
    (hj : x'.jobID = x.jobID) (hs : specHash isPrint x'.spec = specHash isPrint x.spec)
    (hl : x'.lastPublished = x.lastPublished)
    (hr : x'.result = { x.result with executed := x'.result.executed })
    (hrow : s'.store.load current.jobID = s.store.load current.jobID)
    (hmem : s'.jobAttempts current.jobID = s.jobAttempts current.jobID) :
    Retrying isPrint s' current x' where
  jobID := hj.trans h.jobID
  spec := hs.trans h.spec
  hash := by rw [hr]; exact h.hash
  progress := hp
  unpublished hn := by
    obtain ⟨h1, h2⟩ := h.unpublished (hl ▸ hn)
    refine ⟨by rw [hr]; exact h1, fun row hrr => h2 row ⟨?_, hrr.2⟩⟩
    rw [← hrow]
    exact hrr.1
  published a ha _ := by
    obtain ⟨h1, h2⟩ := h.published a (hl ▸ ha) hover
    exact ⟨hmem.trans h1, by rw [hrow]; exact h2⟩
  repairing := hrep
  live _ := by rw [hr]; exact h.live hover
  leaves ho := by rw [hover'] at ho; cases ho
  ok _ hpc := by rw [hpc] at hover'; cases hover'

/-- A session that ends as it is, its row left. -/
theorem Retrying.ends {out : Outcome} (h : Retrying isPrint s current x)
    (hp : Progress (x.goto (.release out))) (hover : x.pc.over = false)
    (hok : out.isOk = true → x.result.executed = false) :
    Retrying isPrint s current (x.goto (.release out)) where
  jobID := h.jobID
  spec := h.spec
  hash := h.hash
  progress := hp
  unpublished := h.unpublished
  published _ _ ho := by cases ho
  repairing := trivial
  live ho := by cases ho
  leaves _ row hrow := by
    obtain ⟨hterm, hrep⟩ := h.live hover
    cases hl : x.lastPublished with
    | none =>
      obtain ⟨hgen, heq⟩ := h.unpublished hl
      rw [heq row hrow]
      exact ⟨hgen.symm, rfl, hterm, hrep⟩
    | some a =>
      -- A published row is `Running`.
      obtain ⟨row', hload, hst, -⟩ := (h.published a hl hover).row
      rw [hrow.1] at hload
      cases hload
      rw [hrow.2] at hst
      cases hst
  ok _ hpc ho he := by
    cases hpc
    exact absurd ((hok ho).symm.trans he) (by simp)

/-- A repair that is given up leaves a `Running` row. -/
theorem Retrying.aborts {er : ExecuteError} {call : StoreCall} {row : JobRecord}
    (h : Retrying isPrint s current x) (hp : Progress (x.repairAborted er call))
    (hlast : x.lastPublished ≠ none) (hload : s.store.load current.jobID = some row)
    (hst : row.state = .running) : Retrying isPrint s current (x.repairAborted er call) where
  jobID := h.jobID
  spec := h.spec
  hash := h.hash
  progress := hp
  unpublished hn := absurd hn hlast
  published _ _ ho := by cases ho
  repairing := trivial
  live ho := by cases ho
  leaves _ row' hrow := by
    rw [hrow.1] at hload
    cases hload
    rw [hrow.2] at hst
    cases hst
  ok _ hpc ho := by
    cases hpc
    cases ho

/-- The `Save` of the step, where it fails, leaves the store unchanged. -/
def Choice.atomic : Choice → Bool
  | .saveFails applied => !applied
  | _ => true

/-- The last attempt was published before the repair. -/
theorem Retrying.row_of_repair {er : ExecuteError} {a : AttemptID}
    (h : Retrying isPrint s current x) (hpc : x.pc = .repairLoad er a) :
    x.lastPublished = some a ∧ x.result.generation = a ∧ Retried isPrint s current a := by
  have hrep := h.repairing
  simp only [Repairing, hpc] at hrep
  exact ⟨hrep.1, hrep.2, h.published a hrep.1 (by rw [hpc]; rfl)⟩

/-- **A recovery's own step.** -/
theorem Retrying.move (h : Moves isPrint s x c e (some x')) (hsrc : x.source.isRecovery = true)
    (hx : Retrying isPrint s current x) (hat : c.atomic = true) (ht : Tracks s x)
    (hu : Unpublished s x) : Retrying isPrint (s.apply x.jobID e) current x' := by
  have hp : Progress x' := hx.progress.move h hsrc
  have hj := hx.jobID
  -- The submission's places are not a recovery's.
  have hside := hx.progress.side
  have hover : ∀ {pc}, x.pc = pc → pc.over = false → x.pc.over = false := fun h ho => by rw [h, ho]
  cases h with
  | reload_fails h => exact hx.ends hp (hover h rfl) fun ho => by cases ho
  | reload_stale h => exact hx.ends hp (hover h rfl) fun _ => hx.progress.fresh (.inl h)
  | reload_current h hr hst ha =>
    have hn := hx.progress.executed (hx.progress.fresh (.inl h))
    obtain ⟨hgen, heq⟩ := hx.unpublished hn
    obtain rfl := heq _ ⟨by rw [← hj]; exact hr, hst⟩
    exact ⟨rfl, (recoverySpecHash_eq _).symm, rfl, hp, fun _ => ⟨hgen, heq⟩,
      fun a ha _ => absurd (hn.symm.trans ha) (by simp), trivial, fun _ => hx.live (hover h rfl),
      (fun ho => by cases ho), (fun _ hpc => by cases hpc)⟩
  | initial h => exact hx.quiet hp (hover h rfl) rfl trivial rfl rfl rfl rfl rfl rfl
  | context h he =>
    refine hx.quiet hp ?_ rfl trivial rfl rfl rfl rfl rfl rfl
    cases hpc : x.pc <;> simp_all [Pc.readsContext, Pc.over]
  | refused h => exact hx.quiet hp (hover h rfl) rfl trivial rfl rfl rfl rfl rfl rfl
  | entered h hzk hv =>
    exact hx.quiet hp (hover h rfl) rfl trivial (jobID_of_validateJobSpec hv)
      (specHash_of_validateJobSpec hv) rfl rfl rfl rfl
  | loop_on h => exact hx.quiet hp (hover h rfl) rfl trivial rfl rfl rfl rfl rfl rfl
  | loop_over h => exact hx.quiet hp (hover h rfl) rfl trivial rfl rfl rfl rfl rfl rfl
  | pick_some h => exact hx.quiet hp (hover h rfl) rfl trivial rfl rfl rfl rfl rfl rfl
  | pick_none h => exact hx.quiet hp (hover h rfl) rfl trivial rfl rfl rfl rfl rfl rfl
  | publishLoad_fails h => exact hx.quiet hp (hover h rfl) rfl trivial rfl rfl rfl rfl rfl rfl
  | publishLoaded h => exact hx.quiet hp (hover h rfl) rfl trivial rfl rfl rfl rfl rfl rfl
  | @publishSave_fails w a applied h =>
    obtain rfl : applied = false := by simpa [Choice.atomic] using hat
    exact hx.quiet hp (hover h rfl) rfl trivial rfl rfl rfl rfl rfl rfl
  | @published w a h =>
    have hrow : (s.apply x.jobID (.publish (x.record .running a w))).store.load x.jobID =
        some (x.record .running a w) := Store.load_save_self s.store (x.record .running a w)
    have hmem : (s.apply x.jobID (.publish (x.record .running a w))).jobAttempts x.jobID =
        some a := Function.update_self _ _ _
    rw [hj] at hrow hmem ⊢
    refine ⟨hj, hx.spec, hx.hash, hp, (fun hn => by cases hn), fun b hb _ => ?_, trivial,
      fun _ => hx.live (hover h rfl), (fun ho => by cases ho), (fun _ hpc => by cases hpc)⟩
    cases hb
    exact ⟨hmem, _, hrow, rfl, rfl, (recoverySpecHash_eq _).trans hx.spec⟩
  | spawned h => exact hx.quiet hp (hover h rfl) rfl trivial rfl rfl rfl rfl rfl rfl
  | selected h => exact hx.quiet hp (hover h rfl) rfl trivial rfl rfl rfl rfl rfl rfl
  | retried h =>
    refine hx.quiet hp ?_ rfl trivial rfl rfl rfl rfl rfl rfl
    cases hpc : x.pc <;> simp_all [Pc.attempt, Pc.over]
  | answered h => exact hx.quiet hp (hover h rfl) rfl trivial rfl rfl rfl rfl rfl rfl
  | status_unknown h => exact hx.quiet hp (hover h rfl) rfl trivial rfl rfl rfl rfl rfl rfl
  | fenced h => exact hx.quiet hp (hover h rfl) rfl trivial rfl rfl rfl rfl rfl rfl
  | verified h => exact hx.quiet hp (hover h rfl) rfl trivial rfl rfl rfl rfl rfl rfl
  | accepted h => exact hx.quiet hp (hover h rfl) rfl trivial rfl rfl rfl rfl rfl rfl
  | @commit_fails att resp st applied h =>
    obtain rfl : applied = false := by simpa [Choice.atomic] using hat
    exact hx.quiet hp (hover h rfl) rfl trivial rfl rfl rfl rfl rfl rfl
  | @committed att resp st h =>
    simp only [Tracks, h] at ht
    have hpub := ht.1.current.published
    have hrow : (s.apply x.jobID (.save (x.record st att.attemptID att.worker) true)).store.load
        x.jobID = some (x.record st att.attemptID att.worker) :=
      Store.load_save_self s.store (x.record st att.attemptID att.worker)
    rw [hj] at hrow ⊢
    refine ⟨hj, hx.spec, hx.hash, hp, fun hn => ?_, (fun _ _ ho => by cases ho), trivial,
      (fun ho => by cases ho), fun _ row hr => ?_, fun _ _ _ _ => rfl⟩
    · exact absurd (hn.symm.trans hpub) (by simp)
    · rw [hr.1] at hrow
      cases hrow
      exact absurd hr.2 (ne_recovering_of_status ht.2.2.status)
  | retries_exhausted h => exact hx.quiet hp (hover h rfl) rfl trivial rfl rfl rfl rfl rfl rfl
  | no_workers h => exact hx.quiet hp (hover h rfl) rfl trivial rfl rfl rfl rfl rfl rfl
  | submit_exhausted h hsub => rw [hsub] at hsrc; cases hsrc
  | submit_failed h hsub => rw [hsub] at hsrc; cases hsrc
  | recovery_unpublished h => exact hx.ends hp (hover h rfl) fun ho => by cases ho
  | @recovery_published er a h _ hm hlt =>
    have hlast : x.lastPublished = some a := by
      cases hl : x.lastPublished with
      | none =>
        rw [← hm, (hu hl).memory (by simp [h, Pc.begun])] at hlt
        exact absurd hlt Int64.lt_irrefl
      | some b =>
        have hmem := (hx.published b hl (hover h rfl)).memory
        rw [← hj] at hmem
        rw [hmem] at hm
        exact congrArg some hm
    exact ⟨hj, hx.spec, hx.hash, hp, fun hn => absurd (hn.symm.trans hlast) (by simp),
      fun b hb _ => hx.published b hb (hover h rfl), ⟨hlast, rfl⟩, fun _ => hx.live (hover h rfl),
      (fun ho => by cases ho), (fun _ hpc => by cases hpc)⟩
  | repairLoad_fails h =>
    obtain ⟨hlast, -, hr⟩ := hx.row_of_repair h
    obtain ⟨row, hload, hst, -⟩ := hr.row
    exact hx.aborts hp (by simp [hlast]) hload hst
  | repairLoad_skipped h => exact hx.ends hp (hover h rfl) fun ho => by cases ho
  | repairLoaded h hr =>
    obtain ⟨hlast, hgen, hret⟩ := hx.row_of_repair h
    obtain ⟨row, hload, -, -, hhash⟩ := hret.row
    rw [← hj, hr.1] at hload
    cases hload
    exact hx.quiet hp (hover h rfl) rfl ⟨hgen.trans hr.2.2.symm, hhash⟩ rfl rfl rfl rfl rfl rfl
  | @repairSave_fails er row applied h =>
    obtain rfl : applied = false := by simpa [Choice.atomic] using hat
    simp only [Tracks, h] at ht
    have hload := ht.row
    rw [hj] at hload
    refine hx.aborts hp (fun hn => ?_) hload ht.running
    have hfin := (hu hn).finalizes
    simp [h, Pc.finalizes] at hfin
  | @repairSaved er row h =>
    simp only [Tracks, h] at ht
    have hrep := hx.repairing
    simp only [Repairing, h] at hrep
    obtain ⟨hterm, hfail⟩ := hx.live (hover h rfl)
    refine ⟨hj, hx.spec, hx.hash, hp, fun hn => ?_, (fun _ _ ho => by cases ho), trivial,
      (fun ho => by cases ho), fun _ row' hr => ?_, (fun _ hpc ho => by cases hpc; cases ho)⟩
    · have hfin := (hu hn).finalizes
      simp [h, Pc.finalizes] at hfin
    · have hid : row.jobID = x.jobID := Store.jobID_of_load ht.row
      have hself : (s.store.save { row with state := .recovering }).load row.jobID =
          some { row with state := .recovering } := Store.load_save_self _ { row with state := .recovering }
      have hload := hr.1
      rw [← hj, ← hid] at hload
      have heq : row' = { row with state := .recovering } :=
        Option.some.inj (hload.symm.trans hself)
      rw [heq]
      exact ⟨hrep.1.symm, (recoverySpecHash_congr rfl).trans hrep.2, hterm, hfail⟩
  | _ =>
    exfalso
    simp_all [Pc.submits]

/-- **Nobody else changes what a recovery knows.** -/
theorem Retrying.frame (h : Retrying isPrint s current x) (ha : Agree s s' x.jobID) :
    Retrying isPrint s' current x := by
  have hrow := ha.row
  have hmem := ha.memory
  rw [h.jobID] at hrow hmem
  have hback : ∀ {row}, RecoveringRow s' current.jobID row → RecoveringRow s current.jobID row :=
    fun hr => ⟨hrow ▸ hr.1, hr.2⟩
  refine ⟨h.jobID, h.spec, h.hash, h.progress, fun hn => ⟨(h.unpublished hn).1, fun row hr =>
    (h.unpublished hn).2 row (hback hr)⟩, fun a hp ho => ?_, h.repairing, h.live,
    fun ho row hr => h.leaves ho row (hback hr), h.ok⟩
  obtain ⟨h1, h2⟩ := h.published a hp ho
  exact ⟨hmem.trans h1, by rw [hrow]; exact h2⟩

/-- A recovery as it begins, of the record the store has. -/
theorem retrying_begins (hrow : ∀ row, RecoveringRow s current.jobID row → row = current) :
    Retrying isPrint s current (State.recoverySession isPrint current none) where
  jobID := rfl
  spec := (recoverySpecHash_eq current).symm
  hash := rfl
  progress := ⟨rfl, (fun hb => by cases hb), fun _ => rfl, fun _ => rfl⟩
  unpublished _ := ⟨rfl, hrow⟩
  published _ ha := by cases ha
  repairing := trivial
  live _ := ⟨rfl, rfl⟩
  leaves ho := by cases ho
  ok _ hpc := by cases hpc

end Coordinator

end ZkRuntime
