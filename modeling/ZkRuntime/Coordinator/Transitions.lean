import ZkRuntime.Coordinator.Generations
/-!
# The transitions of a stored record

Six functions write records, some under `s.mu` and some only under
ownership. Whatever they do in whatever order, a row that changes either
becomes `Running` at a new generation, or stops being `Running` at the one
it had.
-/

namespace ZkRuntime

namespace Coordinator

/-- **A `Running` row is closed**: it takes a final state, or is handed to
recovery, and keeps what identifies it. -/
structure Closes (old new : JobRecord) : Prop where
  running : old.state = .running
  closed : new.state = .succeeded ∨ new.state = .failed ∨ new.state = .cancelled ∨
    new.state = .recovering
  jobID : new.jobID = old.jobID
  attemptID : new.attemptID = old.attemptID
  workerID : new.workerID = old.workerID
  taskType : new.taskType = old.taskType
  timeoutMs : new.timeoutMs = old.timeoutMs

variable {isPrint : ℕ → Bool} (r : (coordinator isPrint).Run)

/-- The step `n` is a `Save` of `publishAttempt`, of the record `new`. -/
def PublishSaveAt (n : ℕ) (new : JobRecord) : Prop :=
  ∃ sid x c m w, TakesAt r n sid x c m ∧ x.pc = .publishSave w new.attemptID ∧
    new = x.record .running new.attemptID w

/-- The payload is as it was, or startup made it canonical. -/
def PayloadKept (n : ℕ) (old new : JobRecord) : Prop :=
  new.payload = old.payload ∨ ∃ c spec, r.act n = .markRecovering c ∧
    validateJobSpec (jobSpecFromRecord old) = .ok spec ∧ new.payload = spec.payload

/-- The step `n` closes the row of `j`. -/
def ClosesAt (n : ℕ) (j : JobID) : Prop :=
  ∃ old new, (r.state n).store.load j = some old ∧ (r.state (n + 1)).store.load j = some new ∧
    Closes old new ∧ PayloadKept r n old new

/-- What the step `n` may do to the row of `j`: nothing, a publication of
the next generation, or a closing. -/
def RowStep (n : ℕ) (j : JobID) : Prop :=
  (r.state (n + 1)).store.load j = (r.state n).store.load j ∨
  (∃ new, (r.state (n + 1)).store.load j = some new ∧ PublishSaveAt r n new ∧
    new.state = .running ∧
    new.attemptID = nextAttempt ((r.state n).jobAttempts j) ((r.state n).store.load j)) ∨
  ClosesAt r n j

/-- **The law of a row**: a publication is one of a greater generation. -/
def RowLaw (n : ℕ) (j : JobID) : Prop :=
  (r.state (n + 1)).store.load j = (r.state n).store.load j ∨
  (∃ new, (r.state (n + 1)).store.load j = some new ∧ PublishSaveAt r n new ∧
    new.state = .running ∧ stored (r.state n) j < new.attemptID) ∨
  ClosesAt r n j

/-- The places at which a session closes an attempt without a result: the
`Save` of failure, of cancellation and of repair. -/
def Finalizes (x : Session) : Prop :=
  (∃ a f row, x.pc = .failSave a f row) ∨ (∃ e row, x.pc = .cancelSave e row) ∨
    ∃ e row, x.pc = .repairSave e row

variable {r} {n : ℕ} {j : JobID}

/-- A session's write publishes or closes. -/
theorem rowStep_of_writes {s : State} {x : Session} {row : JobRecord} (hw : Writes s x row) :
    (∃ w, x.pc = .publishSave w row.attemptID ∧ row = x.record .running row.attemptID w ∧
      row.attemptID = nextAttempt (s.jobAttempts x.jobID) (s.store.load x.jobID)) ∨
    ∃ old, s.store.load x.jobID = some old ∧ Closes old row ∧ row.payload = old.payload := by
  cases hw with
  | publish h ha => exact .inl ⟨_, h, rfl, ha⟩
  | commit h hf hr =>
    refine .inr ⟨_, hf.current.row, ⟨rfl, ?_, rfl, rfl, rfl, rfl, rfl⟩, rfl⟩
    rcases terminal_of_status hr.status with h | h | h
    · exact .inl h
    · exact .inr (.inl h)
    · exact .inr (.inr (.inl h))
  | close hr hst =>
    exact .inr ⟨_, hr.row, ⟨hr.running, .inr hst, rfl, rfl, rfl, rfl, rfl⟩, rfl⟩

theorem rowStep (r : (coordinator isPrint).Run) (n : ℕ) (j : JobID) : RowStep r n j := by
  have hch := change r n j
  generalize hnew : (r.state (n + 1)).store.load j = new at hch
  unfold RowStep ClosesAt
  rw [hnew]
  generalize hact : r.act n = act at hch
  cases hch with
  | same => exact .inl rfl
  | @wrote sid c x row hx hj hw =>
    obtain ⟨x', m, ht⟩ := takesAt_of_act r hact
    have hxx : x' = x := by
      have h1 := ht.took.live
      rw [hx] at h1
      exact (Option.some.inj h1).symm
    subst hxx hj
    rcases rowStep_of_writes hw with ⟨w, hpc, hrow, ha⟩ | ⟨old, hold, hcl, hp⟩
    · exact .inr (.inl ⟨row, rfl, ⟨sid, x', c, m, w, ht, hpc, hrow⟩, by rw [hrow]; rfl, ha⟩)
    · exact .inr (.inr ⟨old, row, hold, rfl, hcl, .inl hp⟩)
  | marked hrow hst hv =>
    exact .inr (.inr ⟨_, _, hrow, rfl, ⟨hst, .inr (.inr (.inr rfl)), rfl, rfl, rfl, rfl, rfl⟩,
      .inr ⟨_, _, hact, hv, rfl⟩⟩)

theorem rowLaw (hc : ClearRun r) : RowLaw r n j := by
  rcases rowStep r n j with h | ⟨new, h1, h2, h3, h4⟩ | h
  · exact .inl h
  · refine .inr (.inl ⟨new, h1, h2, h3, ?_⟩)
    rw [h4]
    exact (nextAttempt_gt (hc n) (behind r hc n) j).1
  · exact .inr (.inr h)

/-- **The transitions of a stored record.** Every change of a row is a
publication of the next generation or the closing of a `Running` row, so a
row that is not `Running` is only ever replaced by a publication, and a
finalization replaces only a `Running` row. While the store stays clear of
the last 64-bit integer, what is published is greater than what it
replaces. -/
theorem transitions (r : (coordinator isPrint).Run) (n : ℕ) (j : JobID) :
    RowStep r n j ∧ (ClearRun r → RowLaw r n j) ∧
    (∀ old, (r.state n).store.load j = some old → old.state ≠ .running →
      (r.state (n + 1)).store.load j = some old ∨
        ∃ new, (r.state (n + 1)).store.load j = some new ∧ PublishSaveAt r n new ∧
          (ClearRun r → old.attemptID < new.attemptID)) ∧
    ∀ sid x c m, TakesAt r n sid x c m → Finalizes x →
      ∃ old, (r.state n).store.load x.jobID = some old ∧ old.state = .running := by
  refine ⟨rowStep r n j, rowLaw, fun old hold hst => ?_, fun sid x c m ht hf => ?_⟩
  · rcases rowStep r n j with h | ⟨new, h1, h2, -, h3⟩ | ⟨old', new, h1, -, h2, -⟩
    · exact .inl (h.trans hold)
    · refine .inr ⟨new, h1, h2, fun hc => ?_⟩
      have hgt := (nextAttempt_gt (hc n) (behind r hc n) j).1
      rw [← h3] at hgt
      simpa [stored, hold] using hgt
    · rw [hold] at h1
      cases h1
      exact absurd h2.running hst
  · have htr := (tracked r n).tracks ht.took.live
    rcases hf with ⟨a, f, row, hpc⟩ | ⟨e, row, hpc⟩ | ⟨e, row, hpc⟩
    · simp only [Tracks, hpc] at htr
      exact ⟨row, htr.1.row, htr.1.running⟩
    · simp only [Tracks, hpc] at htr
      exact ⟨row, htr.row, htr.running⟩
    · simp only [Tracks, hpc] at htr
      exact ⟨row, htr.row, htr.running⟩

/-- The first publication of a job is such a change. -/
theorem transitions_retry :
    ∃ r : (coordinator asciiPrint).Run, ClearRun r ∧ (r.state 11).store.load 7 = none ∧
      (r.state 12).store.load 7 ≠ none ∧ RowLaw r 11 7 := by
  have hc : ClearRun (scripted .empty retryScript plays_retryScript) :=
    clearRun_scripted _ (by decide +kernel)
  refine ⟨_, hc, ?_, ?_, (transitions _ 11 7).2.1 hc⟩
  · show ((coordinator asciiPrint).play (offline .empty) retryScript 11).store.load 7 = none
    decide +kernel
  · show ((coordinator asciiPrint).play (offline .empty) retryScript 12).store.load 7 ≠ none
    decide +kernel

/-! ## The last generation

A stored generation may be any 64-bit integer, and `publishAttempt` adds
one to it. Behind the last one comes the least. -/

/-- A job that has used the last generation. -/
def lastRow : JobRecord := ⟨7, .succeeded, Int64.maxValue, ascii "v", ascii "hash", ascii "abc", 1000⟩

def lastStore : Store := ⟨[lastRow], by simp⟩

/-- The job is submitted once more, up to its publication. -/
def wrapScript : List Action :=
  startup ++ [.submit exampleRequest none] ++ List.replicate 6 (.session 0 .go)

theorem plays_wrapScript :
    (coordinator asciiPrint).plays (offline lastStore) wrapScript = true := by decide +kernel

/-- **Without the condition the law fails**: the row of the last generation
is replaced by one of the least. -/
theorem transitions_wrap : ¬ ∀ (r : (coordinator asciiPrint).Run) (n : ℕ) (j : JobID),
    RowLaw r n j := by
  intro h
  have hlaw := h (scripted lastStore wrapScript plays_wrapScript) 11 7
  have hold : ((scripted lastStore wrapScript plays_wrapScript).state 11).store.load 7 =
      some lastRow := by
    show ((coordinator asciiPrint).play (offline lastStore) wrapScript 11).store.load 7 = some lastRow
    decide +kernel
  have hnew : ((scripted lastStore wrapScript plays_wrapScript).state 12).store.load 7 =
      some ⟨7, .running, Int64.minValue, ascii "w", ascii "hash", ascii "abc", 1000⟩ := by
    show ((coordinator asciiPrint).play (offline lastStore) wrapScript 12).store.load 7 =
      some ⟨7, .running, Int64.minValue, ascii "w", ascii "hash", ascii "abc", 1000⟩
    decide +kernel
  rcases hlaw with heq | ⟨new, h1, -, -, hgt⟩ | ⟨old, new, h1, -, hcl, -⟩
  · rw [hold, hnew] at heq
    exact absurd heq (by decide)
  · rw [hnew] at h1
    cases h1
    rw [stored, hold] at hgt
    exact absurd hgt (by decide)
  · rw [hold] at h1
    cases h1
    exact absurd hcl.running (by decide)

end Coordinator

end ZkRuntime
