import ZkRuntime.Coordinator.Canonical
/-!
# Startup recovery

What `recoverRunningJobs` is for, record by record (`recoveredRow`), and
that its loop comes to it however often it is cut short: no `Save` of it,
in effect or not, and no crash changes what the store is to become, and
where the loop has come to its end the store has become it.
-/

namespace ZkRuntime

namespace Coordinator

variable {isPrint : ℕ → Bool} {s s' : State} {a : Action} {j : JobID}

/-- **What startup makes of a record**: a `Running` one with a valid
specification is to be recovered, under its canonical payload, and any
other is left. -/
def recoveredRow (row : JobRecord) : JobRecord :=
  if row.state = .running then
    match validateJobSpec (jobSpecFromRecord row) with
    | .ok spec => { row with state := .recovering, payload := spec.payload }
    | .error _ => row
  else row

/-- What startup makes of a store. -/
def recovered (st : Store) (j : JobID) : Option JobRecord := (st.load j).map recoveredRow

theorem recoveredRow_of_valid {row : JobRecord} {spec : JobSpec} (hst : row.state = .running)
    (hv : validateJobSpec (jobSpecFromRecord row) = .ok spec) :
    recoveredRow row = State.recoveringRow row spec := by
  simp [recoveredRow, hst, hv, State.recoveringRow]

theorem recoveredRow_of_state {row : JobRecord} (hst : row.state ≠ .running) :
    recoveredRow row = row := if_neg hst

/-- **Startup is idempotent**, record by record. -/
theorem recoveredRow_recoveredRow (row : JobRecord) :
    recoveredRow (recoveredRow row) = recoveredRow row := by
  by_cases hst : row.state = .running
  · cases hv : validateJobSpec (jobSpecFromRecord row) with
    | error e =>
      have heq : recoveredRow row = row := by simp [recoveredRow, hst, hv]
      rw [heq, heq]
    | ok spec =>
      rw [recoveredRow_of_valid hst hv]
      exact recoveredRow_of_state (by simp [State.recoveringRow])
  · rw [recoveredRow_of_state hst, recoveredRow_of_state hst]

/-! ## One step -/

/-- **No step of startup changes what the store is to become.** -/
theorem recovered_step (ht : Tracked s) (hm : Marking s) (hs : Steps isPrint s a s')
    (hp : s.phase ≠ .serving) (j : JobID) : recovered s'.store j = recovered s.store j := by
  have hchange := change_of_step ht hm hs j
  unfold recovered
  generalize s'.store.load j = new at hchange
  cases hchange with
  | same => rfl
  | wrote hx => exact absurd (ht.owned.serving hx) hp
  | marked hrow hst hv =>
    rw [hrow]
    simp only [Option.map_some]
    rw [← recoveredRow_of_valid hst hv, recoveredRow_recoveredRow]

/-- The `Running` records with a valid specification that the store still
has are the ones still to mark. -/
def Left (s : State) : Prop :=
  ∀ rows, s.phase = .marking rows → ∀ j row spec, s.store.load j = some row →
    row.state = .running → validateJobSpec (jobSpecFromRecord row) = .ok spec → row ∈ rows

theorem left_of_phase (h : ∀ rows, s.phase ≠ .marking rows) : Left s :=
  fun rows hr => absurd hr (h rows)

/-- **Every step keeps what is still to mark.** -/
theorem Left.step (ht : Tracked s) (h : Left s) (hs : Steps isPrint s a s') :
    Left s' := by
  cases hs with
  | tick d => exact h
  | stopped => exact left_of_phase (by simp [State.restart])
  | booted cfg => exact left_of_phase (by simp [State.restart])
  | checked fails hp => exact left_of_phase (by simp)
  | listed hp hperm =>
    intro rows hr j row spec hrow hst _
    simp only [Phase.marking.injEq] at hr
    subst hr
    have hid : row.jobID = j := Store.jobID_of_load hrow
    subst hid
    exact hperm.mem_iff.2 (Store.mem_listByState.2 ⟨hrow, hst⟩)
  | unmarked hp hv =>
    intro rows hr j row spec hrow hst hv'
    simp only [Phase.marking.injEq] at hr
    subst hr
    rcases List.mem_cons.1 (h _ hp j row spec hrow hst hv') with rfl | hmem
    · rw [hv] at hv'
      cases hv'
    · exact hmem
  | @marked row₀ rows₀ spec₀ hp hv =>
    intro rows hr j row spec hrow hst hv'
    simp only [Phase.marking.injEq] at hr
    subst hr
    have hrow' : (s.store.save (State.recoveringRow row₀ spec₀)).load j = some row := hrow
    by_cases hj : j = row₀.jobID
    · -- The record of that job has just been marked.
      subst hj
      have hself : (s.store.save (State.recoveringRow row₀ spec₀)).load row₀.jobID =
          some (State.recoveringRow row₀ spec₀) :=
        Store.load_save_self _ (State.recoveringRow row₀ spec₀)
      rw [hself] at hrow'
      cases hrow'
      cases hst
    · have hne : (s.store.save (State.recoveringRow row₀ spec₀)).load j = s.store.load j :=
        Store.load_save_of_ne hj
      rw [hne] at hrow'
      rcases List.mem_cons.1 (h _ hp j row spec hrow' hst hv') with rfl | hmem
      · exact absurd (Store.jobID_of_load hrow').symm hj
      · exact hmem
  | mark_fails hp => exact left_of_phase (by simp [State.restart])
  | served hp => exact left_of_phase (by simp)
  | registry r _ hp => exact left_of_phase (by simp [hp])
  | refused => exact h
  | submitted hp => exact left_of_phase (by simp [State.claim, hp])
  | recovered hp => exact left_of_phase (by simp [State.claim, hp])
  | cancelled hx => exact left_of_phase (by simp [ht.owned.serving hx])
  | delivered => exact h
  | session hx => exact left_of_phase (by simp [phase_advance, ht.owned.serving hx])

/-- **Where the loop has come to its end the store is what it was to become.** -/
theorem Left.recovered (h : Left s) (hp : s.phase = .marking []) (j : JobID) :
    s.store.load j = recovered s.store j := by
  unfold Coordinator.recovered
  cases hrow : s.store.load j with
  | none => rfl
  | some row =>
    simp only [Option.map_some, Option.some.injEq]
    by_cases hst : row.state = .running
    · cases hv : validateJobSpec (jobSpecFromRecord row) with
      | error e => simp [recoveredRow, hst, hv]
      | ok spec => cases h [] hp j row spec hrow hst hv
    · exact (recoveredRow_of_state hst).symm

/-! ## Over a run -/

theorem left (r : (coordinator isPrint).Run) (n : ℕ) : Left (r.state n) := by
  induction n with
  | zero =>
    have h0 : r.state 0 = (r.state 0).restart .down (r.state 0).config := r.start
    rw [h0]
    exact left_of_phase (by simp [State.restart])
  | succ n ih => exact ih.step (tracked r n) (steps_of_step (r.next n))

/-- From `m` to `n` no process serves. -/
def StartsUp (r : (coordinator isPrint).Run) (m n : ℕ) : Prop :=
  ∀ i, m ≤ i → i < n → (r.state i).phase ≠ .serving

theorem StartsUp.recovered_eq {r : (coordinator isPrint).Run} {m n : ℕ} (h : StartsUp r m n)
    (hmn : m ≤ n) (j : JobID) : recovered (r.state n).store j = recovered (r.state m).store j :=
  r.eq_of_le (f := fun s => recovered s.store j) hmn fun i hmi hin =>
    recovered_step (tracked r i) (marking r i) (steps_of_step (r.next i)) (h i hmi hin) j

/-- **Startup recovery is crash-idempotent.** However often `recoverRunningJobs`
is cut short on the way, by a `Save` that fails, in effect or not, or by a
crash at any point, once it has come to its end the store is what it makes
of the store it first met, which is what any other startup over that store
comes to, one that is not cut short among them; to repeat it changes
nothing; and what it makes of a `Running` record with a valid specification
is a `Recovering` one with the canonical payload and the rest as it was, and
of any other the record itself. -/
theorem startup_recovery (r : (coordinator isPrint).Run) (m n : ℕ) (hmn : m ≤ n)
    (h : StartsUp r m n) (hdone : (r.state n).phase = .marking []) :
    (∀ j, (r.state n).store.load j = recovered (r.state m).store j) ∧
    (∀ (r' : (coordinator isPrint).Run) (m' n' : ℕ), m' ≤ n' → StartsUp r' m' n' →
      (r'.state n').phase = .marking [] → (r'.state m').store = (r.state m).store →
      ∀ j, (r.state n).store.load j = (r'.state n').store.load j) ∧
    (∀ k, n ≤ k → StartsUp r n k → (r.state k).phase = .marking [] →
      ∀ j, (r.state k).store.load j = (r.state n).store.load j) ∧
    (∀ row spec, row.state = .running → validateJobSpec (jobSpecFromRecord row) = .ok spec →
      recoveredRow row = { row with state := .recovering, payload := spec.payload } ∧
        (jobSpecFromRecord (recoveredRow row)).Canonical) ∧
    ∀ row, (row.state ≠ .running ∨ ∃ e, validateJobSpec (jobSpecFromRecord row) = .error e) →
      recoveredRow row = row := by
  have hend : ∀ (r : (coordinator isPrint).Run) (m n : ℕ), m ≤ n → StartsUp r m n →
      (r.state n).phase = .marking [] →
      ∀ j, (r.state n).store.load j = recovered (r.state m).store j := by
    intro r m n hmn h hdone j
    exact ((left r n).recovered hdone j).trans (h.recovered_eq hmn j)
  refine ⟨hend r m n hmn h hdone, ?_, ?_, ?_, ?_⟩
  · intro r' m' n' hmn' h' hdone' hstore j
    rw [hend r m n hmn h hdone j, hend r' m' n' hmn' h' hdone' j, hstore]
  · intro k hnk hk hkdone j
    -- At its end a startup has nothing more to mark, so the store is its own outcome.
    rw [hend r n k hnk hk hkdone j, ← hend r n n le_rfl (fun i hi hin => by omega) hdone j]
  · intro row spec hst hv
    rw [recoveredRow_of_valid hst hv]
    exact ⟨rfl, canonical_recoveringRow hv⟩
  · intro row hrow
    rcases hrow with hst | ⟨e, hv⟩
    · exact recoveredRow_of_state hst
    · by_cases hst : row.state = .running
      · simp [recoveredRow, hst, hv]
      · exact recoveredRow_of_state hst

/-- A record a process has left `Running`. -/
def interruptedRow (j : JobID) (timeoutMs : Int64) : JobRecord :=
  ⟨j, .running, 3, exampleWorker.id, ascii "hash", ascii "abc", timeoutMs⟩

def interruptedStore : Store :=
  ⟨[interruptedRow 7 1000, interruptedRow 8 0, interruptedRow 9 1000], by decide⟩

/-- A startup that a `Save` in effect ends, and one that completes. -/
def interruptedScript : List Action :=
  [.boot ⟨false, none, 0⟩, .checkDisabledZK false, .listRunning (some interruptedStore.rows),
    .markRecovering (.saveFails true), .boot ⟨false, none, 0⟩, .checkDisabledZK false,
    .listRunning (some [interruptedRow 8 0, interruptedRow 9 1000]), .markRecovering .go,
    .markRecovering .go]

theorem plays_interruptedScript :
    (coordinator asciiPrint).plays (offline interruptedStore) interruptedScript = true := by
  decide +kernel

theorem startsUp_scripted {st : Store} {as : List Action}
    (h : (coordinator asciiPrint).plays (offline st) as = true)
    (hs : ((coordinator asciiPrint).trail (offline st) as).all
      (fun s => s.phase != .serving) = true) (m n : ℕ) : StartsUp (scripted st as h) m n := by
  intro i _ _
  have hi := List.all_eq_true.1 hs _ (System.play_mem_trail as (offline st) i)
  exact bne_iff_ne.1 hi

/-- Three `Running` records, the first marked by a `Save` that was reported to
fail, the second of no budget. -/
theorem startup_recovery_interrupted : ∃ r : (coordinator asciiPrint).Run,
    (r.state 1).store = interruptedStore ∧ (r.state 9).phase = .marking [] ∧
      ∀ j, (r.state 9).store.load j = recovered (r.state 1).store j := by
  have h : StartsUp (scripted _ _ plays_interruptedScript) 1 9 :=
    startsUp_scripted _ (by decide +kernel) 1 9
  have hdone : ((scripted _ _ plays_interruptedScript).state 9).phase = .marking [] := by
    decide +kernel
  exact ⟨_, rfl, hdone, (startup_recovery _ 1 9 (by omega) h hdone).1⟩

end Coordinator

end ZkRuntime
