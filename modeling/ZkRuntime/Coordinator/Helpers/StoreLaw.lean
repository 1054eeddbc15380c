import ZkRuntime.Coordinator.Helpers.Tracking
/-!
# What a step does to a row

A row changes by a write of the session that owns its job, or by the
marking of `recoverRunningJobs` before there are sessions. While the store
stays clear of the last 64-bit generation, a write never lowers a stored
generation, and the memory never runs ahead of the store.
-/

namespace ZkRuntime

namespace Coordinator

variable {isPrint : ℕ → Bool} {s s' : State} {x : Session} {a : Action} {j : JobID}

/-! ## Startup -/

/-- The rows still to mark are the stored ones, one a job. -/
def Marking (s : State) : Prop :=
  ∀ rows, s.phase = .marking rows → (rows.map JobRecord.jobID).Nodup ∧
    ∀ row ∈ rows, s.store.load row.jobID = some row ∧ row.state = .running

theorem marking_of_phase (h : ∀ rows, s.phase ≠ .marking rows) : Marking s :=
  fun rows hr => absurd hr (h rows)

theorem marking_listed {rows : List JobRecord} (hp : rows.Perm (s.store.listByState .running)) :
    Marking { s with phase := .marking rows } := by
  intro rows' hr
  simp only [Phase.marking.injEq] at hr
  subst hr
  refine ⟨?_, fun row hrow => Store.mem_listByState.1 (hp.mem_iff.1 hrow)⟩
  have hnd : ((s.store.listByState .running).map JobRecord.jobID).Nodup :=
    s.store.nodup.sublist (List.filter_sublist.map _)
  exact ((hp.map JobRecord.jobID).nodup_iff).2 hnd

/-- The row that has been marked is not met again. -/
theorem Marking.tail {row : JobRecord} {rows : List JobRecord} {st : Store} (h : Marking s)
    (hp : s.phase = .marking (row :: rows))
    (hst : ∀ k, k ≠ row.jobID → st.load k = s.store.load k) :
    Marking { s with store := st, phase := .marking rows } := by
  intro rows' hr
  simp only [Phase.marking.injEq] at hr
  subst hr
  obtain ⟨hnd, hrows⟩ := h _ hp
  rw [List.map_cons, List.nodup_cons] at hnd
  refine ⟨hnd.2, fun row' hrow' => ?_⟩
  have hne : row'.jobID ≠ row.jobID := fun heq => hnd.1 (heq ▸ List.mem_map_of_mem hrow')
  obtain ⟨h1, h2⟩ := hrows row' (List.mem_cons_of_mem _ hrow')
  exact ⟨by rw [← h1]; exact hst _ hne, h2⟩

/-- **Every step keeps what startup knows.** -/
theorem Marking.step (ht : Tracked s) (h : Marking s) (hs : Steps isPrint s a s') : Marking s' := by
  cases hs with
  | tick d => exact h
  | stopped => exact marking_of_phase (by simp [State.restart])
  | booted cfg => exact marking_of_phase (by simp [State.restart])
  | checked fails hp => exact marking_of_phase (by simp)
  | listed hp hperm => exact marking_listed hperm
  | unmarked hp hv => exact h.tail hp fun _ _ => rfl
  | marked hp hv => exact h.tail hp fun k hk => Store.load_save_of_ne hk
  | mark_fails hp => exact marking_of_phase (by simp [State.restart])
  | served hp => exact marking_of_phase (by simp)
  | registry r _ hp => exact marking_of_phase (by simp [hp])
  | refused => exact h
  | submitted hp => exact marking_of_phase (by simp [State.claim, hp])
  | recovered hp => exact marking_of_phase (by simp [State.claim, hp])
  | cancelled hx => exact marking_of_phase (by simp [ht.owned.serving hx])
  | delivered => exact h
  | session hx => exact marking_of_phase (by simp [phase_advance, ht.owned.serving hx])

/-! ## One row, one step -/

/-- **How a row may change**: not at all, by its owner, or by startup. -/
inductive Change (s : State) (j : JobID) : Action → Option JobRecord → Prop
  | same {a : Action} : Change s j a (s.store.load j)
  | wrote {sid : SessionID} {c : Choice} {x : Session} {r : JobRecord}
      (hx : s.sessions sid = some x) (hj : x.jobID = j) (hw : Writes s x r) :
      Change s j (.session sid c) (some r)
  | marked {c : Choice} {row : JobRecord} {spec : JobSpec} (hrow : s.store.load j = some row)
      (hst : row.state = .running) (hv : validateJobSpec (jobSpecFromRecord row) = .ok spec) :
      Change s j (.markRecovering c) (some (State.recoveringRow row spec))

theorem change_marked {c : Choice} {row : JobRecord} {rows : List JobRecord} {spec : JobSpec}
    (hm : Marking s) (hp : s.phase = .marking (row :: rows))
    (hv : validateJobSpec (jobSpecFromRecord row) = .ok spec) :
    Change s j (.markRecovering c) ((s.store.save (State.recoveringRow row spec)).load j) := by
  obtain ⟨h1, h2⟩ := (hm _ hp).2 row (by simp)
  by_cases hj : j = row.jobID
  · subst hj
    have hself : (s.store.save (State.recoveringRow row spec)).load row.jobID =
        some (State.recoveringRow row spec) := Store.load_save_self _ (State.recoveringRow row spec)
    rw [hself]
    exact .marked h1 h2 hv
  · have hne : (s.store.save (State.recoveringRow row spec)).load j = s.store.load j :=
      Store.load_save_of_ne hj
    rw [hne]
    exact .same

/-- **Every step changes a row so.** -/
theorem change_of_step (ht : Tracked s) (hm : Marking s) (hs : Steps isPrint s a s') (j : JobID) :
    Change s j a (s'.store.load j) := by
  cases hs with
  | marked hp hv => exact change_marked hm hp hv
  | mark_fails hp hv => exact change_marked hm hp hv
  | session hx hmu hmv =>
    rename_i sid c x m
    have hmoves := moves_of_move hmv
    have hload : (s.advance sid x m).store.load j = (s.apply x.jobID m.effect).store.load j := rfl
    rw [hload]
    rcases load_apply (s := s) (e := m.effect) (j := x.jobID) (k := j) with h | ⟨r, he, rfl, h⟩
    · rw [h]; exact .same
    · rw [h]
      have hw := hmoves.writes (ht.tracks hx) he
      exact .wrote hx hw.jobID_eq.symm hw
  | _ => exact .same

/-! ## Generations -/

/-- The generation stored for a job; zero where there is no row, as
`publishAttempt` takes it. -/
def stored (s : State) (j : JobID) : AttemptID := ((s.store.load j).map JobRecord.attemptID).getD 0

/-- The store is clear of the last generation. -/
def Clear (s : State) : Prop :=
  ∀ j row, s.store.load j = some row → row.attemptID ≠ Int64.maxValue

/-- The memory has positive generations, and does not run ahead of the
store. -/
def Behind (s : State) : Prop :=
  ∀ j a, s.jobAttempts j = some a → 0 < a ∧ ∃ row, s.store.load j = some row ∧ a ≤ row.attemptID

theorem lt_add_one_of_ne_maxValue {n : Int64} (h : n ≠ Int64.maxValue) : n < n + 1 := by
  rw [Int64.lt_iff_toInt_lt, Int64.toInt_add]
  have h1 : n.toInt ≠ Int64.maxValue.toInt := fun heq => h (Int64.toInt_inj.1 heq)
  have h2 := n.toInt_le
  have h3 := n.le_toInt
  have h4 : Int64.maxValue.toInt = 9223372036854775807 := by decide
  have h5 : Int64.minValue.toInt = -9223372036854775808 := by decide
  have h6 : (1 : Int64).toInt = 1 := by decide
  rw [h6, Int.bmod_eq_of_le (by omega) (by omega)]
  omega

theorem stored_ne_maxValue (hc : Clear s) : stored s j ≠ Int64.maxValue := by
  unfold stored
  cases hl : s.store.load j with
  | none => simp only [Option.map_none, Option.getD_none]; decide
  | some row => simpa using hc j row hl

/-- What the memory has is zero, or at most what is stored. -/
theorem Behind.memory (hb : Behind s) : 0 ≤ (s.jobAttempts j).getD 0 ∧
    ((s.jobAttempts j).getD 0 = 0 ∨ (s.jobAttempts j).getD 0 ≤ stored s j) := by
  cases hj : s.jobAttempts j with
  | none => exact ⟨by simp only [Option.getD_none]; decide, .inl rfl⟩
  | some a =>
    obtain ⟨hpos, row, hl, hle⟩ := hb j a hj
    refine ⟨Int64.le_of_lt hpos, .inr ?_⟩
    simpa [stored, hl] using hle

/-- **A new generation is above the stored one, the one in memory, and
zero.** -/
theorem nextAttempt_gt (hc : Clear s) (hb : Behind s) (j : JobID) :
    stored s j < nextAttempt (s.jobAttempts j) (s.store.load j) ∧
      (s.jobAttempts j).getD 0 < nextAttempt (s.jobAttempts j) (s.store.load j) ∧
      0 < nextAttempt (s.jobAttempts j) (s.store.load j) := by
  obtain ⟨h0, hm⟩ := hb.memory (j := j)
  have hp := stored_ne_maxValue hc (j := j)
  have hnext : nextAttempt (s.jobAttempts j) (s.store.load j) =
      (if (s.jobAttempts j).getD 0 < stored s j then stored s j else (s.jobAttempts j).getD 0) + 1 :=
    rfl
  rw [hnext]
  split
  · rename_i hlt
    have hgt := lt_add_one_of_ne_maxValue hp
    exact ⟨hgt, Int64.lt_trans hlt hgt, Int64.lt_trans (Int64.lt_of_le_of_lt h0 hlt) hgt⟩
  · rename_i hge
    have hne : (s.jobAttempts j).getD 0 ≠ Int64.maxValue := by
      rcases hm with hm | hm
      · rw [hm]; decide
      · rwa [Int64.le_antisymm hm (Int64.not_lt.1 hge)]
    have hgt := lt_add_one_of_ne_maxValue hne
    exact ⟨Int64.lt_of_le_of_lt (Int64.not_lt.1 hge) hgt, hgt, Int64.lt_of_le_of_lt h0 hgt⟩

/-- **A row does not go, and its generation does not fall.** -/
theorem Change.mono {new : Option JobRecord} {row : JobRecord} (h : Change s j a new)
    (hc : Clear s) (hb : Behind s) (hrow : s.store.load j = some row) :
    ∃ row', new = some row' ∧ row.attemptID ≤ row'.attemptID := by
  cases h with
  | same => exact ⟨row, hrow, Int64.le_refl _⟩
  | marked hrow' =>
    rw [hrow] at hrow'
    cases hrow'
    exact ⟨_, rfl, Int64.le_refl _⟩
  | @wrote sid c x r hx hj hw =>
    subst hj
    refine ⟨_, rfl, ?_⟩
    cases hw with
    | publish h ha =>
      have hst : stored s x.jobID = row.attemptID := by simp [stored, hrow]
      have hgt := (nextAttempt_gt hc hb x.jobID).1
      rw [hst, ← ha] at hgt
      exact Int64.le_of_lt hgt
    | commit h hf =>
      have hrow' := hf.current.row
      rw [hrow] at hrow'
      cases hrow'
      exact Int64.le_refl _
    | close hr =>
      have hrow' := hr.row
      rw [hrow] at hrow'
      cases hrow'
      exact Int64.le_refl _

/-- The generation in memory changes with a publication only. -/
theorem memory_of_step (hs : Steps isPrint s a s') {n : AttemptID}
    (hn : s'.jobAttempts j = some n) :
    s.jobAttempts j = some n ∨ ∃ sid x w, a = .session sid .go ∧ s.sessions sid = some x ∧
      x.pc = .publishSave w n ∧ x.jobID = j ∧
      s'.store.load j = some (x.record .running n w) := by
  cases hs with
  | stopped => simp [State.restart] at hn
  | booted cfg => simp [State.restart] at hn
  | mark_fails hp => simp [State.restart] at hn
  | session hx hmu hmv =>
    rename_i sid c x m
    have hmoves := moves_of_move hmv
    obtain ⟨effect, events, next⟩ := m
    dsimp only at hmoves
    have hn' : (s.apply x.jobID effect).jobAttempts j = some n := hn
    cases hmoves with
    | published h =>
      rename_i w b
      by_cases hj : j = x.jobID
      · subst hj
        simp only [State.apply, Function.update_self, Option.some.injEq] at hn'
        have hb : b = n := hn'
        subst hb
        exact .inr ⟨sid, x, w, rfl, hx, h, rfl, Store.load_save_self _ (x.record .running b w)⟩
      · simp only [State.apply, Function.update_of_ne hj] at hn'
        exact .inl hn'
    | publishSave_fails => left; simp only [State.apply] at hn'; split at hn' <;> exact hn'
    | commit_fails => left; simp only [State.apply] at hn'; split at hn' <;> exact hn'
    | failSave_fails => left; simp only [State.apply] at hn'; split at hn' <;> exact hn'
    | cancelSave_fails => left; simp only [State.apply] at hn'; split at hn' <;> exact hn'
    | repairSave_fails => left; simp only [State.apply] at hn'; split at hn' <;> exact hn'
    | _ => exact .inl hn'
  | _ => exact .inl hn

/-- **The memory stays behind the store.** -/
theorem Behind.step (ht : Tracked s) (hm : Marking s) (hc : Clear s) (hb : Behind s)
    (hs : Steps isPrint s a s') : Behind s' := by
  intro j n hn
  rcases memory_of_step hs hn with hold | ⟨sid, x, w, -, hx, hpc, hj, hrow⟩
  · obtain ⟨hpos, row, hrow, hle⟩ := hb j n hold
    obtain ⟨row', hrow', hle'⟩ := (change_of_step ht hm hs j).mono hc hb hrow
    exact ⟨hpos, row', hrow', Int64.le_trans hle hle'⟩
  · have htr := ht.tracks hx
    simp only [Tracks, hpc] at htr
    refine ⟨?_, _, hrow, Int64.le_refl _⟩
    rw [htr]
    exact (nextAttempt_gt hc hb _).2.2

/-! ## Over a run -/

/-- In every state of a run, startup knows the rows it has to mark. -/
theorem marking (r : (coordinator isPrint).Run) (n : ℕ) : Marking (r.state n) := by
  induction n with
  | zero =>
    have h0 : r.state 0 = (r.state 0).restart .down (r.state 0).config := r.start
    rw [h0]
    exact marking_of_phase (by simp [State.restart])
  | succ n ih => exact ih.step (tracked r n) (steps_of_step (r.next n))

/-- **Every step of a run changes a row by its owner or by startup.** -/
theorem change (r : (coordinator isPrint).Run) (n : ℕ) (j : JobID) :
    Change (r.state n) j (r.act n) ((r.state (n + 1)).store.load j) :=
  change_of_step (tracked r n) (marking r n) (steps_of_step (r.next n)) j

/-- No generation of the run reaches the last 64-bit integer. -/
def ClearRun (r : (coordinator isPrint).Run) : Prop := ∀ n, Clear (r.state n)

theorem behind (r : (coordinator isPrint).Run) (hc : ClearRun r) (n : ℕ) : Behind (r.state n) := by
  induction n with
  | zero =>
    have h0 : r.state 0 = (r.state 0).restart .down (r.state 0).config := r.start
    rw [h0]
    intro j a ha
    simp [State.restart] at ha
  | succ n ih => exact ih.step (tracked r n) (marking r n) (hc n) (steps_of_step (r.next n))

/-- **Stored generations do not fall over a run.** -/
theorem stored_mono (r : (coordinator isPrint).Run) (hc : ClearRun r) {m n : ℕ} (hmn : m ≤ n)
    {row : JobRecord} (hrow : (r.state m).store.load j = some row) :
    ∃ row', (r.state n).store.load j = some row' ∧ row.attemptID ≤ row'.attemptID := by
  induction n with
  | zero =>
    obtain rfl : m = 0 := by omega
    exact ⟨row, hrow, Int64.le_refl _⟩
  | succ n ih =>
    rcases Nat.lt_or_ge n m with hlt | hge
    · obtain rfl : m = n + 1 := by omega
      exact ⟨row, hrow, Int64.le_refl _⟩
    · obtain ⟨row', hrow', hle⟩ := ih hge
      obtain ⟨row'', hrow'', hle'⟩ := (change r n j).mono (hc n) (behind r hc n) hrow'
      exact ⟨row'', hrow'', Int64.le_trans hle hle'⟩

end Coordinator

end ZkRuntime
