import ZkRuntime.Coordinator.Helpers.Spec
import ZkRuntime.Coordinator.Helpers.Steps
/-!
# Ownership and the lock

At most one session lives on a job, `activeJobs` is the set of the jobs
with one, sessions live only while a process serves, and `s.mu` is held
between two steps exactly by the session inside a section.
-/

namespace ZkRuntime

namespace Coordinator

variable {isPrint : ℕ → Bool} {s s' : State} {x x' : Session} {c : Choice} {e : Effect}

/-- **A session stays on its job.** -/
theorem Moves.jobID_eq (h : Moves isPrint s x c e (some x')) : x'.jobID = x.jobID := by
  cases h with
  | reload_current _ hr => exact Store.jobID_of_load hr
  | entered _ _ hv => exact jobID_of_validateJobSpec hv
  | _ => rfl

theorem Moves.source_eq (h : Moves isPrint s x c e (some x')) : x'.source = x.source := by
  cases h <;> rfl

/-- A section that holds the lock between its steps began by taking it. -/
theorem Moves.usesMu_of_holdsMu (h : Moves isPrint s x c e (some x')) (hx : x'.holdsMu = true) :
    x.usesMu = true := by
  cases h with
  | publishLoaded h => simp [Session.usesMu, h]
  | accepted h => simp [Session.usesMu, h]
  | failLoaded h => simp [Session.usesMu, h]
  | failChecked h => simp [Session.usesMu, Session.holdsMu, h]
  | cancelLoaded h => simp [Session.usesMu, h]
  | _ => simp [Session.holdsMu, Session.goto, Session.retry, Session.repairAborted] at hx

theorem usesMu_of_holdsMu (h : x.holdsMu = true) : x.usesMu = true := by
  unfold Session.usesMu
  split <;> simp_all [Session.holdsMu]

/-- **Ownership.** -/
structure Owned (s : State) : Prop where
  /-- The numbers of live sessions have been given out. -/
  fresh : ∀ {sid x}, s.sessions sid = some x → sid < s.nextSession
  /-- One session a job. -/
  unique : ∀ {i j x y}, s.sessions i = some x → s.sessions j = some y → x.jobID = y.jobID → i = j
  /-- `activeJobs` is the set of the jobs that have one. -/
  active : ∀ j, j ∈ s.activeJobs ↔ ∃ sid x, s.sessions sid = some x ∧ x.jobID = j
  serving : ∀ {sid x}, s.sessions sid = some x → s.phase = .serving
  holds : ∀ {sid x}, s.sessions sid = some x → x.holdsMu = true → s.mu = some sid
  held : ∀ {sid}, s.mu = some sid → ∃ x, s.sessions sid = some x ∧ x.holdsMu = true

/-- A process with nothing in memory. -/
theorem owned_restart (s : State) (p : Phase) (cfg : Config) : Owned (s.restart p cfg) where
  fresh h := by simp [State.restart] at h
  unique h := by simp [State.restart] at h
  active j := by simp [State.restart]
  serving h := by simp [State.restart] at h
  holds h := by simp [State.restart] at h
  held h := by simp [State.restart] at h

/-- What ownership reads of a state. -/
theorem Owned.congr (h : Owned s) (h1 : s'.sessions = s.sessions) (h2 : s'.nextSession = s.nextSession)
    (h3 : s'.activeJobs = s.activeJobs) (h4 : s'.phase = s.phase) (h5 : s'.mu = s.mu) : Owned s' where
  fresh hx := by rw [h2]; exact h.fresh (h1 ▸ hx)
  unique hx hy := h.unique (h1 ▸ hx) (h1 ▸ hy)
  active j := by rw [h3, h1]; exact h.active j
  serving hx := by rw [h4]; exact h.serving (h1 ▸ hx)
  holds hx := by rw [h5]; exact h.holds (h1 ▸ hx)
  held hm := by rw [h1]; exact h.held (h5 ▸ hm)

/-- A process that does not serve yet has no session, so its phase may
change. -/
theorem Owned.phase (h : Owned s) (hp : s.phase ≠ .serving) (p : Phase) (st : Store) :
    Owned { s with store := st, phase := p } where
  fresh hx := h.fresh hx
  unique hx hy := h.unique hx hy
  active j := h.active j
  serving hx := absurd (h.serving hx) hp
  holds hx := h.holds hx
  held hm := h.held hm

/-- **A claim makes an owner.** -/
theorem Owned.claim (h : Owned s) (hp : s.phase = .serving) (hj : x.jobID ∉ s.activeJobs)
    (hmu : x.holdsMu = false) : Owned (s.claim x) := by
  have hne : ∀ {i y}, s.sessions i = some y → i ≠ s.nextSession := fun hy =>
    Nat.ne_of_lt (h.fresh hy)
  have hcase : ∀ {i y}, (s.claim x).sessions i = some y →
      (i = s.nextSession ∧ y = x) ∨ (i ≠ s.nextSession ∧ s.sessions i = some y) := by
    intro i y hy
    by_cases hi : i = s.nextSession
    · subst hi
      simp only [State.claim, Function.update_self, Option.some.injEq] at hy
      exact .inl ⟨rfl, hy.symm⟩
    · rw [State.claim] at hy
      simp only [Function.update_of_ne hi] at hy
      exact .inr ⟨hi, hy⟩
  have hother : ∀ {i y}, s.sessions i = some y → y.jobID ≠ x.jobID := fun {i y} hy heq =>
    hj ((h.active x.jobID).2 ⟨i, y, hy, heq⟩)
  refine ⟨fun hy => ?_, fun hy hz hjob => ?_, fun j => ?_, fun _ => hp, fun hy hyh => ?_, fun hm => ?_⟩
  · rcases hcase hy with ⟨rfl, -⟩ | ⟨-, hy'⟩
    · simp [State.claim]
    · exact Nat.lt_succ_of_lt (h.fresh hy')
  · rcases hcase hy with ⟨rfl, rfl⟩ | ⟨-, hy'⟩ <;> rcases hcase hz with ⟨rfl, rfl⟩ | ⟨-, hz'⟩
    · rfl
    · exact absurd hjob.symm (hother hz')
    · exact absurd hjob (hother hy')
    · exact h.unique hy' hz' hjob
  · constructor
    · intro hmem
      rcases Finset.mem_insert.1 hmem with rfl | hmem'
      · exact ⟨s.nextSession, x, by simp [State.claim], rfl⟩
      · obtain ⟨i, y, hy, hyj⟩ := (h.active j).1 hmem'
        exact ⟨i, y, by rw [State.claim]; simp only [Function.update_of_ne (hne hy)]; exact hy, hyj⟩
    · rintro ⟨i, y, hy, rfl⟩
      rcases hcase hy with ⟨-, rfl⟩ | ⟨-, hy'⟩
      · exact Finset.mem_insert_self _ _
      · exact Finset.mem_insert_of_mem ((h.active _).2 ⟨i, y, hy', rfl⟩)
  · rcases hcase hy with ⟨rfl, rfl⟩ | ⟨-, hy'⟩
    · simp [hmu] at hyh
    · exact h.holds hy' hyh
  · obtain ⟨y, hy, hyh⟩ := h.held hm
    exact ⟨y, by rw [State.claim]; simp only [Function.update_of_ne (hne hy)]; exact hy, hyh⟩

/-- A session's context ends: nothing ownership reads. -/
theorem Owned.cancel (h : Owned s) {sid : SessionID} (hx : s.sessions sid = some x)
    (hj : x'.jobID = x.jobID) (hh : x'.holdsMu = x.holdsMu) :
    Owned { s with sessions := Function.update s.sessions sid (some x') } := by
  have hcase : ∀ {i y}, Function.update s.sessions sid (some x') i = some y →
      ∃ z, s.sessions i = some z ∧ y.jobID = z.jobID ∧ y.holdsMu = z.holdsMu := by
    intro i y hy
    by_cases hi : i = sid
    · subst hi
      rw [Function.update_self] at hy
      cases hy
      exact ⟨x, hx, hj, hh⟩
    · rw [Function.update_of_ne hi] at hy
      exact ⟨y, hy, rfl, rfl⟩
  have hback : ∀ {i z}, s.sessions i = some z →
      ∃ y, Function.update s.sessions sid (some x') i = some y ∧ y.jobID = z.jobID ∧
        y.holdsMu = z.holdsMu := by
    intro i z hz
    by_cases hi : i = sid
    · subst hi
      rw [hx] at hz
      cases hz
      exact ⟨x', Function.update_self _ _ _, hj, hh⟩
    · exact ⟨z, by rw [Function.update_of_ne hi]; exact hz, rfl, rfl⟩
  refine ⟨fun hy => ?_, fun hy hz hjob => ?_, fun j => ?_, fun hy => ?_, fun hy hyh => ?_, fun hm => ?_⟩
  · obtain ⟨z, hz, -⟩ := hcase hy
    exact h.fresh hz
  · obtain ⟨y', hy', hyj, -⟩ := hcase hy
    obtain ⟨z', hz', hzj, -⟩ := hcase hz
    exact h.unique hy' hz' (by rw [← hyj, ← hzj]; exact hjob)
  · rw [h.active j]
    constructor
    · rintro ⟨i, z, hz, rfl⟩
      obtain ⟨y, hy, hyj, -⟩ := hback hz
      exact ⟨i, y, hy, hyj⟩
    · rintro ⟨i, y, hy, rfl⟩
      obtain ⟨z, hz, hzj, -⟩ := hcase hy
      exact ⟨i, z, hz, hzj.symm⟩
  · obtain ⟨z, hz, -⟩ := hcase hy
    exact h.serving hz
  · obtain ⟨z, hz, -, hzh⟩ := hcase hy
    exact h.holds hz (hzh ▸ hyh)
  · obtain ⟨z, hz, hzh⟩ := h.held hm
    obtain ⟨y, hy, -, hyh⟩ := hback hz
    exact ⟨y, hy, by rw [hyh]; exact hzh⟩

/-- A session's step leaves the other sessions. -/
theorem sessions_advance {sid : SessionID} {m : Move} {i : SessionID} {y : Session}
    (hy : (s.advance sid x m).sessions i = some y) :
    (i = sid ∧ m.next = some y) ∨ (i ≠ sid ∧ s.sessions i = some y) := by
  simp only [State.advance] at hy
  by_cases hi : i = sid
  · subst hi
    rw [Function.update_self] at hy
    exact .inl ⟨rfl, hy⟩
  · rw [Function.update_of_ne hi] at hy
    exact .inr ⟨hi, hy⟩

theorem sessions_advance_of_ne {sid : SessionID} {m : Move} {i : SessionID} (hi : i ≠ sid) :
    (s.advance sid x m).sessions i = s.sessions i := by
  simp [State.advance, Function.update_of_ne hi]

theorem sessions_advance_self {sid : SessionID} {m : Move} :
    (s.advance sid x m).sessions sid = m.next := by
  simp [State.advance]

theorem nextSession_advance {sid : SessionID} {m : Move} :
    (s.advance sid x m).nextSession = s.nextSession := by
  cases hm : m.effect with
  | save r applied => cases applied <;> simp [State.advance, State.apply, hm]
  | _ => simp [State.advance, State.apply, hm]

theorem phase_advance {sid : SessionID} {m : Move} : (s.advance sid x m).phase = s.phase := by
  cases hm : m.effect with
  | save r applied => cases applied <;> simp [State.advance, State.apply, hm]
  | _ => simp [State.advance, State.apply, hm]

/-- Only the last step of a session gives its job up. -/
theorem activeJobs_advance {sid : SessionID} {m : Move}
    (h : Moves isPrint s x c m.effect m.next) :
    (s.advance sid x m).activeJobs =
      if m.next = none then s.activeJobs.erase x.jobID else s.activeJobs := by
  obtain ⟨effect, events, next⟩ := m
  dsimp only at h
  cases h with
  | released => simp [State.advance, State.apply]
  | publishSave_fails => simp only [State.advance, State.apply]; split <;> simp
  | commit_fails => simp only [State.advance, State.apply]; split <;> simp
  | failSave_fails => simp only [State.advance, State.apply]; split <;> simp
  | cancelSave_fails => simp only [State.advance, State.apply]; split <;> simp
  | repairSave_fails => simp only [State.advance, State.apply]; split <;> simp
  | _ => simp [State.advance, State.apply]

/-- **A session's step keeps ownership.** -/
theorem Owned.advance (h : Owned s) {sid : SessionID} {m : Move} (hx : s.sessions sid = some x)
    (hmu : x.usesMu = true → s.mu = if x.holdsMu then some sid else none)
    (hm : Moves isPrint s x c m.effect m.next) : Owned (s.advance sid x m) := by
  have hjob : ∀ {y}, m.next = some y → y.jobID = x.jobID := fun {y} hy =>
    (hy ▸ hm : Moves isPrint s x c m.effect (some y)).jobID_eq
  have hother : ∀ {i y}, i ≠ sid → s.sessions i = some y → y.jobID ≠ x.jobID :=
    fun hi hy heq => hi (h.unique hy hx heq)
  -- Another holder of the lock excludes this step from using it.
  have hfree : ∀ {i y}, i ≠ sid → s.sessions i = some y → y.holdsMu = true → x.usesMu = false := by
    intro i y hi hy hyh
    by_contra hu
    have h1 := hmu (by simpa using hu)
    rw [h.holds hy hyh] at h1
    split at h1
    · exact hi (Option.some.inj h1)
    · cases h1
  refine ⟨fun hy => ?_, fun hy hz hj => ?_, fun j => ?_, fun hy => ?_, fun hy hyh => ?_, fun {i} hi => ?_⟩
  · rw [nextSession_advance]
    rcases sessions_advance hy with ⟨rfl, -⟩ | ⟨-, hy'⟩
    · exact h.fresh hx
    · exact h.fresh hy'
  · rcases sessions_advance hy with ⟨rfl, hy'⟩ | ⟨hi, hy'⟩ <;>
      rcases sessions_advance hz with ⟨rfl, hz'⟩ | ⟨hk, hz'⟩
    · rfl
    · exact absurd ((hj.symm.trans (hjob hy'))) (hother hk hz')
    · exact absurd (hj.trans (hjob hz')) (hother hi hy')
    · exact h.unique hy' hz' hj
  · rw [activeJobs_advance hm]
    by_cases hn : m.next = none
    · rw [if_pos hn, Finset.mem_erase, h.active j]
      constructor
      · rintro ⟨hne, i, y, hy, rfl⟩
        have hi : i ≠ sid := by
          rintro rfl
          rw [hx] at hy
          cases hy
          exact hne rfl
        exact ⟨i, y, by rw [sessions_advance_of_ne hi]; exact hy, rfl⟩
      · rintro ⟨i, y, hy, rfl⟩
        rcases sessions_advance hy with ⟨-, hy'⟩ | ⟨hi, hy'⟩
        · rw [hn] at hy'; cases hy'
        · exact ⟨hother hi hy', i, y, hy', rfl⟩
    · rw [if_neg hn, h.active j]
      obtain ⟨x', hx'⟩ := Option.ne_none_iff_exists'.1 hn
      constructor
      · rintro ⟨i, y, hy, rfl⟩
        by_cases hi : i = sid
        · subst hi
          rw [hx] at hy
          cases hy
          exact ⟨i, x', by rw [sessions_advance_self]; exact hx', hjob hx'⟩
        · exact ⟨i, y, by rw [sessions_advance_of_ne hi]; exact hy, rfl⟩
      · rintro ⟨i, y, hy, rfl⟩
        rcases sessions_advance hy with ⟨-, hy'⟩ | ⟨-, hy'⟩
        · exact ⟨sid, x, hx, (hjob hy').symm⟩
        · exact ⟨i, y, hy', rfl⟩
  · rw [phase_advance]
    exact h.serving hx
  · rcases sessions_advance hy with ⟨rfl, hy'⟩ | ⟨hi, hy'⟩
    · have hu := (hy' ▸ hm : Moves isPrint s x c m.effect (some _)).usesMu_of_holdsMu hyh
      simp [State.advance, hu, State.muAfter, hy', hyh]
    · simp only [State.advance, hfree hi hy' hyh]
      exact h.holds hy' hyh
  · simp only [State.advance] at hi
    split at hi
    · unfold State.muAfter at hi
      split at hi
      · rename_i x' hx'
        split at hi
        · rename_i hh
          cases hi
          exact ⟨x', by rw [sessions_advance_self]; exact hx', hh⟩
        · cases hi
      · cases hi
    · rename_i hu
      obtain ⟨y, hy, hyh⟩ := h.held hi
      have hne : i ≠ sid := by
        rintro rfl
        rw [hx] at hy
        cases hy
        exact hu (Coordinator.usesMu_of_holdsMu hyh)
      exact ⟨y, by rw [sessions_advance_of_ne hne]; exact hy, hyh⟩

/-- **Every step keeps ownership.** -/
theorem Owned.step (h : Owned s) {a : Action} (hs : Steps isPrint s a s') : Owned s' := by
  cases hs with
  | tick d => exact h.congr rfl rfl rfl rfl rfl
  | stopped => exact owned_restart _ _ _
  | booted cfg => exact owned_restart _ _ _
  | checked fails hp => exact h.phase (by simp [hp]) _ _
  | listed hp => exact h.phase (by simp [hp]) _ _
  | unmarked hp => exact h.phase (by simp [hp]) _ _
  | marked hp => exact h.phase (by simp [hp]) _ _
  | mark_fails hp => exact owned_restart _ _ _
  | served hp => exact h.phase (by simp [hp]) _ _
  | registry r => exact h.congr rfl rfl rfl rfl rfl
  | refused => exact h
  | submitted hp _ _ _ hj => exact h.claim hp hj rfl
  | recovered hp _ _ hj => exact h.claim hp hj rfl
  | cancelled hx => exact h.cancel hx rfl rfl
  | delivered => exact h.congr rfl rfl rfl rfl rfl
  | session hx hmu hm => exact h.advance hx hmu (moves_of_move hm)

end Coordinator

end ZkRuntime
