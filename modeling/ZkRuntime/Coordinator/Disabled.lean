import ZkRuntime.Coordinator.Canonical
/-!
# A coordinator without the proof system

A process that is configured without it starts over no unfinished preimage
job, and comes to none: it refuses such a submission before its claim, it
executes no such specification, and what it hands back or closes it has
executed.
-/

namespace ZkRuntime

namespace Coordinator

variable {isPrint : ℕ → Bool} {s s' : State} {a : Action} {x x' : Session}

/-- The process is past `checkDisabledZKRecovery`. -/
def Phase.passed : Phase → Bool
  | .checked | .marking _ | .serving => true
  | _ => false

/-- No `Running` and no `Recovering` record is of a preimage job. -/
def NoUnfinishedZK (st : Store) : Prop :=
  ∀ j row, st.load j = some row → row.state = .running ∨ row.state = .recovering →
    row.taskType ≠ zkTaskType

theorem noUnfinishedZK_of_eq_false (h : s.unfinishedZK = false) : NoUnfinishedZK s.store := by
  intro j row hrow hst hzk
  have hid := Store.jobID_of_load hrow
  subst hid
  have hmem : row ∈ s.store.listByState .running ++ s.store.listByState .recovering := by
    rw [List.mem_append]
    rcases hst with hst | hst
    · exact .inl (Store.mem_listByState.2 ⟨hrow, hst⟩)
    · exact .inr (Store.mem_listByState.2 ⟨hrow, hst⟩)
  have hno := List.any_eq_false.1 h row hmem
  simp [hzk] at hno

/-! ## One step -/

/-- A process is past the check by having passed it, or was before. -/
theorem passed_before (ht : Tracked s) (hs : Steps isPrint s a s')
    (hp : s'.phase.passed = true) :
    s'.config = s.config ∧
      ((∃ fails, a = .checkDisabledZK fails ∧ s.phase = .starting ∧ s'.store = s.store ∧
        (s.config.zkDisabled = true → s.unfinishedZK = false)) ∨ s.phase.passed = true) := by
  cases hs with
  | tick d => exact ⟨rfl, .inr hp⟩
  | stopped => simp [State.restart, Phase.passed] at hp
  | booted cfg => simp [State.restart, Phase.passed] at hp
  | checked fails h hzk => exact ⟨rfl, .inl ⟨fails, rfl, h, rfl, hzk⟩⟩
  | listed h => exact ⟨rfl, .inr (by simp [h, Phase.passed])⟩
  | unmarked h => exact ⟨rfl, .inr (by simp [h, Phase.passed])⟩
  | marked h => exact ⟨rfl, .inr (by simp [h, Phase.passed])⟩
  | mark_fails h => simp [State.restart, Phase.passed] at hp
  | served h => exact ⟨rfl, .inr (by simp [h, Phase.passed])⟩
  | registry => exact ⟨rfl, .inr hp⟩
  | refused => exact ⟨rfl, .inr hp⟩
  | submitted h => exact ⟨rfl, .inr (by simp [h, Phase.passed])⟩
  | recovered h => exact ⟨rfl, .inr (by simp [h, Phase.passed])⟩
  | cancelled => exact ⟨rfl, .inr hp⟩
  | delivered => exact ⟨rfl, .inr hp⟩
  | session hx =>
    exact ⟨config_apply, .inr (by simp [ht.owned.serving hx, Phase.passed])⟩

/-- A process that has the store open and nothing more has written nothing. -/
theorem starting_before (ht : Tracked s) (hs : Steps isPrint s a s') (hp : s'.phase = .starting) :
    s'.store = s.store ∧
      ((∃ cfg, a = .boot cfg ∧ s'.config = cfg) ∨ (s.phase = .starting ∧ s'.config = s.config)) := by
  cases hs with
  | tick d => exact ⟨rfl, .inr ⟨hp, rfl⟩⟩
  | stopped => simp [State.restart] at hp
  | booted cfg => exact ⟨rfl, .inl ⟨cfg, rfl, rfl⟩⟩
  | checked => cases hp
  | listed => cases hp
  | unmarked => cases hp
  | marked => cases hp
  | mark_fails => simp [State.restart] at hp
  | served => cases hp
  | registry r _ h => exact absurd (h.symm.trans hp) (by simp)
  | refused => exact ⟨rfl, .inr ⟨hp, rfl⟩⟩
  | submitted h => exact absurd (h.symm.trans hp) (by simp)
  | recovered h => exact absurd (h.symm.trans hp) (by simp)
  | cancelled hx => exact absurd ((ht.owned.serving hx).symm.trans hp) (by simp)
  | delivered => exact ⟨rfl, .inr ⟨hp, rfl⟩⟩
  | session hx =>
    rw [phase_advance] at hp
    exact absurd ((ht.owned.serving hx).symm.trans hp) (by simp)

/-- A preimage specification is available only where the proof system is. -/
theorem taskType_of_available {cfg : Config} {taskType : Bytes} (hd : cfg.zkDisabled = true)
    (h : checkZKAvailable cfg taskType = true) : taskType ≠ zkTaskType := by
  rintro rfl
  simp [checkZKAvailable, hd] at h

/-- A submission that claims its job is of another type. -/
theorem taskType_of_submitted {req : SubmitJobRequest} {ctxErr : Option ContextError}
    (hs : Steps isPrint s (.submit req ctxErr) s') (hd : s.config.zkDisabled = true)
    (hn : s'.nextSession ≠ s.nextSession) : req.taskType ≠ zkTaskType := by
  cases hs with
  | stopped ha => cases ha
  | registry => exact absurd rfl hn
  | refused => exact absurd rfl hn
  | submitted _ _ hzk => exact taskType_of_available hd hzk

/-- A recovery that claims its job was begun with a `Recovering` snapshot. -/
theorem state_of_recovered {snapshot : JobRecord} {ctxErr : Option ContextError}
    (hs : Steps isPrint s (.recover snapshot ctxErr) s') (hn : s'.nextSession ≠ s.nextSession) :
    snapshot.state = .recovering := by
  cases hs with
  | stopped ha => cases ha
  | registry => exact absurd rfl hn
  | refused => exact absurd rfl hn
  | recovered _ _ hst => exact hst

/-! ## The sessions -/

/-- Behind the checks the specification is of another type, where the proof
system is disabled. -/
def Spared (s : State) (x : Session) : Prop :=
  s.config.zkDisabled = true → x.pc.entered = true → x.spec.taskType ≠ zkTaskType

theorem framed_spared : Framed Spared := by
  intro s s' x h _ _ hcfg hd
  rw [hcfg] at hd
  exact h hd

theorem Spared.move {c : Choice} {e : Effect} (h : Moves isPrint s x c e (some x'))
    (hx : Spared s x) : Spared (s.apply x.jobID e) x' := by
  intro hd hpc
  rw [config_apply] at hd
  rcases h.entered_cases hpc with ⟨henter, hv, -⟩ | ⟨hpc', hspec, -⟩
  · cases h with
    | entered _ hzk hv' =>
      rw [taskType_of_validateJobSpec hv']
      exact taskType_of_available hd hzk
    | _ => simp_all [Session.goto, Pc.entered, Pc.attempt]
  · rw [hspec]
    exact hx hd hpc'

variable {r : (coordinator isPrint).Run} {n : ℕ} {sid : SessionID}

theorem spared (hx : (r.state n).sessions sid = some x) : Spared (r.state n) x :=
  session_invariant framed_spared (fun _ _ h hm => h.move hm) (fun _ _ _ _ _ hpc => by cases hpc)
    (fun _ _ _ _ hpc => by cases hpc) (fun _ h => h) r n hx

/-! ## The records -/

/-- **No preimage record is saved**, where none is unfinished. -/
theorem SaveCall.taskType_ne {row : JobRecord} (hs : SaveCall r n row)
    (hd : (r.state n).config.zkDisabled = true) (h : NoUnfinishedZK (r.state n).store) :
    row.taskType ≠ zkTaskType := by
  cases hs with
  | session ht he =>
    have hx := spared ht.took.live hd
    cases ht.writes he with
    | publish hpc => exact hx (by simp [hpc, Pc.entered])
    | commit hpc => exact hx (by simp [hpc, Pc.entered])
    | close hr =>
      have hold := h _ _ hr.row (.inl hr.running)
      exact hold
  | @startup _ row _ _ ha hp hv =>
    obtain ⟨hrow, hst⟩ := (marking r n _ hp).2 row (by simp)
    have hold := h _ _ hrow (.inl hst)
    exact hold

/-- **No preimage record is unfinished** in a process that is past the check. -/
theorem noUnfinishedZK (r : (coordinator isPrint).Run) (n : ℕ)
    (hd : (r.state n).config.zkDisabled = true) (hp : (r.state n).phase.passed = true) :
    NoUnfinishedZK (r.state n).store := by
  induction n with
  | zero =>
    have h0 : r.state 0 = (r.state 0).restart .down (r.state 0).config := r.start
    rw [h0] at hp
    simp [State.restart, Phase.passed] at hp
  | succ n ih =>
    obtain ⟨hcfg, hstep⟩ := passed_before (tracked r n) (steps_of_step (r.next n)) hp
    rw [hcfg] at hd
    rcases hstep with ⟨fails, -, -, hst, hno⟩ | hp'
    · rw [hst]
      exact noUnfinishedZK_of_eq_false (hno hd)
    · intro j row hrow hunf
      rcases load_of_saveCall r n j with heq | ⟨row', hs, -, hrow'⟩
      · exact ih hd hp' j row (heq ▸ hrow) hunf
      · rw [hrow] at hrow'
        cases hrow'
        exact hs.taskType_ne hd (ih hd hp')

/-- **No preimage request is dispatched.** -/
theorem DispatchCall.taskType_ne {req : ExecuteJobRequest} (h : DispatchCall r n req)
    (hd : (r.state n).config.zkDisabled = true) : req.taskType ≠ zkTaskType := by
  obtain ⟨sid, x, c, m, w, ht, he⟩ := h
  obtain ⟨a, hpc, rfl⟩ := ht.of_dispatch he
  exact spared ht.took.live hd (by simp [hpc, Pc.entered])

/-! ## The startup -/

/-- **The startup the process at `n` came through**: it was booted at `b`, and
its check at `c` passed, with nothing written in between. -/
structure CameThrough (r : (coordinator isPrint).Run) (b c n : ℕ) : Prop where
  boot : r.act b = .boot (r.state n).config
  unwritten : ∀ i, b ≤ i → i ≤ c + 1 → (r.state i).store = (r.state b).store
  check : ∃ fails, r.act c = .checkDisabledZK fails
  order : b < c ∧ c < n
  passed : ∀ i, c < i → i ≤ n → (r.state i).phase.passed = true
  config : ∀ i, b < i → i ≤ n → (r.state i).config = (r.state n).config

theorem down_of_boot {cfg : Config} (h : r.act n = .boot cfg) : (r.state n).phase = .down := by
  have hstep : (r.state n).step isPrint (.boot cfg) = some (r.state (n + 1)) := h ▸ r.next n
  by_contra hne
  simp [State.step, hne] at hstep

theorem phase_of_init (h : (coordinator isPrint).init s) : s.phase = .down := by
  have hs : s = s.restart .down s.config := h
  rw [hs]
  rfl

/-- **Who is past the check came through a startup** that wrote nothing before
it, and the check found no unfinished preimage job. -/
theorem exists_startup (r : (coordinator isPrint).Run) (n : ℕ)
    (hp : (r.state n).phase.passed = true) :
    ∃ b c, CameThrough r b c n ∧
      ((r.state n).config.zkDisabled = true → NoUnfinishedZK (r.state b).store) := by
  -- The check is the step into where the process is now.
  obtain ⟨c, hcn, hc, hpassed⟩ := r.exists_entry (P := fun s => s.phase.passed = true)
    (fun s hs => by simp [phase_of_init hs, Phase.passed]) hp
  have hentry := passed_before (tracked r c) (steps_of_step (r.next c)) (hpassed _ (by omega) hcn)
  obtain ⟨hcfg, ⟨fails, hact, hstart, hst, hno⟩ | habs⟩ := hentry
  swap
  · exact absurd habs hc
  -- And the boot is the step into where the check found it.
  obtain ⟨b, hbc, hb, hstarting⟩ := r.exists_entry (P := fun s => s.phase = .starting)
    (fun s hs => by simp [phase_of_init hs]) hstart
  have hearly : ∀ i, b ≤ i → i < c → (r.state (i + 1)).store = (r.state i).store ∧
      ((∃ cfg, r.act i = .boot cfg ∧ (r.state (i + 1)).config = cfg) ∨
        ((r.state i).phase = .starting ∧ (r.state (i + 1)).config = (r.state i).config)) :=
    fun i hbi hic => starting_before (tracked r i) (steps_of_step (r.next i))
      (hstarting _ (by omega) hic)
  obtain ⟨cfg, hboot, hbcfg⟩ : ∃ cfg, r.act b = .boot cfg ∧ (r.state (b + 1)).config = cfg := by
    rcases (hearly b le_rfl hbc).2 with hboot | ⟨habs, -⟩
    · exact hboot
    · exact absurd habs hb
  have hconfig : ∀ i, b < i → i ≤ n → (r.state i).config = cfg := by
    intro i hbi hin
    rw [← hbcfg]
    refine r.eq_of_le (f := State.config) hbi fun k hbk hki => ?_
    rcases Nat.lt_trichotomy k c with hkc | rfl | hck
    · rcases (hearly k (by omega) hkc).2 with ⟨cfg', hboot', -⟩ | ⟨-, heq⟩
      · exact absurd (hstarting k hbk (by omega)) (by simp [down_of_boot hboot'])
      · exact heq
    · exact hcfg
    · exact (passed_before (tracked r k) (steps_of_step (r.next k))
        (hpassed _ (by omega) (by omega))).1
  have hstore : ∀ i, b ≤ i → i ≤ c + 1 → (r.state i).store = (r.state b).store := by
    intro i hbi hic
    refine r.eq_of_le (f := State.store) hbi fun k hbk hki => ?_
    rcases Nat.eq_or_lt_of_le (show k ≤ c by omega) with rfl | hkc
    · exact hst
    · exact (hearly k hbk hkc).1
  have hn := hconfig n (by omega) le_rfl
  refine ⟨b, c, ⟨?_, hstore, ⟨fails, hact⟩, ⟨hbc, hcn⟩, hpassed, ?_⟩, fun hd => ?_⟩
  · rw [hboot, hn]
  · intro i hbi hin
    rw [hconfig i hbi hin, hn]
  · rw [hn, ← hconfig c hbc (by omega)] at hd
    rw [← hstore c (by omega) (by omega)]
    exact noUnfinishedZK_of_eq_false (hno hd)

/-! ## The claims of a process -/

/-- A session's task type is the one it had, or that of a `Recovering` record. -/
theorem Moves.taskType_cases {c : Choice} {e : Effect} (h : Moves isPrint s x c e (some x')) :
    x'.spec.taskType = x.spec.taskType ∨
      ∃ row, s.store.load x.jobID = some row ∧ row.state = .recovering ∧
        x'.spec.taskType = row.taskType := by
  cases h with
  | reload_current _ hr hst => exact .inr ⟨_, hr, hst, rfl⟩
  | entered _ _ hv => exact .inl (taskType_of_validateJobSpec hv)
  | _ => exact .inl rfl

/-- **A session of a preimage job** is a recovery begun with a snapshot of one. -/
theorem recovery_of_taskType (r : (coordinator isPrint).Run) (n : ℕ)
    (hd : (r.state n).config.zkDisabled = true) (hx : (r.state n).sessions sid = some x)
    (hzk : x.spec.taskType = zkTaskType) :
    ∃ snapshot, x.source = .recovery snapshot ∧ snapshot.taskType = zkTaskType ∧
      snapshot.state = .recovering := by
  induction n generalizing x with
  | zero =>
    have h0 : r.state 0 = (r.state 0).restart .down (r.state 0).config := r.start
    rw [h0] at hx
    simp [State.restart] at hx
  | succ n ih =>
    have hs := steps_of_step (r.next n)
    have hp : (r.state (n + 1)).phase.passed = true := by
      simp [(tracked r (n + 1)).owned.serving hx, Phase.passed]
    rw [(passed_before (tracked r n) hs hp).1] at hd
    rcases session_before hs hx with ⟨y, hy, hidle⟩ | ⟨y, c, m, -, htook, hnext⟩ | ⟨hb, heq, -, -⟩
    · rw [hidle.source]
      rw [hidle.spec] at hzk
      exact ih hd hy hzk
    · have hmoves := htook.moves
      rw [hnext] at hmoves
      rw [hmoves.source_eq]
      rcases hmoves.taskType_cases with hsame | ⟨row, hrow, hst, htype⟩
      · exact ih hd htook.live (hsame ▸ hzk)
      · -- What is reloaded is `Recovering`, and no such record is of a preimage job.
        have hserving := (tracked r n).owned.serving htook.live
        have hno := noUnfinishedZK r n hd (by simp [hserving, Phase.passed])
        exact absurd (htype ▸ hzk) (hno _ _ hrow (.inr hst))
    · have hnew : (r.state (n + 1)).nextSession ≠ (r.state n).nextSession := by
        simp [heq, State.claim]
      generalize r.act n = act at hs hb
      cases hb with
      | submit hv =>
        have hreq := taskType_of_submitted hs hd hnew
        exact absurd ((taskType_of_validateJobSpec hv).symm.trans hzk) hreq
      | @recover snapshot ctxErr =>
        exact ⟨snapshot, rfl, hzk, state_of_recovered hs hnew⟩

/-- **A coordinator without the proof system.** The process at `n` is past its
startup: then it was booted over a store without an unfinished preimage job
and wrote nothing before it had found so; no `Running` or `Recovering` record
is of one; no such record is saved and no such request dispatched; a
submission of one changes nothing, and a session of one is a recovery of a
snapshot that this process never had in its store, which executes nothing. -/
theorem disabled_zk (r : (coordinator isPrint).Run) (n : ℕ)
    (hd : (r.state n).config.zkDisabled = true) (hp : (r.state n).phase.passed = true) :
    NoUnfinishedZK (r.state n).store ∧
    (∀ row, SaveCall r n row → row.taskType ≠ zkTaskType) ∧
    (∀ req, DispatchCall r n req → req.taskType ≠ zkTaskType) ∧
    (∀ req ctxErr, r.act n = .submit req ctxErr → req.taskType = zkTaskType →
      r.state (n + 1) = r.state n) ∧
    ∃ b c, CameThrough r b c n ∧ NoUnfinishedZK (r.state b).store ∧
      ∀ sid x, (r.state n).sessions sid = some x → x.spec.taskType = zkTaskType →
        x.pc.entered = false ∧ ∃ snapshot, x.source = .recovery snapshot ∧
          ∀ k, c < k → k ≤ n → (r.state k).store.load snapshot.jobID ≠ some snapshot := by
  have hno := noUnfinishedZK r n hd hp
  refine ⟨hno, fun row hs => hs.taskType_ne hd hno, fun req h => h.taskType_ne hd, ?_, ?_⟩
  · intro req ctxErr hact hzk
    have hstep : (r.state n).submit req ctxErr = some (r.state (n + 1)) := by
      have hnext := r.next n
      rw [hact] at hnext
      exact hnext
    unfold State.submit at hstep
    have hav : checkZKAvailable (r.state n).config req.taskType = false := by
      simp [checkZKAvailable, hd, hzk]
    simp only [hav, Bool.not_false, if_true] at hstep
    split_ifs at hstep
    · exact (Option.some.inj hstep).symm
    · exact (Option.some.inj hstep).symm
  · obtain ⟨b, c, hcame, hfree⟩ := exists_startup r n hp
    refine ⟨b, c, hcame, hfree hd, fun sid x hx hzk => ⟨?_, ?_⟩⟩
    · by_contra hpc
      exact spared hx hd (by simpa using hpc) hzk
    · obtain ⟨snapshot, hsrc, hsnap, hst⟩ := recovery_of_taskType r n hd hx hzk
      refine ⟨snapshot, hsrc, fun k hck hkn hload => ?_⟩
      have hdk : (r.state k).config.zkDisabled = true := by
        rw [hcame.config k (by have := hcame.order; omega) hkn]
        exact hd
      exact noUnfinishedZK r k hdk (hcame.passed k hck hkn) _ _ hload (.inr hst) hsnap

/-- A preimage job that was finished before. -/
def finishedStore : Store :=
  ⟨[⟨7, .succeeded, 3, ascii "v", zkTaskType, ascii "x", 1000⟩], by simp⟩

def disabledScript : List Action :=
  startupWith ⟨true, none, 0⟩ ++ [.submit ⟨7, zkTaskType, Zk.canonicalSpelling, 1000⟩ none]

theorem plays_disabledScript :
    (coordinator asciiPrint).plays (offline finishedStore) disabledScript = true := by
  decide +kernel

/-- A finished preimage job stays, and a submission that would replace it is
refused. -/
theorem disabled_zk_submit : ∃ r : (coordinator asciiPrint).Run,
    (r.state 5).phase = .serving ∧ (r.state 5).config.zkDisabled = true ∧
      (∃ row, (r.state 5).store.load 7 = some row ∧ row.taskType = zkTaskType) ∧
      (∃ req, r.act 5 = .submit req none ∧ req.taskType = zkTaskType) ∧
      r.state (5 + 1) = r.state 5 := by
  have hp : ((scripted _ _ plays_disabledScript).state 5).phase = .serving := by decide +kernel
  have hd : ((scripted _ _ plays_disabledScript).state 5).config.zkDisabled = true := by
    decide +kernel
  have hrow : ((scripted _ _ plays_disabledScript).state 5).store.load 7 =
      some ⟨7, .succeeded, 3, ascii "v", zkTaskType, ascii "x", 1000⟩ := by decide +kernel
  refine ⟨_, hp, hd, ⟨_, hrow, rfl⟩, ⟨_, rfl, rfl⟩, ?_⟩
  exact (disabled_zk (scripted _ _ plays_disabledScript) 5 hd (by rw [hp]; rfl)).2.2.2.1 _ _ rfl rfl

end Coordinator

end ZkRuntime
