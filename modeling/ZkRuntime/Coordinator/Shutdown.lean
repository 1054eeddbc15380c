import ZkRuntime.Coordinator.Helpers.Joining
/-!
# The shutdown of a coordinator is safe

The store is closed by the cleanup alone, which goes through its places once
and in their order, behind all of its joins. A nil error comes from the
cleanup's own report and from nowhere else, and the report is the last thing
to read the context.
-/

namespace ZkRuntime

namespace Coordinator

variable {p p' : Process} {a : ProcessAction}

/-! ## The goroutines of the shutdown -/

/-- The cleanup has sent that there is no error. -/
def Cleaner.clean (c : Cleaner) : Prop := c = .finish [] ∨ c = .done []

/-- **What the goroutines of the shutdown know of one another.** -/
structure Shutdown.Lined (c : Shutdown) : Prop where
  once : c.supervisor ≠ .unborn → c.once = .done
  cleaner : c.supervisor = .unborn ∨ c.supervisor = .spawn → c.cleaner = .unborn
  complete : ∀ errs, c.complete = some errs → c.cleaner = .finish errs ∨ c.cleaner = .done errs
  joined : c.supervisor = .joined [] ∨ c.supervisor = .decide [] → c.cleaner.clean
  decided : c.supervisor = .cancel ∨ c.supervisor = .close ∨ c.supervisor = .done → c.err = [] →
    c.cleaner.clean

/-- A clean end stays one. -/
theorem Cleans.clean {fails : Bool} {c next : Cleaner} (hc : Cleans p fails c next)
    (h : c.clean) : next.clean := by
  rcases h with rfl | rfl
  · cases hc with
    | refused h => rcases h with h | h <;> cases h
    | finished => exact .inr rfl
  · cases hc with
    | refused h => rcases h with h | h <;> cases h

theorem Cleans.ne_unborn {fails : Bool} {c next : Cleaner} (hc : Cleans p fails c next) :
    c ≠ .unborn := by
  rintro rfl
  cases hc with
  | refused h => rcases h with h | h <;> cases h

theorem Shutdown.Lined.clean {fails : Bool} {next : Cleaner} {complete : Option (List ShutdownError)}
    (h : p.shut.Lined) (hc : Cleans p fails p.shut.cleaner next)
    (hcomp : complete = p.shut.complete ∨
      ∃ errs, p.shut.cleaner = .send errs ∧ complete = some errs) :
    Shutdown.Lined { p.shut with cleaner := next, complete := complete } := by
  refine ⟨h.once, fun hs => absurd (h.cleaner hs) hc.ne_unborn, fun errs he => ?_,
    fun hs => hc.clean (h.joined hs), fun hs he => hc.clean (h.decided hs he)⟩
  simp only at he
  rcases hcomp with hcomp | ⟨errs', hsend, hcomp⟩
  · rw [hcomp] at he
    rcases h.complete errs he with hcl | hcl
    · rw [hcl] at hc
      cases hc with
      | refused h => rcases h with h | h <;> cases h
      | finished => exact .inr rfl
    · rw [hcl] at hc
      cases hc with
      | refused h => rcases h with h | h <;> cases h
  · rw [hcomp] at he
    cases he
    rw [hsend] at hc
    cases hc with
    | refused h => rcases h with h | h <;> cases h
    | sent => exact .inl rfl

/-- **Every step of the shutdown keeps it.** -/
theorem Shutdown.Lined.closing {c : Shutdown} (h : p.shut.Lined) (hc : ShutdownSteps p a c) :
    c.Lined := by
  cases hc with
  | same => exact h
  | callers ho => exact ⟨fun hs => ho.2 (h.once hs), h.cleaner, h.complete, h.joined, h.decided⟩
  | spawned ho =>
    have hun : p.shut.supervisor = .unborn := by
      by_contra hne
      have hdone := h.once hne
      rw [ho] at hdone
      cases hdone
    exact ⟨fun _ => rfl, fun _ => h.cleaner (.inl hun), h.complete, fun hs => by simp at hs,
      fun hs => by simp at hs⟩
  | deadline => exact ⟨h.once, h.cleaner, h.complete, h.joined, h.decided⟩
  | stopper => exact ⟨h.once, h.cleaner, h.complete, h.joined, h.decided⟩
  | cleaner hc hcomp => exact h.clean hc hcomp
  | started hs =>
    refine ⟨fun _ => h.once (by simp [hs]), fun hs' => by simp at hs', fun errs he => ?_,
      fun hs' => by simp at hs', fun hs' => by simp at hs'⟩
    -- There was no cleanup that could have sent.
    have hcl := h.complete errs he
    simp [h.cleaner (.inr hs)] at hcl
  | @received _ errs hs hcomp =>
    refine ⟨fun _ => h.once (by simp [hs]), fun hs' => by simp at hs', nofun, fun hs' => ?_,
      fun hs' => by simp at hs'⟩
    simp only [Supervisor.joined.injEq, List.append_eq_nil_iff, reduceCtorEq, or_false] at hs'
    rw [hs'.1] at hcomp
    exact h.complete [] hcomp
  | ended hs =>
    refine ⟨fun _ => h.once ?_, fun hs' => by simp at hs', h.complete, fun hs' => by simp at hs',
      fun hs' => by simp at hs'⟩
    rcases hs with hs | hs <;> simp [hs]
  | decided hs =>
    refine ⟨fun _ => h.once (by simp [hs]), fun hs' => by simp at hs', h.complete, fun hs' => ?_,
      fun hs' => by simp at hs'⟩
    simp only [Supervisor.decide.injEq, reduceCtorEq, false_or] at hs'
    subst hs'
    exact h.joined (.inl hs)
  | @set _ errs hs =>
    refine ⟨fun _ => h.once (by simp [hs]), fun hs' => by simp at hs', h.complete,
      fun hs' => by simp at hs', fun _ he => ?_⟩
    by_cases hnil : errs = []
    · subst hnil
      exact h.joined (.inr hs)
    · simp [hnil] at he
  | cancelled hs =>
    exact ⟨fun _ => h.once (by simp [hs]), fun hs' => by simp at hs', h.complete,
      fun hs' => by simp at hs', fun _ he => h.decided (.inl hs) he⟩
  | finished hs =>
    exact ⟨fun _ => h.once (by simp [hs]), fun hs' => by simp at hs', h.complete,
      fun hs' => by simp at hs', fun _ he => h.decided (.inr (.inl hs)) he⟩

theorem Shutdown.Lined.step (h : p.shut.Lined) (hs : ProcessSteps p a p') : p'.shut.Lined := by
  cases hs with
  | gate _ _ ho => exact ⟨fun hs => ho.2 (h.once hs), h.cleaner, h.complete, h.joined, h.decided⟩
  | closing hc => exact h.closing hc
  | _ => exact h

/-! ## How far the cleanup is -/

/-- The places of the cleanup in their order. -/
def Cleaner.progress : Cleaner → ℕ
  | .unborn => 0
  | .awaitStartup => 1
  | .awaitHandlers => 2
  | .awaitBackground => 3
  | .awaitDispatches => 4
  | .awaitStopped => 5
  | .awaitServe => 6
  | .check => 7
  | .shutdownMetrics => 8
  | .recheck => 9
  | .close => 10
  | .closing => 11
  | .closed => 12
  | .send _ => 13
  | .finish _ => 14
  | .done _ => 15

theorem Cleaner.rank_of_progress {c : Cleaner} (h : 7 ≤ c.progress) : c.rank = 6 := by
  cases c <;> simp_all [Cleaner.progress, Cleaner.rank]

theorem Cleans.progress_lt {fails : Bool} {c next : Cleaner} (hc : Cleans p fails c next) :
    c.progress < next.progress := by
  cases hc with
  | refused h => rcases h with rfl | rfl <;> simp [Cleaner.progress]
  | _ => simp [Cleaner.progress]

/-- The cleanup does not go back. -/
theorem progress_le (h : p.shut.Lined) (hs : ProcessSteps p a p') :
    p.shut.cleaner.progress ≤ p'.shut.cleaner.progress := by
  cases hs with
  | closing hc =>
    cases hc with
    | cleaner hc => exact hc.progress_lt.le
    | started hs => simp [h.cleaner (.inr hs), Cleaner.progress]
    | _ => exact le_rfl
  | _ => exact le_rfl

/-- Only the cleanup goes on with the cleanup, once it has begun. -/
theorem cleans_of_step (hs : ProcessSteps p a p') (hne : p'.shut.cleaner ≠ p.shut.cleaner)
    (hbegun : p'.shut.cleaner ≠ .awaitStartup) :
    ∃ fails, a = .cleaner fails ∧ Cleans p fails p.shut.cleaner p'.shut.cleaner := by
  cases hs with
  | closing hc =>
    cases hc with
    | cleaner hc => exact ⟨_, rfl, hc⟩
    | started => exact absurd rfl hbegun
    | _ => exact absurd rfl hne
  | _ => exact absurd rfl hne

/-- A context that has ended stays so. -/
theorem ctxErr_of_step (hs : ProcessSteps p a p') (h : p'.shut.ctxErr = none) :
    p.shut.ctxErr = none := by
  cases hs with
  | closing hc =>
    cases hc with
    | deadline => cases h
    | cancelled => cases hctx : p.shut.ctxErr <;> simp [hctx] at h
    | _ => exact h
  | _ => exact h

/-! ## Over a run -/

section Run

variable (r : coordinatorProcess.Run)

theorem processSteps (n : ℕ) : ProcessSteps (r.state n) (r.act n) (r.state (n + 1)) :=
  processSteps_of_step (r.next n)

theorem initial_state : r.state 0 = newCoordinatorProcess := r.start

theorem staffed (n : ℕ) : (r.state n).Staffed := by
  induction n with
  | zero => rw [initial_state]; exact .initial
  | succ n ih => exact ih.step (processSteps r n)

theorem awaited (n : ℕ) : (r.state n).Awaited (r.state n).shut.cleaner.rank := by
  induction n with
  | zero => rw [initial_state]; exact ⟨nofun, nofun, nofun, nofun, nofun⟩
  | succ n ih => exact ih.step (staffed r n) (processSteps r n)

theorem lined (n : ℕ) : (r.state n).shut.Lined := by
  induction n with
  | zero =>
    rw [initial_state]
    exact ⟨fun h => absurd rfl h, fun _ => rfl, nofun, fun h => by simp [newCoordinatorProcess] at h,
      fun h => by simp [newCoordinatorProcess] at h⟩
  | succ n ih => exact ih.step (processSteps r n)

theorem progress_mono {m n : ℕ} (h : m ≤ n) :
    (r.state m).shut.cleaner.progress ≤ (r.state n).shut.cleaner.progress :=
  r.rel_of_le (R := fun p p' => p.shut.cleaner.progress ≤ p'.shut.cleaner.progress)
    (fun _ => le_rfl) (fun _ _ _ => le_trans)
    (fun n => progress_le (lined r n) (processSteps r n)) h

theorem ctxErr_none {m n : ℕ} (h : m ≤ n) :
    (r.state n).shut.ctxErr = none → (r.state m).shut.ctxErr = none :=
  r.rel_of_le (R := fun p p' => p'.shut.ctxErr = none → p.shut.ctxErr = none)
    (fun _ => id) (fun _ _ _ h h' hn => h (h' hn)) (fun n => ctxErr_of_step (processSteps r n)) h

theorem joined {n : ℕ} (h : 7 ≤ (r.state n).shut.cleaner.progress) : (r.state n).Joined := by
  have haw := awaited r n
  rw [Cleaner.rank_of_progress h] at haw
  exact haw.joined (staffed r n)

/-- The step `n` calls `closeStore`. -/
def ClosesStoreAt (n : ℕ) : Prop :=
  ∃ fails, r.act n = .cleaner fails ∧ (r.state n).shut.cleaner = .close ∧
    (r.state n).hasStore = true

/-- At the step `n` `closeStore` returns nil, or there is no store to close. -/
def StoreClosedAt (n : ℕ) : Prop :=
  (r.act n = .cleaner false ∧ (r.state n).shut.cleaner = .closing) ∨
    ((r.state n).hasStore = false ∧ (r.state n).shut.cleaner = .close)

/-- At the step `n` `shutdownMetrics` returns nil, or there is none. -/
def MetricsShutAt (n : ℕ) : Prop :=
  ∃ fails, r.act n = .cleaner fails ∧ (r.state n).shut.cleaner = .shutdownMetrics ∧
    ((r.state n).hasMetrics = true → fails = false)

variable {r} {n : ℕ}

/-- **The step into a place of the cleanup.** -/
theorem exists_cleans {P : Cleaner → Prop} (hunborn : ¬ P .unborn) (hstart : ¬ P .awaitStartup)
    (h : P (r.state n).shut.cleaner) :
    ∃ m fails, m < n ∧ r.act m = .cleaner fails ∧ ¬ P (r.state m).shut.cleaner ∧
      Cleans (r.state m) fails (r.state m).shut.cleaner (r.state (m + 1)).shut.cleaner ∧
      ∀ k, m < k → k ≤ n → P (r.state k).shut.cleaner := by
  obtain ⟨m, hmn, hno, hyes⟩ := r.exists_entry (P := fun p => P p.shut.cleaner)
    (fun p hp => by rw [show p = newCoordinatorProcess from hp]; exact hunborn) h
  have hnext := hyes (m + 1) (by omega) hmn
  obtain ⟨fails, hact, hc⟩ := cleans_of_step (processSteps r m)
    (fun heq => hno (heq ▸ hnext)) (fun heq => hstart (heq ▸ hnext))
  exact ⟨m, fails, hmn, hact, hno, hc, hyes⟩

end Run

/-! ## What a shutdown that returns nil has done -/

/-- The cleanup has found that there is no error. -/
def Cleaner.reported (c : Cleaner) : Prop := c = .send [] ∨ c.clean

/-- It is behind `closeStore`, without an error of it. -/
def Cleaner.behindClose (c : Cleaner) : Prop := c = .closed ∨ c.reported

/-- It is behind `shutdownMetrics`, without an error of it. -/
def Cleaner.behindMetrics (c : Cleaner) : Prop :=
  c = .recheck ∨ c = .close ∨ c = .closing ∨ c.behindClose

section Entries

variable {fails : Bool} {c next : Cleaner}

theorem Cleans.of_reported (hc : Cleans p fails c next) (hn : next.reported) (h : ¬ c.reported) :
    c = .closed ∧ p.shut.ctxErr = none := by
  cases hc with
  | reported =>
    refine ⟨rfl, ?_⟩
    cases hctx : p.shut.ctxErr with
    | none => rfl
    | some e => simp [Cleaner.reported, Cleaner.clean, ctxErrs_of_some hctx] at hn
  | sent => simp_all [Cleaner.reported, Cleaner.clean]
  | finished => simp_all [Cleaner.reported, Cleaner.clean]
  | _ => simp [Cleaner.reported, Cleaner.clean] at hn

theorem Cleans.of_behindClose (hc : Cleans p fails c next) (hn : next.behindClose)
    (h : ¬ c.behindClose) :
    (c = .closing ∧ fails = false) ∨ (c = .close ∧ p.hasStore = false) := by
  by_cases hrep : next.reported
  · have hcl := hc.of_reported hrep fun hr => h (.inr hr)
    exact absurd (.inl hcl.1) h
  · obtain rfl : next = .closed := hn.resolve_right hrep
    cases hc with
    | unopened hs => exact .inr ⟨rfl, hs⟩
    | closed hf => exact .inl ⟨rfl, hf⟩

theorem Cleans.of_behindMetrics (hc : Cleans p fails c next) (hn : next.behindMetrics)
    (h : ¬ c.behindMetrics) :
    c = .shutdownMetrics ∧ (p.hasMetrics = true → fails = false) := by
  by_cases hclose : next.behindClose
  · rcases hc.of_behindClose hclose fun hb => h (.inr (.inr (.inr hb))) with ⟨rfl, -⟩ | ⟨rfl, -⟩
    · exact absurd (.inr (.inr (.inl rfl))) h
    · exact absurd (.inr (.inl rfl)) h
  · rcases hn with rfl | rfl | rfl | hb
    · cases hc with
      | metrics hm => exact ⟨rfl, hm⟩
    · cases hc with
      | rechecked => exact absurd (.inl rfl) h
    · cases hc with
      | closing => exact absurd (.inr (.inl rfl)) h
    · exact absurd hb hclose

end Entries

variable {r : coordinatorProcess.Run} {n : ℕ}

/-- **Behind a clean report** `closeStore` has returned nil, and in time. -/
theorem exists_storeClosedAt (h : (r.state n).shut.cleaner.reported) :
    ∃ k, k < n ∧ StoreClosedAt r k ∧ (r.state (k + 1)).shut.ctxErr = none := by
  -- The report reads the context, behind `closeStore`.
  obtain ⟨m, fails, hmn, -, hno, hc, hyes⟩ := exists_cleans (P := Cleaner.reported)
    (by simp [Cleaner.reported, Cleaner.clean]) (by simp [Cleaner.reported, Cleaner.clean]) h
  obtain ⟨hclosed, hctx⟩ := hc.of_reported (hyes _ (by omega) hmn) hno
  obtain ⟨k, fails', hkm, hact, hno', hc', hyes'⟩ := exists_cleans (r := r) (n := m)
    (P := Cleaner.behindClose) (by simp [Cleaner.behindClose, Cleaner.reported, Cleaner.clean])
    (by simp [Cleaner.behindClose, Cleaner.reported, Cleaner.clean]) (.inl hclosed)
  refine ⟨k, by omega, ?_, ctxErr_none r (show k + 1 ≤ m by omega) hctx⟩
  rcases hc'.of_behindClose (hyes' _ (by omega) hkm) hno' with ⟨hcl, rfl⟩ | ⟨hcl, hs⟩
  · exact .inl ⟨hact, hcl⟩
  · exact .inr ⟨hs, hcl⟩

theorem exists_metricsShutAt (h : (r.state n).shut.cleaner.reported) :
    ∃ k, k < n ∧ MetricsShutAt r k := by
  obtain ⟨k, fails, hkn, hact, hno, hc, hyes⟩ := exists_cleans (P := Cleaner.behindMetrics)
    (by simp [Cleaner.behindMetrics, Cleaner.behindClose, Cleaner.reported, Cleaner.clean])
    (by simp [Cleaner.behindMetrics, Cleaner.behindClose, Cleaner.reported, Cleaner.clean])
    (.inr (.inr (.inr (.inr h))))
  obtain ⟨hcl, hm⟩ := hc.of_behindMetrics (hyes _ (by omega) hkn) hno
  exact ⟨k, hkn, fails, hact, hcl, hm⟩

/-- Behind the call of `closeStore` the cleanup is past it. -/
theorem ClosesStoreAt.progress {m : ℕ} (h : ClosesStoreAt r m) (hmn : m < n) :
    11 ≤ (r.state n).shut.cleaner.progress := by
  obtain ⟨fails, hact, hcl, hs⟩ := h
  have hstep : (r.state m).cleanerStep fails = some (r.state (m + 1)) := by
    have hnext := r.next m
    rw [hact] at hnext
    exact hnext
  have hnext : (r.state (m + 1)).shut.cleaner = .closing := by
    simp only [Process.cleanerStep, hcl, hs, if_true, Option.some.injEq] at hstep
    rw [← hstep]
    rfl
  have hmono := progress_mono r (show m + 1 ≤ n from hmn)
  rw [hnext] at hmono
  exact hmono

/-- **Shutdown is safe.** Where `closeStore` is called, startup has finished,
every handler that was admitted has left, the loops and all dispatches ever
spawned have exited and `Serve` has returned; it is called once; from then on
nobody is in the store or gets into it; and a `shutdown` that returns nil
does so with all of it joined, behind a `shutdownMetrics` and a `closeStore`
that returned nil, the second of them before the deadline. -/
theorem shutdown_safety (r : coordinatorProcess.Run) :
    (∀ n, ClosesStoreAt r n → (r.state n).Joined) ∧
    (∀ m n, ClosesStoreAt r m → ClosesStoreAt r n → m = n) ∧
    (∀ m n, ClosesStoreAt r m → m ≤ n → (∀ who, r.act n ≠ .storeBegins who) ∧
      ∀ who, (r.state n).inStore who = false) ∧
    ∀ n, r.act n = .shutdownReturns → (r.state n).shut.err = [] →
      (r.state n).Joined ∧ (∃ i, i < n ∧ MetricsShutAt r i) ∧
      ∃ k, k < n ∧ StoreClosedAt r k ∧ (r.state (k + 1)).shut.ctxErr = none := by
  have hclose : ∀ n, ClosesStoreAt r n → (r.state n).shut.cleaner.progress = 10 := by
    rintro n ⟨fails, -, hcl, -⟩
    rw [hcl]
    rfl
  have hjoined : ∀ m n, ClosesStoreAt r m → m ≤ n → (r.state n).Joined := by
    intro m n hm hmn
    have hmono := progress_mono r hmn
    rw [hclose m hm] at hmono
    exact joined r (by omega)
  refine ⟨fun n hn => hjoined n n hn le_rfl, fun m n hm hn => ?_, fun m n hm hmn => ⟨?_, ?_⟩,
    fun n hact herr => ?_⟩
  · rcases Nat.lt_trichotomy m n with hlt | rfl | hlt
    · have h := hm.progress hlt
      rw [hclose n hn] at h
      omega
    · rfl
    · have h := hn.progress hlt
      rw [hclose m hm] at h
      omega
  · intro who hact
    have hs := processSteps r n
    rw [hact] at hs
    have hno := ((hjoined m n hm hmn).outside (staffed r n) who).1
    have hstep : (r.state n).storeBegins who = some (r.state (n + 1)) := by
      have hnext := r.next n
      rw [hact] at hnext
      exact hnext
    simp [Process.storeBegins, hno] at hstep
  · intro who
    exact ((hjoined m n hm hmn).outside (staffed r n) who).2
  · have hstep : (r.state n).shutdownReturns = some (r.state (n + 1)) := by
      have hnext := r.next n
      rw [hact] at hnext
      exact hnext
    have hdone : (r.state n).shut.supervisor = .done := by
      by_contra hno
      simp [Process.shutdownReturns, hno] at hstep
    have hclean := (lined r n).decided (.inr (.inr hdone)) herr
    have hprog : 7 ≤ (r.state n).shut.cleaner.progress := by
      rcases hclean with hcl | hcl <;> simp [hcl, Cleaner.progress]
    exact ⟨joined r hprog, exists_metricsShutAt (.inr hclean), exists_storeClosedAt (.inr hclean)⟩

/-- A process starts, serves a request that dispatches, and is shut down. -/
def shutdownScript : List ProcessAction :=
  List.replicate 17 (.startup false) ++
    [.request false, .storeBegins (.handler 0), .storeEnds (.handler 0), .spawn (.handler 0),
      .shutdown] ++
    List.replicate 3 (.shutdownStep []) ++ [.shutdownStep [0]] ++
    List.replicate 4 (.shutdownStep []) ++
    [.supervisor false, .leave 0, .leaveStep 0, .leaveStep 0, .dispatchExits 0, .livenessExits,
      .recoveryExits, .stopper, .stopper, .serveReturns] ++
    List.replicate 14 (.cleaner false) ++ List.replicate 5 (.supervisor false) ++ [.shutdownReturns]

theorem plays_shutdownScript :
    coordinatorProcess.plays newCoordinatorProcess shutdownScript = true := by decide +kernel

theorem shutdown_safety_clean : ∃ r : coordinatorProcess.Run, ClosesStoreAt r 49 ∧
    (r.state 49).Joined ∧ r.act 59 = .shutdownReturns ∧ (r.state 59).shut.err = [] ∧
      ∃ k, k < 59 ∧ StoreClosedAt r k ∧ (r.state (k + 1)).shut.ctxErr = none := by
  have h49 : ((coordinatorProcess.play newCoordinatorProcess shutdownScript 49).shut.cleaner = .close) ∧
      (coordinatorProcess.play newCoordinatorProcess shutdownScript 49).hasStore = true := by
    decide +kernel
  have h59 : (coordinatorProcess.play newCoordinatorProcess shutdownScript 59).shut.err = [] := by
    decide +kernel
  have h := shutdown_safety
    (.ofScript newCoordinatorProcess shutdownScript .idle (fun _ => rfl) rfl plays_shutdownScript)
  have hcloses : ClosesStoreAt (.ofScript newCoordinatorProcess shutdownScript .idle (fun _ => rfl) rfl
      plays_shutdownScript) 49 := ⟨false, rfl, h49⟩
  exact ⟨_, hcloses, h.1 49 hcloses, rfl, h59, (h.2.2.2 59 rfl h59).2.2⟩

end Coordinator

end ZkRuntime
