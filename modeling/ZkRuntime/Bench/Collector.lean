import ZkRuntime.Bench.Helpers.CleanPath
/-!
# What the outer collector publishes

An acceptance is published where nothing went wrong at any point, and the
record says so in all its parts. A rejection has a reason, and the first one
found, but for two cases. Where the deadline passes between the preliminary
verdict and the commit, and nothing else went wrong, the acceptance is
withdrawn and no reason is given; and before the handlers are installed an
interrupt may end `except BaseException` ahead of its reason. A write that
raises may leave the record at its path, and such a record is published too.
-/

namespace ZkRuntime

namespace Bench

namespace Collect

open PyJson

variable {F : Type} {env : Env F}

/-! ### Acceptance -/

/-- The record of the path, where no signal came after the verdict. -/
theorem published_of_quiet (h : env.arrivals .restore = []) : env.published =
    { env.record 16 with
      endNs := some (env.now .commit)
      outerTimedOut := decide (env.deadlineNs ≤ env.now .commit)
      accepted := !decide (env.deadlineNs ≤ env.now .commit) } := by
  rw [Env.published, Config.commit, h]
  rfl

theorem published_accepted :
    env.published.accepted = true ↔ env.arrivals .restore = [] ∧ env.now .commit < env.deadlineNs := by
  rw [Env.published, commit_accepted]
  exact ⟨fun h => ⟨h.2.1, h.2.2.2⟩, fun h => ⟨rfl, h.1, rfl, h.2⟩⟩

/-- **What is accepted is all in order.** -/
theorem acceptance (env : Env F) {r : Record F} (h : Publishes env r) (hr : r.accepted = true) :
    (∀ p, ∃ row, r.phases.lookup p = some row ∧ row.rawExitCode = some 0 ∧ row.stop = none ∧
      row.errors = [] ∧ row.signals = [] ∧ row.cleanupComplete = true) ∧
    (∃ row, r.phases.lookup .guardian = some row ∧ row.exitedBeforeDeadline = true) ∧
    (∃ ms, r.verificationReport = some ms ∧ Verified env.runId ms ∧ r.runId = env.runId) ∧
    (r.sourceBindingValid = true ∧ env.raises .rebind = none) ∧
    r.failures = [] ∧ r.interrupts = [] ∧ ∃ t, r.endNs = some t ∧ t < r.deadlineNs := by
  rcases publishes_cases h with ⟨hc, -, -, rfl⟩ | ⟨ha, -⟩
  · obtain ⟨hquiet, hend⟩ := published_accepted.1 hr
    obtain ⟨-, -, hexit, -⟩ := hc .weigh (by decide)
    obtain ⟨-, -, hverified⟩ := hc .identify (by decide)
    have hbound := (hc .rebind (by decide)).2.1 nofun
    rw [published_of_quiet hquiet]
    refine ⟨?_, ⟨_, rfl, hexit⟩, ⟨_, rfl, hverified, rfl⟩, ⟨rfl, hbound⟩, rfl, rfl, _, rfl, hend⟩
    intro p
    obtain ⟨-, -, hrow, -⟩ := hc (.judge p) (by cases p <;> decide)
    obtain ⟨h1, h2, h3, h4, h5⟩ := Row.reason_eq_none.1 hrow
    cases p
    · exact ⟨_, rfl, h5, h1, h3, h4, h2⟩
    · exact ⟨_, rfl, h5, h1, h3, h4, h2⟩
  · rw [hr] at ha
    cases ha

/-- An environment in which all goes well, up to the clock at the end. -/
def quiet (endNs : ℤ) : Env Unit where
  runId := "run"
  deadlineNs := 25000000100
  arrivals _ := []
  raises _ := none
  now q := if q = .commit then endNs else 100
  again _ := 100
  child _ :=
    { waitid := some ⟨1, 0⟩
      rawExitCode := some 0
      signal := none
      stop := none
      exitedBeforeDeadline := true
      cleanupComplete := true
      residualChildren := some []
      signals := []
      errors := []
      startNs := 100
      endNs := 100 }
  present := true
  report := .ok (.record [("run_id", .str (text "run")), ("final_accepted", .bool true),
    ("evidence_valid", .bool true), ("crypto", .record [("evidence_valid", .bool true)])])
  evidence := ⟨true, true, true, [some [], some [], some []], text "[]"⟩
  children := []
  handled := 4
  written := false

theorem quiet_clean (t : ℤ) : (quiet t).Clean := by
  have hlabels : failures (quiet t).evidence (some (quiet t).audit) = [] := by
    show ([] : List String).mergeSort = []
    rw [List.mergeSort_nil]
  have hnow : (100 : ℤ) < 25000000100 := by decide
  intro q hq
  cases q with
  | head p => exact ⟨rfl, fun _ => rfl, hnow⟩
  | judge p => exact ⟨rfl, fun _ => rfl, rfl, hnow⟩
  | identify => exact ⟨rfl, fun _ => rfl, rfl, rfl, rfl, _, rfl, rfl⟩
  | diagnose => exact ⟨rfl, fun _ => rfl, hlabels⟩
  | weigh => exact ⟨rfl, fun _ => rfl, rfl, hnow⟩
  | present | read | reap => exact ⟨rfl, fun _ => rfl, rfl⟩
  | _ => exact ⟨rfl, fun _ => rfl, trivial⟩

theorem acceptance_quiet : (quiet 100).published.failures = [] ∧ (quiet 100).published.interrupts = [] := by
  have h := acceptance (quiet 100) (publishes_of_clean (quiet_clean 100) rfl (.inl rfl))
    (published_accepted.2 ⟨rfl, by decide⟩)
  exact ⟨h.2.2.2.2.1, h.2.2.2.2.2.1⟩

/-- **What is accepted, exactly**: that of an environment in which all goes
well, with no signal and no deadline before the end, and the record left at
its path, whether the commit raises behind that or not. -/
theorem accepts_iff (env : Env F) : (∃ r, Publishes env r ∧ r.accepted = true) ↔
    env.Clean ∧ env.raises .restore = none ∧ env.Writes ∧ env.arrivals .restore = [] ∧
      env.now .commit < env.deadlineNs := by
  constructor
  · rintro ⟨r, hpub, hr⟩
    rcases publishes_cases hpub with ⟨hc, hrestore, hcommit, rfl⟩ | ⟨ha, -⟩
    · obtain ⟨hquiet, hend⟩ := published_accepted.1 hr
      exact ⟨hc, hrestore, hcommit, hquiet, hend⟩
    · rw [hr] at ha
      cases ha
  · rintro ⟨hc, hrestore, hcommit, hquiet, hend⟩
    exact ⟨env.published, publishes_of_clean hc hrestore hcommit, published_accepted.2 ⟨hquiet, hend⟩⟩

/-! ### Reasons -/

/-- **The reasons are as they should be**: a rejection has one, an acceptance
has none, and none is replaced. -/
def Provenance (env : Env F) : Prop :=
  (∀ r, Publishes env r →
    (r.accepted = false → r.primaryFailure ≠ none) ∧ (r.accepted = true → r.primaryFailure = none)) ∧
  ∀ m n p, m ≤ n → (config env m).result.primaryFailure = some p → (config env n).result.primaryFailure = some p

/-- **Only the deadline was missed, and only at the commit.** -/
structure Late (env : Env F) : Prop where
  clean : env.Clean
  quiet : env.arrivals .restore = []
  restored : env.raises .restore = none
  committed : env.Writes
  late : env.deadlineNs ≤ env.now .commit

theorem Late.not_provenance (h : Late env) : ¬ Provenance env := by
  intro hp
  have hpub := publishes_of_clean h.clean h.restored h.committed
  refine (hp.1 _ hpub).1 ?_ ?_
  · rw [Bool.eq_false_iff]
    intro ha
    exact absurd (published_accepted.1 ha).2 (Int.not_lt.2 h.late)
  · rw [published_of_quiet h.quiet]
    rfl

theorem Interrupted.not_provenance (h : Interrupted env) : ¬ Provenance env := by
  intro hp
  obtain ⟨r, hpub, ha, hnone⟩ := h.publishes
  exact (hp.1 r hpub).1 ha hnone

theorem provenance_of_not (hlate : ¬ Late env) (hint : ¬ Interrupted env) : Provenance env := by
  refine ⟨?_, fun m n p hmn hp => primaryFailure_of_le hmn hp⟩
  intro r hpub
  rcases publishes_cases hpub with ⟨hc, hr, hr', rfl⟩ | ⟨ha, hp⟩
  · by_cases hquiet : env.arrivals .restore = []
    · have hend : env.now .commit < env.deadlineNs := by
        by_contra hend
        exact hlate ⟨hc, hquiet, hr, hr', Int.not_lt.1 hend⟩
      refine ⟨fun ha => ?_, fun _ => by rw [published_of_quiet hquiet]; rfl⟩
      rw [published_accepted.2 ⟨hquiet, hend⟩] at ha
      cases ha
    · -- the late signal is the reason
      have hreason : env.published.primaryFailure = some "collector_interrupted" := by
        rw [Env.published, commit_primaryFailure, if_neg hquiet]
        rfl
      refine ⟨fun _ => by rw [hreason]; rintro ⟨⟩, fun ha => ?_⟩
      exact absurd (published_accepted.1 ha).1 hquiet
  · exact ⟨fun _ hnone => hint (hp hnone), fun ha' => by rw [ha] at ha'; cases ha'⟩

/-- **When reasons are given**: but where the deadline passes at the commit
alone, and where an interrupt ends `except BaseException` ahead of its
reason. -/
theorem provenance_iff (env : Env F) : Provenance env ↔ ¬ Late env ∧ ¬ Interrupted env :=
  ⟨fun h => ⟨fun hl => hl.not_provenance h, fun hi => hi.not_provenance h⟩, fun h => provenance_of_not h.1 h.2⟩

/-- The deadline passes while the handlers are restored. -/
theorem not_provenance_expired : ¬ Provenance (quiet 25000000100) :=
  Late.not_provenance ⟨quiet_clean _, rfl, rfl, .inl rfl, by decide⟩

/-- Two interrupts come before the handlers are installed, the second of them
in `except BaseException`. -/
theorem not_provenance_interrupted :
    ¬ Provenance { quiet 100 with
      raises := fun q => if q = .install then some "KeyboardInterrupt" else none
      handled := 1 } :=
  Interrupted.not_provenance ⟨⟨"KeyboardInterrupt", rfl, rfl⟩, by decide, rfl, .inl rfl⟩

end Collect

end Bench

end ZkRuntime
