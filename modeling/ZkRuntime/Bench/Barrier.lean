import ZkRuntime.Bench.FrameTransport
import ZkRuntime.Bench.Helpers.BarrierPlaces
/-!
# The barrier holds

Over every run of the exchange, whatever fails: the release is sent when the
first row is on the disk and its receipt verified, a row is labelled workload
when the release was acknowledged, and the two transcripts never disagree.
-/

namespace ZkRuntime

namespace Bench

namespace Barrier

open PyJson Events

variable {F : Type} {runId : Text} {E E' : Exchange F}

/-- **All that holds** of the two parties. -/
structure Ordered (runId : Text) (E : Exchange F) : Prop where
  agreed : Agreed runId E
  supervisor : SupervisorPlaced E.supervisor
  runner : RunnerPlaced E.runner

theorem SupervisorSteps.runner_eq (h : SupervisorSteps E E') : E'.runner = E.runner := by
  cases h <;> rfl

theorem RunnerSteps.supervisor_eq [Floats F] (h : RunnerSteps E E') : E'.supervisor = E.supervisor := by
  cases h with
  | phased k m _ =>
    rw [Exchange.runnerPhase.eq_def]
    split <;> rfl
  | _ => rfl

/-- **What the Supervisor has verified is persisted.** -/
theorem Ordered.persisted (h : Ordered runId E) (hv : 1 ∈ E.supervisor.verified) :
    Persisted E.runner ∧ ∃ m, E.supervisor.link.accepted[1]? = some m ∧ Receipted E.runner m := by
  have hlen := h.supervisor.verified hv
  obtain ⟨m, hm⟩ : ∃ m, E.supervisor.link.accepted[1]? = some m := ⟨_, List.getElem?_eq_getElem hlen⟩
  have hr := h.agreed.ofRunner 1 m hm (.inl rfl)
  exact ⟨h.runner.persisted (List.getElem?_eq_some_iff.1 hr).1, m, hm, h.runner.receipt m hr⟩

/-- **What is labelled workload comes after the acknowledgement.** -/
theorem Ordered.acked (h : Ordered runId E) {row : Row F} (hrow : row ∈ E.runner.observed)
    (hname : IsOf row "workload") : E.supervisor.ackNs ≠ none := by
  have hlen := h.runner.observed row hrow hname
  have hr : E.runner.link.accepted[3]? = some (E.runner.link.accepted[3]) := List.getElem?_eq_getElem hlen
  have hs := h.agreed.ofSupervisor 3 _ hr (.inr (.inr rfl))
  exact h.supervisor.acked (List.getElem?_eq_some_iff.1 hs).1

/-- The events of what was accepted are the beginning of `order`. -/
theorem Endpoint.Valid.event {e : Endpoint F} (h : e.Valid runId) {k : ℕ} {m : Value F}
    (hm : e.accepted[k]? = some m) : ∃ ev, order[k]? = some ev ∧ m.get "event" = .str (text ev) := by
  obtain ⟨t, hsays⟩ := h.placed k m hm
  obtain ⟨ev, hev, hfound⟩ := hsays.event
  exact ⟨ev, hev, Value.get_of_find? hfound⟩

/-- **Both at the end** have the same, of the five events in their order. -/
theorem Ordered.transcripts (h : Ordered runId E) (hs : E.supervisor.link.state.sequence = 5)
    (hr : E.runner.link.state.sequence = 5) : E.supervisor.link.accepted = E.runner.link.accepted ∧
    E.supervisor.link.accepted.map (fun m => m.get "event") = order.map fun ev => .str (text ev) := by
  rw [h.agreed.supervisor.sequence] at hs
  rw [h.agreed.runner.sequence] at hr
  constructor
  · rcases h.agreed.isPrefix with hp | hp
    · exact hp.eq_of_length (hs.trans hr.symm)
    · exact (hp.eq_of_length (hr.trans hs.symm)).symm
  · apply List.ext_getElem?
    intro k
    rw [List.getElem?_map, List.getElem?_map]
    by_cases hk : k < 5
    · have hm : E.supervisor.link.accepted[k]? = some (E.supervisor.link.accepted[k]) :=
        List.getElem?_eq_getElem (hs ▸ hk)
      obtain ⟨ev, hev, hget⟩ := h.agreed.supervisor.event hm
      rw [hm, hev]
      exact congrArg some hget
    · rw [List.getElem?_eq_none (by omega), List.getElem?_eq_none (show order.length ≤ k by
        show 5 ≤ k
        omega)]
      rfl

variable [Floats F]

/-- **Every step of both.** -/
theorem Ordered.step (h : Ordered runId E) (hs : Steps E E') : Ordered runId E' := by
  cases hs with
  | idle => exact h
  | tick t =>
    have ha := h.agreed
    exact ⟨ha.runnerMoves ha.runner rfl rfl rfl rfl fun _ hm => hm, h.supervisor, h.runner⟩
  | supervisor hs =>
    obtain ⟨ha, hsup⟩ := hs.keep h.agreed h.supervisor
    exact ⟨ha, hsup, hs.runner_eq ▸ h.runner⟩
  | runner hs =>
    obtain ⟨ha, hrun⟩ := hs.keep h.agreed h.runner
    exact ⟨ha, hs.supervisor_eq ▸ h.supervisor, hrun⟩

theorem ordered (r : (exchange (F := F) runId).Run) : ∀ n, Ordered runId (r.state n) := by
  refine r.invariant (I := Ordered runId) ?_ ?_
  · rintro E ⟨target, bytes, samples, now, rfl⟩
    exact ⟨agreed_start .., supervisorPlaced_start .., runnerPlaced_start ..⟩
  · intro E a E' h hs
    exact h.step (steps hs)

/-- A release is sent by a Supervisor that has verified. -/
theorem Ordered.verified_of_sent (h : Ordered runId E) (hs : Steps E E') (hsent : E'.supervisor.sent = true) :
    1 ∈ E.supervisor.verified := by
  cases hs with
  | idle => exact h.supervisor.sent hsent
  | tick t => exact h.supervisor.sent hsent
  | runner hs => exact h.supervisor.sent (hs.supervisor_eq ▸ hsent)
  | supervisor hs =>
    have hhere := h.supervisor.here
    cases hs with
    | released pc hpc _ =>
      rw [hpc] at hhere
      exact hhere
    | unreleased hpc => cases hsent
    | _ => exact h.supervisor.sent hsent

/-- Of a row that was observed the acknowledgement was there before. -/
theorem Ordered.acked_before (h : Ordered runId E) (hs : Steps E E') {row : Row F}
    (hrow : row ∈ E'.runner.observed) (hname : IsOf row "workload") : E.supervisor.ackNs ≠ none := by
  cases hs with
  | idle => exact h.acked hrow hname
  | tick t => exact h.acked hrow hname
  | supervisor hs => exact h.acked (hs.runner_eq ▸ hrow) hname
  | runner hs => exact hs.supervisor_eq ▸ (h.step (.runner hs)).acked hrow hname

/-- **The barrier.** In every state of every run: whenever the release has
been sent, before the last step the first row, one of readiness, was
appended and synced, and the Supervisor had verified its receipt; whenever a
row labelled workload has been observed, before the last step the Supervisor
had the target's acknowledgement; of what the two have accepted one is a
beginning of the other; and at the end of both it is the same. -/
theorem release_barrier (r : (exchange (F := F) runId).Run) :
    (∀ n, (r.state n).supervisor.sent = true → ∃ m, n = m + 1 ∧ Persisted (r.state m).runner ∧
      1 ∈ (r.state m).supervisor.verified ∧ ∃ message,
        (r.state m).supervisor.link.accepted[1]? = some message ∧ Receipted (r.state m).runner message) ∧
    (∀ n, ∀ row ∈ (r.state n).runner.observed, IsOf row "workload" →
      ∃ m, n = m + 1 ∧ (r.state m).supervisor.ackNs ≠ none) ∧
    (∀ n, (r.state n).supervisor.link.accepted <+: (r.state n).runner.link.accepted ∨
      (r.state n).runner.link.accepted <+: (r.state n).supervisor.link.accepted) ∧
    ∀ n, (r.state n).supervisor.link.state.sequence = 5 → (r.state n).supervisor.link.state.failed = false →
      (r.state n).runner.link.state.sequence = 5 → (r.state n).runner.link.state.failed = false →
      (r.state n).supervisor.link.accepted = (r.state n).runner.link.accepted ∧
      (r.state n).supervisor.link.accepted.map (fun m => m.get "event") =
        order.map fun ev => .str (text ev) := by
  have hordered := ordered r
  refine ⟨fun n hsent => ?_, fun n row hrow hname => ?_, fun n => (hordered n).agreed.isPrefix,
    fun n hs _ hr _ => (hordered n).transcripts hs hr⟩
  · cases n with
    | zero =>
      obtain ⟨target, bytes, samples, now, hstart⟩ := r.start
      rw [hstart] at hsent
      cases hsent
    | succ m =>
      have hv := (hordered m).verified_of_sent (steps (r.next m)) hsent
      obtain ⟨hp, hreceipt⟩ := (hordered m).persisted hv
      exact ⟨m, rfl, hp, hv, hreceipt⟩
  · cases n with
    | zero =>
      obtain ⟨target, bytes, samples, now, hstart⟩ := r.start
      rw [hstart] at hrow
      cases hrow
    | succ m => exact ⟨m, rfl, (hordered m).acked_before (steps (r.next m)) hrow hname⟩

/-! ### An exchange -/

section Exchanged

theorem Exchange.step_idle (E : Exchange F) : E.step .idle = some E := rfl

/-- A run ID. -/
def zeros : Text := text "00000000000000000000000000000000"

/-- `owner.json`. -/
def ownerFile : Value Unit :=
  .record [("pid", .int 7), ("start_ticks", .int 1), ("pgid", .int 7), ("sid", .int 7)]

/-- What `/proc/7/stat` says of the leader of the group. -/
def leader : Stat := ⟨text "S", 7, 7, 1⟩

/-- The process table has the leader and nothing else. -/
def quietTable (start : ℤ) : Answers where
  startNs := start
  anchorBefore := .ok (some leader)
  opening := .ok [(7, .ok (some leader))]
  rss _ := .ok 4096
  after _ := .ok (some leader)
  closing := .ok [(7, .ok (some leader))]
  anchorAfter := .ok (some leader)
  available := .ok 8192
  endNs := start + 1

/-- Calls of the Supervisor that return. -/
def supervisorCalls (n : ℕ) : List (Exchange.Action Unit) := List.replicate n (.supervisor .go)

/-- Calls of the Runner that return. -/
def runnerCalls (n : ℕ) : List (Exchange.Action Unit) := List.replicate n (.runner .go)

/-- A row is observed, stored, synced and acknowledged. -/
def rowCalls (start : ℤ) : List (Exchange.Action Unit) :=
  [.tick 1, .runner (.table (quietTable start))] ++ runnerCalls 3 ++ [.runner (.stamp (start + 1))] ++ runnerCalls 2

/-- Both take every call of theirs, and none raises: the Runner is called
for two samples. -/
def exchangeScript : List (Exchange.Action Unit) :=
  supervisorCalls 4 ++ [.runner (.read ownerFile)] ++ runnerCalls 3 ++ rowCalls 1 ++
    supervisorCalls 12 ++ [.runner (.read ownerFile)] ++ runnerCalls 5 ++ rowCalls 2 ++ supervisorCalls 3

/-- Where it begins. -/
def unexchanged : Exchange Unit := start zeros ownerFile maxStreamBytes maxSamples 1

/-- **The end of an exchange** in which nothing failed. -/
def Exchange.ended (E : Exchange Unit) : Bool :=
  E.supervisor.sent && (E.runner.observed.any fun row => isText (row.phase.get "name") "workload") &&
    E.supervisor.link.state.sequence == 5 && !E.supervisor.link.state.failed &&
    E.runner.link.state.sequence == 5 && !E.runner.link.state.failed

theorem ended_exchangeScript : ((exchange zeros).finish unexchanged exchangeScript).any Exchange.ended = true := by
  decide +kernel

/-- The exchange is played to its end. -/
theorem plays_exchangeScript : (exchange zeros).plays unexchanged exchangeScript = true ∧
    ((exchange zeros).play unexchanged exchangeScript exchangeScript.length).ended = true := by
  obtain ⟨E, hfinish, hended⟩ := (Option.any_eq_true ..).1 ended_exchangeScript
  obtain ⟨hplays, hplay⟩ := System.plays_of_finish hfinish
  exact ⟨hplays, hplay ▸ hended⟩

/-- The run of the script. -/
def exchangeRun : (exchange (F := Unit) zeros).Run :=
  .ofScript unexchanged exchangeScript .idle Exchange.step_idle ⟨ownerFile, maxStreamBytes, maxSamples, 1, rfl⟩
    plays_exchangeScript.1

theorem exchangeRun_state (n : ℕ) : exchangeRun.state n = (exchange zeros).play unexchanged exchangeScript n := rfl

/-- **All five messages are accepted**, the release is sent between the two
rows, and the barrier held. -/
theorem release_barrier_exchanged : ∃ n, (exchangeRun.state n).supervisor.sent = true ∧
    (∃ row ∈ (exchangeRun.state n).runner.observed, IsOf row "workload") ∧
    (∃ m, n = m + 1 ∧ Persisted (exchangeRun.state m).runner ∧ (exchangeRun.state m).supervisor.ackNs ≠ none) ∧
    (exchangeRun.state n).supervisor.link.accepted = (exchangeRun.state n).runner.link.accepted ∧
    (exchangeRun.state n).supervisor.link.accepted.map (fun m => m.get "event") =
      order.map fun ev => .str (text ev) := by
  obtain ⟨hrelease, hworkload, -, htranscripts⟩ := release_barrier exchangeRun
  have hended : (exchangeRun.state exchangeScript.length).ended = true := by
    rw [exchangeRun_state]
    exact plays_exchangeScript.2
  simp only [Exchange.ended, Bool.and_eq_true, Bool.not_eq_true', beq_iff_eq, List.any_eq_true] at hended
  obtain ⟨⟨⟨⟨⟨hsent, row, hrow, hname⟩, hs⟩, hsup⟩, hr⟩, hrun⟩ := hended
  obtain ⟨m, hm, hpersisted, -⟩ := hrelease _ hsent
  obtain ⟨m', hm', hacked⟩ := hworkload _ row hrow hname
  obtain rfl : m = m' := by omega
  exact ⟨_, hsent, ⟨row, hrow, hname⟩, ⟨m, hm, hpersisted, hacked⟩, htranscripts _ hs hsup hr hrun⟩

end Exchanged

end Barrier

end Bench

end ZkRuntime
