import ZkRuntime.Bench.Model.Barrier
import ZkRuntime.Bench.EventOrder
/-!
# The barrier, step by step

What an endpoint keeps when it sends and when it receives, and the steps of
both parties, one case for each way a call ends.
-/

namespace ZkRuntime

namespace Bench

namespace Barrier

open PyJson Events

variable {F : Type}

/-! ### Endpoints -/

/-- **An endpoint is in order**: it counts what it accepted, and every message
says the place it took. -/
structure Endpoint.Valid (runId : Text) (e : Endpoint F) : Prop where
  sequence : e.state.sequence = e.accepted.length
  sameRun : e.state.runId = runId
  placed : ∀ k m, e.accepted[k]? = some m → ∃ t, Says runId k m t
  remembers : e.state.failed = false → ∃ es, Remembers e.state es

variable {runId : Text} {e e' : Endpoint F} {m : Value F} {now : ℤ}

theorem Endpoint.valid_new (runId : Text) : (Endpoint.new runId : Endpoint F).Valid runId :=
  ⟨rfl, rfl, fun k m h => by simp [Endpoint.new] at h, fun _ => ⟨[], remembers_new runId⟩⟩

theorem Endpoint.Valid.fail (h : e.Valid runId) : e.fail.Valid runId :=
  ⟨h.sequence, h.sameRun, h.placed, nofun⟩

/-- **What an endpoint does with a message**: it accepts it in the next place,
or nothing is accepted. -/
theorem Endpoint.Valid.accept (h : e.Valid runId) (m : Value F) (now : ℤ) :
    (∃ e', e.accept m now = (.ok (), e') ∧ e'.Valid runId ∧ e'.accepted = e.accepted ++ [m] ∧
      ∃ t, Says runId e.accepted.length m t) ∨
    ∃ x e', e.accept m now = (.error x, e') ∧ e'.Valid runId ∧ e'.accepted = e.accepted := by
  rw [Endpoint.accept]
  cases hf : e.state.failed with
  | true =>
    rw [accept_failed hf]
    exact .inr ⟨_, _, rfl, ⟨h.sequence, h.sameRun, h.placed, h.remembers⟩, rfl⟩
  | false =>
    obtain ⟨es, hes⟩ := h.remembers hf
    rcases accept_cases m now hes.memory with ⟨o, stamp, s', hx, hacc⟩ | ⟨reason, o, hx⟩
    · rw [hx]
      obtain ⟨ev, hstands, -, hrem, hrun⟩ := hacc.next hes
      have hlen : es.length = e.accepted.length := hes.sequence.symm.trans h.sequence
      have hsays : Says runId e.accepted.length m ev.stamp := by
        rw [← h.sameRun, ← hlen]
        exact hstands.head
      refine .inl ⟨_, rfl, ⟨?_, hrun.trans h.sameRun, ?_, fun _ => ⟨_, hrem⟩⟩, rfl, _, hsays⟩
      · rw [hrem.sequence, List.length_append, List.length_append, hlen]
        rfl
      · intro k m' hk
        rw [getElem?_snoc] at hk
        split at hk
        next heq =>
          cases hk
          exact ⟨_, heq ▸ hsays⟩
        next => exact h.placed k m' hk
    · rw [hx]
      exact .inr ⟨_, _, rfl, ⟨h.sequence, h.sameRun, h.placed, nofun⟩, rfl⟩

theorem says_place {j k : ℕ} {t u : ℤ} (h : Says runId j m t) (h' : Says runId k m u) : j = k := by
  have := h.sequence.symm.trans h'.sequence
  simpa using this

@[simp] theorem find?_message_sequence (s : State) (ev : String) (target : Value F) (stamp : ℤ) (sample : Value F) :
    (message s ev target stamp sample).find? "sequence" = some (.int (order.idxOf ev)) := by
  simp [message]

/-- **What was sent** took the place of its event. -/
theorem Endpoint.Valid.send (h : e.Valid runId) {ev : String} {target sample : Value F} {stamp : ℤ}
    (hs : e.send ev target stamp sample now = (some m, e')) :
    e'.Valid runId ∧ e'.accepted = e.accepted ++ [m] ∧ e.accepted.length = order.idxOf ev := by
  rw [Endpoint.send] at hs
  rcases h.accept (message e.state ev target stamp sample) now with ⟨e₁, hx, hv, hacc, t, hsays⟩ | ⟨x, e₁, hx, -, -⟩
  · rw [hx] at hs
    cases hs
    have hseq := hsays.sequence
    rw [find?_message_sequence] at hseq
    exact ⟨hv, hacc, by simpa using hseq.symm⟩
  · rw [hx] at hs
    cases hs

theorem Endpoint.Valid.unsent (h : e.Valid runId) {ev : String} {target sample : Value F} {stamp : ℤ}
    (hs : e.send ev target stamp sample now = (none, e')) : e'.Valid runId ∧ e'.accepted = e.accepted := by
  rw [Endpoint.send] at hs
  rcases h.accept (message e.state ev target stamp sample) now with ⟨e₁, hx, -⟩ | ⟨x, e₁, hx, hv, hacc⟩
  · rw [hx] at hs
    cases hs
  · rw [hx] at hs
    cases hs
    exact ⟨hv, hacc⟩

/-- **What was received** took the place it says, and that of its event. -/
theorem Endpoint.Valid.receive (h : e.Valid runId) {k : ℕ} (hk : k < 5)
    (hr : e.receive m (event k) now = (true, e')) :
    e'.Valid runId ∧ e'.accepted = e.accepted ++ [m] ∧ e.accepted.length = k ∧ ∃ t, Says runId k m t := by
  rw [Endpoint.receive] at hr
  rcases h.accept m now with ⟨e₁, hx, hv, hacc, t, hsays⟩ | ⟨x, e₁, hx, -, -⟩
  · rw [hx] at hr
    obtain ⟨htext, rfl⟩ := Prod.mk.inj hr
    obtain ⟨ev, hev, hfound⟩ := hsays.event
    rw [isText, Value.get, hfound, beq_iff_eq] at htext
    have heq : ev = event k := by simpa using htext
    have hlen : e.accepted.length < 5 := hsays.place
    have hplace : e.accepted.length = k := by
      have hk' : order[k]? = some (event k) := by
        rw [event, List.getD_eq_getElem?_getD, List.getElem?_eq_getElem (by exact hk)]
        rfl
      exact (List.getElem?_inj (l := order) hlen (by decide)).1 (hev.trans (heq ▸ hk'.symm))
    exact ⟨hv, hacc, hplace, t, hplace ▸ hsays⟩
  · rw [hx] at hr
    cases hr

theorem Endpoint.Valid.misreceive (h : e.Valid runId) {expected : String}
    (hr : e.receive m expected now = (false, e')) :
    e'.Valid runId ∧ (e'.accepted = e.accepted ∨ e'.accepted = e.accepted ++ [m] ∧
      ∃ t, Says runId e.accepted.length m t) := by
  rw [Endpoint.receive] at hr
  rcases h.accept m now with ⟨e₁, hx, hv, hacc, hsays⟩ | ⟨x, e₁, hx, hv, hacc⟩
  · rw [hx] at hr
    obtain ⟨-, rfl⟩ := Prod.mk.inj hr
    exact ⟨hv, .inr ⟨hacc, hsays⟩⟩
  · rw [hx] at hr
    cases hr
    exact ⟨hv, .inl hacc⟩

/-- `bind` keeps an endpoint in order. -/
theorem Endpoint.Valid.bind (h : e.Valid runId) {target : Value F} {c : Checked Unit} {s : State}
    (hb : e.state.bind target = (c, s)) : ({ e with state := s } : Endpoint F).Valid runId := by
  rw [State.bind] at hb
  have hsame : ∀ o, e.state.owner = none ∨ e.state.owner = some o →
      ({ e with state := { e.state with owner := some o } } : Endpoint F).Valid runId := by
    intro o ho
    refine ⟨h.sequence, h.sameRun, h.placed, fun hf => ?_⟩
    obtain ⟨es, hes⟩ := h.remembers hf
    refine ⟨es, hf, hes.sequence, hes.last, hes.lastOf, fun ev hev => ?_, hes.ready, hes.ackNs, hes.causal⟩
    rcases ho with ho | ho
    · rw [hes.owner ev hev] at ho
      cases ho
    · exact ho.symm.trans (hes.owner ev hev)
  split at hb
  · obtain ⟨-, rfl⟩ := Prod.mk.inj hb
    exact h
  · split at hb
    next ho =>
      obtain ⟨-, rfl⟩ := Prod.mk.inj hb
      exact hsame _ ho
    next =>
      obtain ⟨-, rfl⟩ := Prod.mk.inj hb
      exact h

/-! ### The steps -/

/-- Where the Supervisor sends the message `k` from. -/
def Supervisor.Sends (s : Supervisor F) (k : ℕ) : Prop :=
  (s.pc = .ready ∧ k = 0) ∨ (s.pc = .released ∧ k = 2) ∨ (s.pc = .acknowledged ∧ k = 3)

/-- **The steps of the Supervisor.** -/
inductive SupervisorSteps (E : Exchange F) : Exchange F → Prop where
  | stopped : SupervisorSteps E (E.putSupervisor { E.supervisor with pc := .stopped })
  | identified (h : E.supervisor.pc = .starting) :
      SupervisorSteps E (E.putSupervisor { E.supervisor with pc := .ready, identifiedNs := E.now })
  | sent (k : ℕ) (o : Identity) (stamp : ℤ) (m : Value F) (l : Endpoint F) (h : E.supervisor.Sends k)
      (hs : E.supervisor.link.send (event k) o.toJson stamp .null E.now = (some m, l)) :
      SupervisorSteps E (E.putSupervisor { E.supervisor with pc := .framing k m, link := l })
  | unsent (k : ℕ) (o : Identity) (stamp : ℤ) (l : Endpoint F) (h : E.supervisor.Sends k)
      (hs : E.supervisor.link.send (event k) o.toJson stamp .null E.now = (none, l)) :
      SupervisorSteps E (E.putSupervisor { E.supervisor with pc := .stopped, link := l })
  | framed (k : ℕ) (m : Value F) (pc : SupervisorPc F) (h : E.supervisor.pc = .framing k m)
      (hpc : pc = .recording k ∨ pc = .stopped) :
      SupervisorSteps E { E.putSupervisor { E.supervisor with pc := pc } with toRunner := E.toRunner ++ [m] }
  | recorded (k : ℕ) (h : E.supervisor.pc = .recording k) :
      SupervisorSteps E (E.putSupervisor { E.supervisor with pc := if k = 2 then .awaiting else .waiting (k + 1) })
  | read (k : ℕ) (m : Value F) (rest : List (Value F)) (l : Endpoint F) (h : E.supervisor.pc = .waiting k)
      (hq : E.toSupervisor = m :: rest) (hr : E.supervisor.link.receive m (event k) E.now = (true, l)) :
      SupervisorSteps E { E.putSupervisor { E.supervisor with pc := .received k, link := l } with toSupervisor := rest }
  | misread (k : ℕ) (m : Value F) (rest : List (Value F)) (l : Endpoint F) (h : E.supervisor.pc = .waiting k)
      (hq : E.toSupervisor = m :: rest) (hr : E.supervisor.link.receive m (event k) E.now = (false, l)) :
      SupervisorSteps E { E.putSupervisor { E.supervisor with pc := .stopped, link := l } with toSupervisor := rest }
  | kept (k : ℕ) (h : E.supervisor.pc = .received k) :
      SupervisorSteps E (E.putSupervisor { E.supervisor with pc := .verifying k })
  | verified (k : ℕ) (h : E.supervisor.pc = .verifying k) :
      SupervisorSteps E (E.putSupervisor { E.supervisor with
        pc := if k = 1 then .holding else .complete
        verified := E.supervisor.verified ++ [k] })
  | began (h : E.supervisor.pc = .holding) :
      SupervisorSteps E (E.putSupervisor { E.supervisor with pc := .releasing, releaseBeginNs := some E.now })
  | released (pc : SupervisorPc F) (h : E.supervisor.pc = .releasing) (hpc : pc = .released ∨ pc = .stopped) :
      SupervisorSteps E (E.putSupervisor { E.supervisor with pc := pc, sent := true })
  | unreleased (h : E.supervisor.pc = .releasing) :
      SupervisorSteps E (E.putSupervisor { E.supervisor with pc := .stopped, sent := false })
  | acknowledged (h : E.supervisor.pc = .awaiting) :
      SupervisorSteps E (E.putSupervisor { E.supervisor with pc := .acknowledged, ackNs := some E.now })
  | failed (h : E.supervisor.pc = .stopped) :
      SupervisorSteps E (E.putSupervisor { E.supervisor with link := E.supervisor.link.fail })

theorem supervisorSend_steps {E : Exchange F} {k : ℕ} {stamp : ℤ} (h : E.supervisor.Sends k) :
    SupervisorSteps E (E.supervisorSend k stamp) := by
  rw [Exchange.supervisorSend]
  split
  · exact .stopped
  next o _ =>
    cases hs : E.supervisor.link.send (event k) o.toJson stamp .null E.now with
    | mk r l =>
      cases r with
      | some m => exact .sent k o stamp m l h hs
      | none => exact .unsent k o stamp l h hs

/-- What `supervisorGo` does is one of the steps. -/
theorem supervisorGo_steps {E E' : Exchange F} (h : E.supervisorGo E.supervisor.pc = some E') :
    SupervisorSteps E E' := by
  cases hpc : E.supervisor.pc with
  | waiting k =>
    rw [hpc, Exchange.supervisorGo, Exchange.supervisorReceive] at h
    cases hq : E.toSupervisor with
    | nil =>
      rw [hq] at h
      cases h
    | cons m rest =>
      rw [hq] at h
      dsimp only at h
      cases hr : E.supervisor.link.receive m (event k) E.now with
      | mk b l =>
        rw [hr] at h
        cases b <;> cases h
        · exact .misread k m rest l hpc hq hr
        · exact .read k m rest l hpc hq hr
  | complete =>
    rw [hpc] at h
    cases h
  | ready =>
    rw [hpc] at h
    cases h
    exact supervisorSend_steps (.inl ⟨hpc, rfl⟩)
  | released =>
    rw [hpc] at h
    cases h
    exact supervisorSend_steps (.inr (.inl ⟨hpc, rfl⟩))
  | acknowledged =>
    rw [hpc] at h
    cases h
    exact supervisorSend_steps (.inr (.inr ⟨hpc, rfl⟩))
  | starting =>
    rw [hpc] at h
    cases h
    exact .identified hpc
  | framing k m =>
    rw [hpc] at h
    cases h
    exact .framed k m _ hpc (.inl rfl)
  | recording k =>
    rw [hpc] at h
    cases h
    exact .recorded k hpc
  | received k =>
    rw [hpc] at h
    cases h
    exact .kept k hpc
  | verifying k =>
    rw [hpc] at h
    cases h
    exact .verified k hpc
  | holding =>
    rw [hpc] at h
    cases h
    exact .began hpc
  | releasing =>
    rw [hpc] at h
    cases h
    exact .released _ hpc (.inl rfl)
  | awaiting =>
    rw [hpc] at h
    cases h
    exact .acknowledged hpc
  | stopped =>
    rw [hpc] at h
    cases h
    exact .failed hpc

theorem supervisorRaise_steps {E E' : Exchange F} {done : Bool}
    (h : E.supervisorRaise done E.supervisor.pc = some E') : SupervisorSteps E E' := by
  cases hpc : E.supervisor.pc with
  | framing k m =>
    rw [hpc] at h
    cases h
    cases done
    · exact .stopped
    · exact .framed k m _ hpc (.inr rfl)
  | releasing =>
    rw [hpc] at h
    cases h
    cases done
    · exact .unreleased hpc
    · exact .released _ hpc (.inr rfl)
  | complete | stopped =>
    rw [hpc] at h
    cases h
  | _ =>
    rw [hpc] at h
    cases h
    exact .stopped

variable [Floats F]

/-- A row as the monitor observes it. -/
structure Exchange.Observes (E : Exchange F) (row : Row F) (phase : Value F) : Prop where
  phase : row.phase = phase
  sequence : row.sequence = E.runner.recorder.folds.samples

/-- **The steps of the Runner.** -/
inductive RunnerSteps (E : Exchange F) : Exchange F → Prop where
  | stopped (l : Endpoint F) (h : l = E.runner.link ∨ l = E.runner.link.fail) :
      RunnerSteps E (E.putRunner { E.runner with pc := .stopped, link := l })
  | begun (o : Option Identity) (s : State) (target : Value F) (c : Checked Unit) (h : E.runner.pc = .idle)
      (hs : s = E.runner.link.state ∨ E.runner.link.state.bind target = (c, s)) :
      RunnerSteps E (E.putRunner { E.runner with
        pc := .dispatch, owner := o, link := { E.runner.link with state := s } })
  | unbound (o : Option Identity) (s : State) (target : Value F) (c : Checked Unit) (h : E.runner.pc = .idle)
      (hs : E.runner.link.state.bind target = (c, s)) :
      RunnerSteps E (E.stopRunner { E.runner with owner := o, link := { E.runner.link with state := s } })
  | dispatched (h : E.runner.pc = .dispatch) :
      RunnerSteps E (E.putRunner { E.runner with
        pc := if E.runner.link.state.sequence = 0 ∨ E.runner.link.state.sequence = 2 then
          .waiting E.runner.link.state.sequence else .observing })
  | read (k : ℕ) (m : Value F) (rest : List (Value F)) (l : Endpoint F) (h : E.runner.pc = .waiting k)
      (hq : E.toRunner = m :: rest) (hr : E.runner.link.receive m (event k) E.now = (true, l)) :
      RunnerSteps E { E.putRunner { E.runner with pc := .received k m, link := l } with toRunner := rest }
  | misread (k : ℕ) (m : Value F) (rest : List (Value F)) (l : Endpoint F) (h : E.runner.pc = .waiting k)
      (hq : E.toRunner = m :: rest) (hr : E.runner.link.receive m (event k) E.now = (false, l)) :
      RunnerSteps E { E.stopRunner { E.runner with link := l } with toRunner := rest }
  | phased (k : ℕ) (m : Value F) (h : E.runner.pc = .received k m) : RunnerSteps E (E.runnerPhase m k)
  | observed (row : Row F) (phase : Value F) (h : E.runner.pc = .observing) (hp : E.runner.phase = some phase)
      (hrow : E.Observes row phase) :
      RunnerSteps E (E.putRunner { E.runner with
        pc := .appending row, observed := E.runner.observed ++ [row] })
  | appended (row : Row F) (rec : Recorder) (h : E.runner.pc = .appending row)
      (ha : E.runner.recorder.append row.toJson = some rec) :
      RunnerSteps E (E.putRunner { E.runner with
        pc := .checking row, recorder := rec, rows := E.runner.rows ++ [row] })
  | unappended (row : Row F) (h : E.runner.pc = .appending row) :
      RunnerSteps E (E.stopRunner { E.runner with
        recorder := { E.runner.recorder with error := some "storage_failure" } })
  | checked (row : Row F) (h : E.runner.pc = .checking row)
      (hseq : E.runner.link.state.sequence ≠ 1 ∧ E.runner.link.state.sequence ≠ 4) :
      RunnerSteps E (E.putRunner { E.runner with pc := .idle })
  | complete (row : Row F) (h : E.runner.pc = .checking row) :
      RunnerSteps E (E.putRunner { E.runner with pc := .syncing row })
  | synced (row : Row F) (h : E.runner.pc = .syncing row) :
      RunnerSteps E (E.putRunner { E.runner with pc := .sending row, synced := E.runner.rows.length })
  | sent (k : ℕ) (row : Row F) (o : Identity) (stamp : ℤ) (m : Value F) (l : Endpoint F)
      (h : E.runner.pc = .sending row) (hk : k = 1 ∨ k = 4)
      (hs : E.runner.link.send (event k) o.toJson stamp (Exchange.receipt E.runner.recorder row) E.now = (some m, l)) :
      RunnerSteps E (E.putRunner { E.runner with pc := .framing m, link := l })
  | unsent (k : ℕ) (row : Row F) (o : Identity) (stamp : ℤ) (l : Endpoint F) (h : E.runner.pc = .sending row)
      (hs : E.runner.link.send (event k) o.toJson stamp (Exchange.receipt E.runner.recorder row) E.now = (none, l)) :
      RunnerSteps E (E.stopRunner { E.runner with link := l })
  | framed (m : Value F) (h : E.runner.pc = .framing m) :
      RunnerSteps E { E.putRunner { E.runner with pc := .recording } with toSupervisor := E.toSupervisor ++ [m] }
  | framedStopped (m : Value F) (l : Endpoint F) (h : E.runner.pc = .framing m)
      (hl : l = E.runner.link ∨ l = E.runner.link.fail) :
      RunnerSteps E { E.putRunner { E.runner with pc := .stopped, link := l } with
        toSupervisor := E.toSupervisor ++ [m] }
  | recorded (h : E.runner.pc = .recording) : RunnerSteps E (E.putRunner { E.runner with pc := .idle })
  | left (pc : RunnerPc F) (hpc : pc = .cleaning ∨ pc = .finished) :
      RunnerSteps E (E.putRunner { E.runner with pc := pc })
  | cleaned (row : Row F) (o : Identity) (stamp : ℤ) (h : E.runner.pc = .cleaning)
      (hrow : E.Observes row (Exchange.cleanup o stamp)) :
      RunnerSteps E (E.putRunner { E.runner with
        pc := .closing row, observed := E.runner.observed ++ [row] })
  | closed (row : Row F) (rec : Recorder) (h : E.runner.pc = .closing row)
      (ha : E.runner.recorder.append row.toJson = some rec) :
      RunnerSteps E (E.putRunner { E.runner with
        pc := .finished, recorder := rec, rows := E.runner.rows ++ [row] })

theorem runnerBegin_steps {E : Exchange F} (file : Value F) (hpc : E.runner.pc = .idle) :
    RunnerSteps E (E.runnerBegin file) := by
  rw [Exchange.runnerBegin]
  dsimp only
  split
  next o ho =>
    have := RunnerSteps.begun (some o) E.runner.link.state .null (.ok ()) hpc (.inl rfl)
    rwa [← ho] at this
  · split
    · exact .stopped _ (.inr rfl)
    next o _ =>
      cases hb : E.runner.link.state.bind (o.toJson : Value F) with
      | mk r s =>
        cases r with
        | ok => exact .begun _ s _ _ hpc (.inr hb)
        | error x => exact .unbound _ s _ _ hpc hb

theorem runnerReceive_steps {E E' : Exchange F} {k : ℕ} (hpc : E.runner.pc = .waiting k)
    (h : E.runnerReceive k = some E') : RunnerSteps E E' := by
  rw [Exchange.runnerReceive] at h
  cases hq : E.toRunner with
  | nil =>
    rw [hq] at h
    cases h
  | cons m rest =>
    rw [hq] at h
    dsimp only at h
    cases hr : E.runner.link.receive m (event k) E.now with
    | mk b l =>
      rw [hr] at h
      cases b <;> cases h
      · exact .misread k m rest l hpc hq hr
      · exact .read k m rest l hpc hq hr

theorem runnerCheck_steps {E : Exchange F} {row : Row F} (hpc : E.runner.pc = .checking row) :
    RunnerSteps E (E.runnerCheck row) := by
  rw [Exchange.runnerCheck]
  split
  · split
    · split
      · exact .complete row hpc
      · exact .stopped _ (.inr rfl)
    next hseq => exact .checked row hpc (not_or.1 hseq)
  · exact .stopped _ (.inr rfl)

theorem runnerSend_steps {E E' : Exchange F} {row : Row F} {stamp : ℤ} (hpc : E.runner.pc = .sending row)
    (h : E.runnerSend row stamp = some E') : RunnerSteps E E' := by
  rw [Exchange.runnerSend] at h
  obtain ⟨o, -, h⟩ := Option.map_eq_some_iff.1 h
  have hev : ∃ k, (k = 1 ∨ k = 4) ∧
      (if E.runner.link.state.sequence = 1 then event 1 else event 4) = event k := by
    split
    · exact ⟨1, .inl rfl, rfl⟩
    · exact ⟨4, .inr rfl, rfl⟩
  obtain ⟨k, hk, hev⟩ := hev
  rw [hev] at h
  cases hs : E.runner.link.send (event k) o.toJson stamp (Exchange.receipt E.runner.recorder row) E.now with
  | mk r l =>
    rw [hs] at h
    cases r <;> cases h
    · exact .unsent k row o stamp l hpc hs
    · exact .sent k row o stamp _ l hpc hk hs

theorem runnerGo_steps {E E' : Exchange F} {pc : RunnerPc F} {c : Exchange.RunnerChoice F} (hpc : E.runner.pc = pc)
    (h : E.runnerGo pc c = some E') : RunnerSteps E E' := by
  rw [Exchange.runnerGo.eq_def] at h
  split at h
  · cases h
    exact runnerBegin_steps _ hpc
  · cases h
    exact .dispatched hpc
  · exact runnerReceive_steps hpc h
  · cases h
    exact .phased _ _ hpc
  · split at h
    next hp =>
      cases h
      exact .observed _ _ hpc hp ⟨rfl, rfl⟩
    · cases h
      exact .stopped _ (.inr rfl)
  · split at h
    next ha =>
      cases h
      exact .appended _ _ hpc ha
    · cases h
      exact .unappended _ hpc
  · cases h
    exact runnerCheck_steps hpc
  · cases h
    exact .synced _ hpc
  · exact runnerSend_steps hpc h
  · cases h
    exact .framed _ hpc
  · cases h
    exact .recorded hpc
  · split at h
    · cases h
      exact .left _ (.inl rfl)
    · cases h
      exact .left _ (.inr rfl)
  · split at h
    · cases h
      exact .left _ (.inl rfl)
    · cases h
      exact .left _ (.inr rfl)
  · obtain ⟨o, -, h⟩ := Option.map_eq_some_iff.1 h
    cases h
    exact .cleaned _ o _ hpc ⟨rfl, rfl⟩
  · split at h
    next ha =>
      cases h
      exact .closed _ _ hpc ha
    · cases h
      exact .left _ (.inr rfl)
  · cases h

theorem runnerRaise_steps {E E' : Exchange F} {pc : RunnerPc F} {done caught : Bool} (hpc : E.runner.pc = pc)
    (h : E.runnerRaise done caught pc = some E') : RunnerSteps E E' := by
  have hlink : (if caught = true then E.runner.link.fail else E.runner.link) = E.runner.link ∨
      (if caught = true then E.runner.link.fail else E.runner.link) = E.runner.link.fail := by
    cases caught
    · exact .inl rfl
    · exact .inr rfl
  rw [Exchange.runnerRaise.eq_def] at h
  split at h
  · cases h
    cases done
    · exact .stopped _ hlink
    · exact .framedStopped _ _ hpc hlink
  · cases h
    exact .left _ (.inr rfl)
  · cases h
    exact .left _ (.inr rfl)
  · cases h
    exact .left _ (.inr rfl)
  · cases h
  · cases h
    exact .stopped _ hlink

/-- **The steps of both.** -/
inductive Steps (E : Exchange F) : Exchange F → Prop where
  | idle : Steps E E
  | tick (t : ℕ) : Steps E { E with now := E.now + t }
  | supervisor {E' : Exchange F} (h : SupervisorSteps E E') : Steps E E'
  | runner {E' : Exchange F} (h : RunnerSteps E E') : Steps E E'

theorem steps {E E' : Exchange F} {a : Exchange.Action F} (h : E.step a = some E') : Steps E E' := by
  rw [Exchange.step.eq_def] at h
  split at h
  · cases h
    exact .idle
  · exact .supervisor (supervisorGo_steps h)
  · exact .supervisor (supervisorRaise_steps h)
  · exact .runner (runnerRaise_steps rfl h)
  · exact .runner (runnerGo_steps rfl h)
  · cases h
    exact .tick _

end Barrier

end Bench

end ZkRuntime
