import ZkRuntime.Bench.Helpers.BarrierOrder
import ZkRuntime.Bench.Helpers.Folding
/-!
# Where the parties of the barrier are

`SupervisorPlaced` and `RunnerPlaced`: what each party has done by the place
it is at. With `Agreed` every step keeps them.
-/

namespace ZkRuntime

namespace Bench

namespace Barrier

open PyJson Events

variable {F : Type} {runId : Text} {E E' : Exchange F}

/-! ### The Supervisor -/

/-- **What the Supervisor has done** by the place it is at. -/
structure SupervisorPlaced (s : Supervisor F) : Prop where
  sent : s.sent = true → 1 ∈ s.verified
  verified : 1 ∈ s.verified → 2 ≤ s.link.accepted.length
  acked : 4 ≤ s.link.accepted.length → s.ackNs ≠ none
  here : match s.pc with
    | .recording k => OfSupervisor k
    | .waiting k => OfRunner k
    | .received k | .verifying k => OfRunner k ∧ k < s.link.accepted.length
    | .holding | .releasing | .released => 1 ∈ s.verified
    | .acknowledged => s.ackNs ≠ none
    | .framing k _ => OfSupervisor k
    | _ => True

theorem supervisorPlaced_start (target : Value F) (bytes samples : ℕ) (now : ℤ) :
    SupervisorPlaced (start runId target bytes samples now).supervisor where
  sent h := by simp [start] at h
  verified h := by simp [start] at h
  acked h := by simp [start, Endpoint.new] at h
  here := trivial

theorem Supervisor.Sends.ofSupervisor {s : Supervisor F} {k : ℕ} (h : s.Sends k) : OfSupervisor k := by
  rcases h with ⟨-, h⟩ | ⟨-, h⟩ | ⟨-, h⟩
  · exact .inl h
  · exact .inr (.inl h)
  · exact .inr (.inr h)

theorem idxOf_event {k : ℕ} (h : k < 5) : order.idxOf (event k) = k := by
  interval_cases k <;> decide

theorem OfSupervisor.lt {k : ℕ} (h : OfSupervisor k) : k < 5 := by
  unfold OfSupervisor at h
  omega

theorem OfRunner.lt {k : ℕ} (h : OfRunner k) : k < 5 := by
  unfold OfRunner at h
  omega

/-- **What the Supervisor accepts from the Runner** has the Runner's place. -/
theorem SupervisorPlaced.accepts {s : Supervisor F} (h : SupervisorPlaced s) {l : Endpoint F} {m : Value F}
    {pc : SupervisorPc F} (hl : l.accepted = s.link.accepted ++ [m]) (hk : OfRunner s.link.accepted.length)
    (hpc : pc = .received s.link.accepted.length ∨ pc = .stopped) :
    SupervisorPlaced { s with pc := pc, link := l } := by
  have hlen : l.accepted.length = s.link.accepted.length + 1 := by
    rw [hl, List.length_append]
    rfl
  refine ⟨h.sent, fun hv => ?_, fun h4 => h.acked ?_, ?_⟩
  · have := h.verified hv
    show 2 ≤ l.accepted.length
    omega
  · have h4 : 4 ≤ l.accepted.length := h4
    unfold OfRunner at hk
    omega
  · rcases hpc with rfl | rfl
    · exact ⟨hk, by show _ < l.accepted.length; omega⟩
    · trivial

/-- **Every step of the Supervisor.** -/
theorem SupervisorSteps.keep (hs : SupervisorSteps E E') (ha : Agreed runId E)
    (h : SupervisorPlaced E.supervisor) : Agreed runId E' ∧ SupervisorPlaced E'.supervisor := by
  have hhere := h.here
  cases hs with
  | stopped =>
    exact ⟨ha.supervisorMoves ha.supervisor rfl rfl rfl rfl (by rintro _ _ ⟨⟩),
      h.sent, h.verified, h.acked, trivial⟩
  | identified =>
    exact ⟨ha.supervisorMoves ha.supervisor rfl rfl rfl rfl (by rintro _ _ ⟨⟩),
      h.sent, h.verified, h.acked, trivial⟩
  | sent k o stamp m l hk hs =>
    obtain ⟨hv, hacc, hlen⟩ := ha.supervisor.send hs
    have hw := hk.ofSupervisor
    rw [idxOf_event hw.lt] at hlen
    refine ⟨ha.supervisorAccepts hv hacc (.inl (hlen ▸ hw)) rfl rfl (fun _ hm => hm) ?_, h.sent, ?_, ?_, hw⟩
    · intro k' m' hpc
      cases hpc
      exact ⟨hw, hlen.symm, rfl⟩
    · intro hver
      have := h.verified hver
      show 2 ≤ l.accepted.length
      rw [hacc, List.length_append]
      omega
    · intro h4
      have h4 : 4 ≤ l.accepted.length := h4
      rw [hacc, List.length_append, List.length_singleton] at h4
      -- only the third message gets this far, and it is sent behind the acknowledgement
      rcases hk with ⟨-, rfl⟩ | ⟨-, rfl⟩ | ⟨hpc, rfl⟩
      · omega
      · omega
      · rw [hpc] at hhere
        exact hhere
  | unsent k o stamp l hk hs =>
    obtain ⟨hv, hacc⟩ := ha.supervisor.unsent hs
    exact ⟨ha.supervisorMoves hv hacc rfl rfl rfl (by rintro _ _ ⟨⟩),
      h.sent, fun hver => hacc ▸ h.verified hver, fun h4 => h.acked (hacc ▸ h4), trivial⟩
  | framed k m pc hpc hto =>
    rw [hpc] at hhere
    refine ⟨ha.frame ha.supervisor ha.runner rfl rfl ?_ (fun _ hm => .inl hm) ?_ fun _ hm => hm,
      h.sent, h.verified, h.acked, ?_⟩
    · intro m' hm'
      rcases List.mem_append.1 hm' with hm' | hm'
      · exact .inl hm'
      · rw [List.mem_singleton.1 hm']
        exact .inr ⟨k, hpc⟩
    · rcases hto with rfl | rfl <;> rintro _ _ ⟨⟩
    · rcases hto with rfl | rfl
      · exact hhere
      · trivial
  | recorded k hpc =>
    rw [hpc] at hhere
    refine ⟨ha.supervisorMoves ha.supervisor rfl rfl rfl rfl ?_,
      h.sent, h.verified, h.acked, ?_⟩
    · intro k' m' hf
      dsimp only [Exchange.putSupervisor] at hf
      split at hf <;> cases hf
    · dsimp only [Exchange.putSupervisor]
      rcases hhere with rfl | rfl | rfl
      · exact .inl rfl
      · trivial
      · exact .inr rfl
  | read k m rest l hpc hq hr =>
    rw [hpc] at hhere
    have hmem : m ∈ E.toSupervisor := hq ▸ List.mem_cons_self
    obtain ⟨hv, hacc, hlen, t, hsaid⟩ := ha.supervisor.receive hhere.lt hr
    obtain ⟨hw, hthere⟩ := ha.fromRunner hmem hsaid
    subst hlen
    refine ⟨ha.supervisorAccepts hv hacc (.inr hthere) rfl rfl ?_ (by rintro _ _ ⟨⟩), h.accepts hacc hw (.inl rfl)⟩
    intro m' hm'
    exact hq ▸ List.mem_cons_of_mem _ hm'
  | misread k m rest l hpc hq hr =>
    have hmem : m ∈ E.toSupervisor := hq ▸ List.mem_cons_self
    have hsub : ∀ m' ∈ rest, m' ∈ E.toSupervisor := fun m' hm' => hq ▸ List.mem_cons_of_mem _ hm'
    obtain ⟨hv, hacc | ⟨hacc, t, hsaid⟩⟩ := ha.supervisor.misreceive hr
    · exact ⟨ha.frame hv ha.runner hacc rfl (fun _ hm => .inl hm) (fun m' hm' => .inl (hsub m' hm')) (by rintro _ _ ⟨⟩)
        fun _ hm => hm, h.sent, fun hver => hacc ▸ h.verified hver, fun h4 => h.acked (hacc ▸ h4), trivial⟩
    · obtain ⟨hw, hthere⟩ := ha.fromRunner hmem hsaid
      exact ⟨ha.supervisorAccepts hv hacc (.inr hthere) rfl rfl hsub (by rintro _ _ ⟨⟩), h.accepts hacc hw (.inr rfl)⟩
  | kept k hpc =>
    rw [hpc] at hhere
    exact ⟨ha.supervisorMoves ha.supervisor rfl rfl rfl rfl (by rintro _ _ ⟨⟩),
      h.sent, h.verified, h.acked, hhere⟩
  | verified k hpc =>
    rw [hpc] at hhere
    refine ⟨ha.supervisorMoves ha.supervisor rfl rfl rfl rfl ?_,
      fun hsent => List.mem_append_left _ (h.sent hsent), fun hver => ?_, h.acked, ?_⟩
    · intro k' m' hf
      dsimp only [Exchange.putSupervisor] at hf
      split at hf <;> cases hf
    · rcases List.mem_append.1 hver with hver | hver
      · exact h.verified hver
      · have hk : 1 = k := List.mem_singleton.1 hver
        subst hk
        exact hhere.2
    · dsimp only [Exchange.putSupervisor]
      rcases hhere.1 with rfl | rfl
      · exact List.mem_append_right _ (List.mem_singleton_self _)
      · trivial
  | began hpc =>
    rw [hpc] at hhere
    exact ⟨ha.supervisorMoves ha.supervisor rfl rfl rfl rfl (by rintro _ _ ⟨⟩),
      h.sent, h.verified, h.acked, hhere⟩
  | released pc hpc hto =>
    rw [hpc] at hhere
    refine ⟨ha.supervisorMoves ha.supervisor rfl rfl rfl rfl ?_,
      fun _ => hhere, h.verified, h.acked, ?_⟩
    · rcases hto with rfl | rfl <;> rintro _ _ ⟨⟩
    · rcases hto with rfl | rfl
      · exact hhere
      · trivial
  | unreleased hpc =>
    exact ⟨ha.supervisorMoves ha.supervisor rfl rfl rfl rfl (by rintro _ _ ⟨⟩),
      (by rintro ⟨⟩), h.verified, h.acked, trivial⟩
  | acknowledged hpc =>
    exact ⟨ha.supervisorMoves ha.supervisor rfl rfl rfl rfl (by rintro _ _ ⟨⟩),
      h.sent, h.verified, fun _ => (by rintro ⟨⟩), (by rintro ⟨⟩)⟩
  | failed hpc =>
    refine ⟨ha.supervisorMoves ha.supervisor.fail rfl rfl rfl rfl (fun _ _ hm => hm), h.sent, h.verified, h.acked, ?_⟩
    dsimp only [Exchange.putSupervisor]
    rw [hpc]
    trivial

/-! ### The Runner -/

/-- The phase a row is labelled with. -/
def IsOf (row : Row F) (name : String) : Prop := isText (row.phase.get "name") name = true

/-- **The first row is that of readiness, and it is on the disk.** -/
def Persisted (r : Runner F) : Prop :=
  ∃ row rest, r.rows = row :: rest ∧ row.sequence = 0 ∧ IsOf row "readiness" ∧ 1 ≤ r.synced

/-- **A message carries the receipt of the first row.** -/
def Receipted (r : Runner F) (m : Value F) : Prop :=
  ∃ row rec, r.rows.head? = some row ∧ m.get "sample" = Exchange.receipt rec row

/-- A row that would be the first, and of readiness. -/
def First (row : Row F) : Prop := row.sequence = 0 ∧ IsOf row "readiness"

/-- **What the Runner has done** by the place it is at. -/
structure RunnerPlaced (r : Runner F) : Prop where
  counted : r.recorder.folds.samples = r.rows.length
  persisted : 2 ≤ r.link.accepted.length → Persisted r
  receipt : ∀ m, r.link.accepted[1]? = some m → Receipted r m
  phase : ∀ p, r.phase = some p → isText (p.get "name") "workload" = true → 4 ≤ r.link.accepted.length
  observed : ∀ row ∈ r.observed, IsOf row "workload" → 4 ≤ r.link.accepted.length
  here : match r.pc with
    | .idle | .dispatch | .framing _ | .recording =>
      r.link.accepted.length ≠ 1 ∧ (r.link.accepted.length = 0 → r.rows = [])
    | .waiting k => OfSupervisor k ∧ r.link.accepted.length ≠ 1 ∧ (r.link.accepted.length = 0 → r.rows = [])
    | .received k _ => OfSupervisor k ∧ r.link.accepted.length = k + 1 ∧ (k = 0 → r.rows = [])
    | .observing => r.link.accepted.length ≠ 0 ∧ (r.link.accepted.length = 1 → r.rows = [] ∧
        ∀ p, r.phase = some p → isText (p.get "name") "readiness" = true)
    | .appending row => r.link.accepted.length ≠ 0 ∧ (r.link.accepted.length = 1 → r.rows = [] ∧ First row)
    | .checking row | .syncing row =>
      r.link.accepted.length ≠ 0 ∧ (r.link.accepted.length = 1 → r.rows = [row] ∧ First row)
    | .sending row => r.link.accepted.length = 1 → Persisted r ∧ r.rows.head? = some row
    | _ => True

theorem runnerPlaced_start (target : Value F) (bytes samples : ℕ) (now : ℤ) :
    RunnerPlaced (start runId target bytes samples now).runner where
  counted := rfl
  persisted h := by simp [start, Endpoint.new] at h
  receipt m h := by simp [start, Endpoint.new] at h
  phase p h := by simp [start] at h
  observed row h := by simp [start] at h
  here := ⟨by simp [start, Endpoint.new], fun _ => rfl⟩

theorem isOf_phaseOf {name other kind : String} {m : Value F}
    (h : isText ((Exchange.phaseOf name kind m).get "name") other = true) : name = other := by
  have hget : (Exchange.phaseOf name kind m).get "name" = .str (text name) :=
    Value.get_of_find? (by simp [Exchange.phaseOf])
  rw [hget, isText] at h
  simpa using h

theorem isOf_phaseOf_self {name kind : String} {m : Value F} :
    isText ((Exchange.phaseOf name kind m).get "name") name = true := by
  have hget : (Exchange.phaseOf name kind m).get "name" = .str (text name) :=
    Value.get_of_find? (by simp [Exchange.phaseOf])
  rw [hget, isText]
  simp

theorem not_isOf_cleanup {row : Row F} {o : Identity} {stamp : ℤ} (h : row.phase = Exchange.cleanup o stamp) :
    ¬ IsOf row "workload" := by
  have hget : (Exchange.cleanup o stamp : Value F).get "name" = .str (text "cleanup") :=
    Value.get_of_find? (by simp [Exchange.cleanup])
  rw [IsOf, h, hget, isText]
  simp

section Store

variable [Floats F]

/-- A row that is appended is counted. -/
theorem samples_append {rec rec' : Recorder} {row : Value F} (h : rec.append row = some rec') :
    rec'.folds.samples = rec.folds.samples + 1 := by
  obtain ⟨line, -, -, -, -, -, hcount⟩ := Recorder.append_inv h
  exact (Recorder.appended_of_count hcount).samples

end Store

theorem Persisted.append {r r' : Runner F} (h : Persisted r) (row : Row F) (hrows : r'.rows = r.rows ++ [row])
    (hsynced : r'.synced = r.synced) : Persisted r' := by
  obtain ⟨first, rest, heq, hseq, hof, hone⟩ := h
  exact ⟨first, rest ++ [row], by rw [hrows, heq, List.cons_append], hseq, hof, hsynced ▸ hone⟩

theorem Receipted.append {r r' : Runner F} {m : Value F} (h : Receipted r m) (row : Row F)
    (hrows : r'.rows = r.rows ++ [row]) : Receipted r' m := by
  obtain ⟨first, rec, hhead, hsample⟩ := h
  refine ⟨first, rec, ?_, hsample⟩
  rw [hrows, List.head?_append, hhead]
  rfl

theorem Endpoint.message_of_send [Floats F] {e l : Endpoint F} {ev : String} {target sample m : Value F} {stamp now : ℤ}
    (h : e.send ev target stamp sample now = (some m, l)) : m.get "sample" = sample := by
  rw [Endpoint.send] at h
  split at h
  · cases h
    exact Value.get_of_find? (by simp [message])
  · cases h

/-- A step in which the Runner accepts nothing, and goes to a place that asks
for no more than it has. -/
theorem RunnerPlaced.frame {r r' : Runner F} (h : RunnerPlaced r)
    (hacc : r'.link.accepted = r.link.accepted) (hphase : r'.phase = r.phase) (hrec : r'.recorder.folds = r.recorder.folds)
    (hobs : r'.observed = r.observed) (hrows : r'.rows = r.rows) (hsynced : r'.synced = r.synced)
    (hpc : r'.pc = .stopped ∨ r'.pc = .cleaning ∨ r'.pc = .finished) : RunnerPlaced r' where
  counted := by rw [hrec, hrows]; exact h.counted
  persisted h2 := by
    obtain ⟨first, rest, heq, hfirst⟩ := h.persisted (hacc ▸ h2)
    exact ⟨first, rest, hrows ▸ heq, hsynced ▸ hfirst⟩
  receipt m hm := by
    obtain ⟨first, rec, hhead, hsample⟩ := h.receipt m (hacc ▸ hm)
    exact ⟨first, rec, hrows ▸ hhead, hsample⟩
  phase := by rw [hphase, hacc]; exact h.phase
  observed := by rw [hobs, hacc]; exact h.observed
  here := by rcases hpc with hpc | hpc | hpc <;> rw [hpc] <;> trivial

/-- **What the Runner accepts** in a place of the Supervisor's. -/
theorem RunnerPlaced.accepts {r r' : Runner F} (h : RunnerPlaced r) {m : Value F}
    (hacc : r'.link.accepted = r.link.accepted ++ [m]) (hk : OfSupervisor r.link.accepted.length)
    (hphase : r'.phase = r.phase) (hrec : r'.recorder = r.recorder)
    (hobs : r'.observed = r.observed) (hrows : r'.rows = r.rows) (hsynced : r'.synced = r.synced)
    (hpc : r'.pc = .stopped ∨ r'.pc = .received r.link.accepted.length m ∧ (r.link.accepted.length = 0 → r.rows = [])) :
    RunnerPlaced r' := by
  have hlen : r'.link.accepted.length = r.link.accepted.length + 1 := by
    rw [hacc, List.length_append]
    rfl
  refine ⟨by rw [hrec, hrows]; exact h.counted, fun h2 => ?_, fun m' hm' => ?_, ?_, ?_, ?_⟩
  · -- the first message is the Supervisor's, the second is not
    have hold : 2 ≤ r.link.accepted.length := by
      unfold OfSupervisor at hk
      omega
    obtain ⟨first, rest, heq, hfirst⟩ := h.persisted hold
    exact ⟨first, rest, hrows ▸ heq, hsynced ▸ hfirst⟩
  · rw [hacc, getElem?_snoc, if_neg (by unfold OfSupervisor at hk; omega)] at hm'
    obtain ⟨first, rec, hhead, hsample⟩ := h.receipt m' hm'
    exact ⟨first, rec, hrows ▸ hhead, hsample⟩
  · intro p hp hname
    have := h.phase p (hphase ▸ hp) hname
    omega
  · intro row hrow hname
    have := h.observed row (hobs ▸ hrow) hname
    omega
  · rcases hpc with hpc | ⟨hpc, hnone⟩
    · rw [hpc]
      trivial
    · rw [hpc]
      exact ⟨hk, hlen, fun h0 => hrows ▸ hnone h0⟩

/-- **Every step of the Runner.** -/
theorem RunnerSteps.keep [Floats F] (hs : RunnerSteps E E') (ha : Agreed runId E) (h : RunnerPlaced E.runner) :
    Agreed runId E' ∧ RunnerPlaced E'.runner := by
  have hhere := h.here
  have hseq := ha.runner.sequence
  cases hs with
  | stopped l hl =>
    have hl' : l.Valid runId ∧ l.accepted = E.runner.link.accepted := by
      rcases hl with rfl | rfl
      · exact ⟨ha.runner, rfl⟩
      · exact ⟨ha.runner.fail, rfl⟩
    exact ⟨ha.runnerMoves hl'.1 hl'.2 rfl rfl rfl (by rintro _ ⟨⟩),
      h.frame hl'.2 rfl rfl rfl rfl rfl (.inl rfl)⟩
  | begun o s target c hpc hs =>
    rw [hpc] at hhere
    have hv : ({ E.runner.link with state := s } : Endpoint F).Valid runId := by
      rcases hs with rfl | hb
      · exact ha.runner
      · exact ha.runner.bind hb
    exact ⟨ha.runnerMoves hv rfl rfl rfl rfl (by rintro _ ⟨⟩),
      h.counted, h.persisted, h.receipt, h.phase, h.observed, hhere⟩
  | unbound o s target c hpc hb =>
    exact ⟨ha.runnerMoves (ha.runner.bind hb).fail rfl rfl rfl rfl (by rintro _ ⟨⟩),
      h.frame rfl rfl rfl rfl rfl rfl (.inl rfl)⟩
  | dispatched hpc =>
    rw [hpc] at hhere
    refine ⟨ha.runnerMoves ha.runner rfl rfl rfl rfl ?_,
      h.counted, h.persisted, h.receipt, h.phase, h.observed, ?_⟩
    · intro m hf
      dsimp only [Exchange.putRunner] at hf
      split at hf <;> cases hf
    · dsimp only [Exchange.putRunner]
      by_cases hk : E.runner.link.state.sequence = 0 ∨ E.runner.link.state.sequence = 2
      · rw [if_pos hk]
        rw [hseq] at hk ⊢
        exact ⟨hk.elim .inl fun hk => .inr (.inl hk), hhere⟩
      · rw [if_neg hk]
        rw [hseq] at hk
        exact ⟨fun h0 => hk (.inl h0), fun h1 => (hhere.1 h1).elim⟩
  | read k m rest l hpc hq hr =>
    rw [hpc] at hhere
    obtain ⟨hk, -, hnone⟩ := hhere
    have hmem : m ∈ E.toRunner := hq ▸ List.mem_cons_self
    obtain ⟨hv, hacc, hlen, t, hsaid⟩ := ha.runner.receive hk.lt hr
    obtain ⟨hw, hthere⟩ := ha.fromSupervisor hmem hsaid
    subst hlen
    refine ⟨ha.runnerAccepts hv hacc (.inr hthere) rfl ?_ rfl (by rintro _ ⟨⟩),
      h.accepts hacc hw rfl rfl rfl rfl rfl (.inr ⟨rfl, hnone⟩)⟩
    intro m' hm'
    exact hq ▸ List.mem_cons_of_mem _ hm'
  | misread k m rest l hpc hq hr =>
    have hmem : m ∈ E.toRunner := hq ▸ List.mem_cons_self
    have hsub : ∀ m' ∈ rest, m' ∈ E.toRunner := fun m' hm' => hq ▸ List.mem_cons_of_mem _ hm'
    obtain ⟨hv, hacc | ⟨hacc, t, hsaid⟩⟩ := ha.runner.misreceive hr
    · exact ⟨ha.frame ha.supervisor hv.fail rfl hacc (fun m' hm' => .inl (hsub m' hm')) (fun _ hm => .inl hm)
        (fun _ _ hm => hm) (by rintro _ ⟨⟩), h.frame hacc rfl rfl rfl rfl rfl (.inl rfl)⟩
    · obtain ⟨hw, hthere⟩ := ha.fromSupervisor hmem hsaid
      exact ⟨ha.runnerAccepts hv.fail hacc (.inr hthere) rfl hsub rfl (by rintro _ ⟨⟩),
        h.accepts hacc hw rfl rfl rfl rfl rfl (.inl rfl)⟩
  | phased k m hpc =>
    rw [hpc] at hhere
    obtain ⟨hk, hlen, hnone⟩ := hhere
    rcases hk with rfl | rfl | rfl
    · refine ⟨ha.runnerMoves ha.runner rfl rfl rfl rfl (by rintro _ ⟨⟩),
        h.counted, h.persisted, h.receipt, ?_, h.observed, ?_⟩
      · rintro p ⟨⟩ hname
        exact absurd (isOf_phaseOf hname) (by decide)
      · refine ⟨?_, fun _ => ⟨hnone rfl, ?_⟩⟩
        · show E.runner.link.accepted.length ≠ 0
          omega
        · rintro p ⟨⟩
          exact isOf_phaseOf_self
    · refine ⟨ha.runnerMoves ha.runner rfl rfl rfl rfl (by rintro _ ⟨⟩),
        h.counted, h.persisted, h.receipt, h.phase, h.observed, .inr (.inr rfl), ?_, ?_⟩
      · show E.runner.link.accepted.length ≠ 1
        omega
      · intro h0
        have h0 : E.runner.link.accepted.length = 0 := h0
        omega
    · refine ⟨ha.runnerMoves ha.runner rfl rfl rfl rfl (by rintro _ ⟨⟩),
        h.counted, h.persisted, h.receipt, fun _ _ _ => ?_, h.observed, ?_⟩
      · show 4 ≤ E.runner.link.accepted.length
        omega
      · refine ⟨?_, fun h1 => ?_⟩
        · show E.runner.link.accepted.length ≠ 0
          omega
        · have h1 : E.runner.link.accepted.length = 1 := h1
          omega
  | observed row phase hpc hp hrow =>
    rw [hpc] at hhere
    refine ⟨ha.runnerMoves ha.runner rfl rfl rfl rfl (by rintro _ ⟨⟩),
      h.counted, h.persisted, h.receipt, h.phase, ?_, hhere.1, fun h1 => ?_⟩
    · intro row' hmem hname
      rcases List.mem_append.1 hmem with hmem | hmem
      · exact h.observed row' hmem hname
      · rw [List.mem_singleton.1 hmem, IsOf, hrow.phase] at hname
        exact h.phase phase hp hname
    · obtain ⟨hnone, hready⟩ := hhere.2 h1
      refine ⟨hnone, ?_, ?_⟩
      · rw [hrow.sequence, h.counted, hnone]
        rfl
      · rw [IsOf, hrow.phase]
        exact hready phase hp
  | appended row rec hpc happ =>
    rw [hpc] at hhere
    refine ⟨ha.runnerMoves ha.runner rfl rfl rfl rfl (by rintro _ ⟨⟩),
      ?_, fun h2 => (h.persisted h2).append row rfl rfl, fun m hm => (h.receipt m hm).append row rfl, h.phase, h.observed, hhere.1,
      fun h1 => ?_⟩
    · show rec.folds.samples = (E.runner.rows ++ [row]).length
      rw [samples_append happ, h.counted, List.length_append]
      rfl
    · obtain ⟨hnone, hfirst⟩ := hhere.2 h1
      refine ⟨?_, hfirst⟩
      show E.runner.rows ++ [row] = [row]
      rw [hnone, List.nil_append]
  | unappended row hpc =>
    exact ⟨ha.runnerMoves ha.runner.fail rfl rfl rfl rfl (by rintro _ ⟨⟩), h.frame rfl rfl rfl rfl rfl rfl (.inl rfl)⟩
  | checked row hpc hseq' =>
    rw [hpc] at hhere
    rw [hseq] at hseq'
    exact ⟨ha.runnerMoves ha.runner rfl rfl rfl rfl (by rintro _ ⟨⟩),
      h.counted, h.persisted, h.receipt, h.phase, h.observed, hseq'.1, fun h0 => (hhere.1 h0).elim⟩
  | complete row hpc =>
    rw [hpc] at hhere
    exact ⟨ha.runnerMoves ha.runner rfl rfl rfl rfl (by rintro _ ⟨⟩),
      h.counted, h.persisted, h.receipt, h.phase, h.observed, hhere⟩
  | synced row hpc =>
    rw [hpc] at hhere
    refine ⟨ha.runnerMoves ha.runner rfl rfl rfl rfl (by rintro _ ⟨⟩),
      h.counted, fun h2 => ?_, h.receipt, h.phase, h.observed, fun h1 => ?_⟩
    · obtain ⟨first, rest, heq, hseq', hof, -⟩ := h.persisted h2
      refine ⟨first, rest, heq, hseq', hof, ?_⟩
      show 1 ≤ E.runner.rows.length
      rw [heq, List.length_cons]
      omega
    · obtain ⟨hone, hseq', hof⟩ := hhere.2 h1
      refine ⟨⟨row, [], hone, hseq', hof, ?_⟩, by show E.runner.rows.head? = some row; rw [hone]; rfl⟩
      show 1 ≤ E.runner.rows.length
      rw [hone]
      exact Nat.le_refl 1
  | sent k row o stamp m l hpc hk hs =>
    rw [hpc] at hhere
    have hw : OfRunner k := hk
    obtain ⟨hv, hacc, hlen⟩ := ha.runner.send hs
    rw [idxOf_event hw.lt] at hlen
    have hlen' : l.accepted.length = k + 1 := by
      rw [hacc, List.length_append, hlen]
      rfl
    have hpersisted : Persisted E.runner := by
      rcases hk with rfl | rfl
      · exact (hhere hlen).1
      · exact h.persisted (by omega)
    refine ⟨ha.runnerAccepts hv hacc (.inl (hlen ▸ hw)) rfl (fun _ hm => hm) rfl ?_, h.counted, fun _ => hpersisted,
      ?_, ?_, ?_, ?_, ?_⟩
    · intro m' hf
      cases hf
      exact ⟨hlen ▸ hw, rfl⟩
    · intro m' hm'
      have hm' : l.accepted[1]? = some m' := hm'
      rw [hacc, getElem?_snoc] at hm'
      split at hm'
      next heq =>
        cases hm'
        exact ⟨row, E.runner.recorder, (hhere heq.symm).2, Endpoint.message_of_send hs⟩
      next => exact h.receipt m' hm'
    · intro p hp hname
      have := h.phase p hp hname
      show 4 ≤ l.accepted.length
      omega
    · intro row' hmem hname
      have := h.observed row' hmem hname
      show 4 ≤ l.accepted.length
      omega
    · show l.accepted.length ≠ 1
      unfold OfRunner at hw
      omega
    · intro h0
      have h0 : l.accepted.length = 0 := h0
      omega
  | unsent k row o stamp l hpc hs =>
    obtain ⟨hv, hacc⟩ := ha.runner.unsent hs
    exact ⟨ha.runnerMoves hv.fail hacc rfl rfl rfl (by rintro _ ⟨⟩), h.frame hacc rfl rfl rfl rfl rfl (.inl rfl)⟩
  | framed m hpc =>
    rw [hpc] at hhere
    refine ⟨ha.frame ha.supervisor ha.runner rfl rfl (fun _ hm => .inl hm) ?_ (fun _ _ hm => hm) (by rintro _ ⟨⟩),
      h.counted, h.persisted, h.receipt, h.phase, h.observed, hhere⟩
    intro m' hm'
    rcases List.mem_append.1 hm' with hm' | hm'
    · exact .inl hm'
    · rw [List.mem_singleton.1 hm']
      exact .inr hpc
  | framedStopped m l hpc hl =>
    have hl' : l.Valid runId ∧ l.accepted = E.runner.link.accepted := by
      rcases hl with rfl | rfl
      · exact ⟨ha.runner, rfl⟩
      · exact ⟨ha.runner.fail, rfl⟩
    refine ⟨ha.frame ha.supervisor hl'.1 rfl hl'.2 (fun _ hm => .inl hm) ?_ (fun _ _ hm => hm) (by rintro _ ⟨⟩),
      h.frame hl'.2 rfl rfl rfl rfl rfl (.inl rfl)⟩
    intro m' hm'
    rcases List.mem_append.1 hm' with hm' | hm'
    · exact .inl hm'
    · rw [List.mem_singleton.1 hm']
      exact .inr hpc
  | recorded hpc =>
    rw [hpc] at hhere
    exact ⟨ha.runnerMoves ha.runner rfl rfl rfl rfl (by rintro _ ⟨⟩),
      h.counted, h.persisted, h.receipt, h.phase, h.observed, hhere⟩
  | left pc hto =>
    refine ⟨ha.runnerMoves ha.runner rfl rfl rfl rfl ?_, h.frame rfl rfl rfl rfl rfl rfl (.inr hto)⟩
    rcases hto with rfl | rfl <;> rintro _ ⟨⟩
  | cleaned row o stamp hpc hrow =>
    refine ⟨ha.runnerMoves ha.runner rfl rfl rfl rfl (by rintro _ ⟨⟩),
      h.counted, h.persisted, h.receipt, h.phase, ?_, trivial⟩
    intro row' hmem hname
    rcases List.mem_append.1 hmem with hmem | hmem
    · exact h.observed row' hmem hname
    · rw [List.mem_singleton.1 hmem] at hname
      exact absurd hname (not_isOf_cleanup hrow.phase)
  | closed row rec hpc happ =>
    refine ⟨ha.runnerMoves ha.runner rfl rfl rfl rfl (by rintro _ ⟨⟩),
      ?_, fun h2 => (h.persisted h2).append row rfl rfl, fun m hm => (h.receipt m hm).append row rfl, h.phase, h.observed, trivial⟩
    show rec.folds.samples = (E.runner.rows ++ [row]).length
    rw [samples_append happ, h.counted, List.length_append]
    rfl

end Barrier

end Bench

end ZkRuntime
