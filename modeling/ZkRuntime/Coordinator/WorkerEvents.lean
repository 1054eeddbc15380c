import ZkRuntime.Coordinator.Model.WorkerCalls
/-!
# The events of the registry

Each section under `s.mu` is accounted for by the events it leaves to be
emitted (`Accounted`). An event that is pending in a call is one that has
not been emitted yet, so the emitted and the pending ones together account
for the fields at every instant (`Balanced`), whatever the calls do between
their sections and their events.
-/

namespace ZkRuntime

namespace Coordinator

open RpcAuth

/-- The events of a kind. -/
def changes (old new : WorkerState) (events : List WorkerStateChange) : ℕ :=
  events.countP fun e => e.old == old && e.new == new

theorem changes_append {old new : WorkerState} {l l' : List WorkerStateChange} :
    changes old new (l ++ l') = changes old new l + changes old new l' := List.countP_append

namespace Workers

/-- The number of registered workers. -/
def registered (w : Workers) : ℕ := w.workers.keys.length

/-- The number of workers that are dead. -/
def deadCount (w : Workers) : ℕ := w.workers.countValues fun x => x.status == .dead

/-- The status of a worker, where it is registered. -/
def statusAt (w : Workers) (id : Bytes) : Option WorkerStatus := (w.workers.lookup id).map (·.status)

/-- **The events account for the change of the fields.** -/
structure Accounted (w : Workers) (events : List WorkerStateChange) (w' : Workers) : Prop where
  joined : w'.registered = w.registered + changes .unregistered .alive events
  died : w'.deadCount + changes .dead .alive events = w.deadCount + changes .alive .dead events
  /-- Where there is an event a status has changed. -/
  changed : events ≠ [] → ∃ id, w'.statusAt id ≠ w.statusAt id

variable {w : Workers} {id : Bytes}

theorem accounted_refl : Accounted w [] w := ⟨rfl, rfl, fun h => absurd rfl h⟩

/-- An entry written over by one that is alive. -/
theorem accounted_revive {x y : WorkerInfo} {order : List Bytes} {cause : WorkerStateChangeCause}
    (hx : w.workers.lookup id = some x) (hy : y.status = .alive) :
    Accounted w (if x.status = .dead then [⟨.dead, .alive, cause⟩] else [])
      { w with workers := w.workers.insert id y, workerOrder := order } := by
  have hmem : id ∈ w.workers := AList.lookup_isSome.1 (by rw [hx]; rfl)
  have hcount := Table.countValues_insert (p := fun x : WorkerInfo => x.status == .dead) (y := y) hx
  refine ⟨?_, ?_, ?_⟩
  · rw [registered, registered, Table.length_keys_insert hmem]
    split <;> rfl
  · have hyd : (y.status == .dead) = false := by rw [hy]; rfl
    simp only [hyd, Bool.toNat_false] at hcount
    by_cases hs : x.status = .dead
    · have hxd : (x.status == .dead) = true := by rw [hs]; rfl
      simp only [hxd, Bool.toNat_true] at hcount
      rw [if_pos hs]
      exact hcount
    · have hxd : (x.status == .dead) = false := by simpa using hs
      simp only [hxd, Bool.toNat_false] at hcount
      rw [if_neg hs]
      exact hcount
  · intro hne
    refine ⟨id, ?_⟩
    have hs : x.status = .dead := by
      by_contra hs
      rw [if_neg hs] at hne
      exact hne rfl
    simp [statusAt, hx, hs, hy]

theorem accounted_registerWorker {address : Bytes} {now : Time} :
    Accounted w (w.registerWorker id address now).2 (w.registerWorker id address now).1 := by
  simp only [registerWorker]
  cases hx : w.workers.lookup id with
  | none =>
    have hnew : id ∉ w.workers := AList.lookup_eq_none.1 hx
    refine ⟨Table.length_keys_insert_of_notMem hnew, ?_, fun _ => ⟨id, by simp [statusAt, hx]⟩⟩
    simp only [deadCount, Table.countValues_insert_of_notMem hnew]
    rfl
  | some previous => exact accounted_revive hx rfl

theorem accounted_heartbeat {now : Time} :
    Accounted w (w.heartbeat id now).2.1 (w.heartbeat id now).1 := by
  simp only [heartbeat]
  cases hx : w.workers.lookup id with
  | none => exact accounted_refl
  | some worker => exact accounted_revive hx rfl

/-- The dead after the loop were dead before it, or are its transitions. -/
theorem countP_dead (l : List (Sigma fun _ : Bytes => WorkerInfo)) (out : WorkerInfo → Bool) :
    (l.countP fun e => (if out e.2 then { e.2 with status := .dead } else e.2).status == .dead) =
      (l.countP fun e => e.2.status == .dead) + l.countP fun e => out e.2 && e.2.status != .dead := by
  induction l with
  | nil => rfl
  | cons e l ih =>
    rw [List.countP_cons, List.countP_cons, List.countP_cons, ih]
    cases out e.2 <;> cases hs : e.2.status <;> simp [hs] <;> omega

theorem accounted_checkWorkerLiveness {timeout : ℤ} {now : Time} :
    Accounted w (w.checkWorkerLiveness timeout now).2 (w.checkWorkerLiveness timeout now).1 := by
  simp only [checkWorkerLiveness]
  refine ⟨?_, ?_, ?_⟩
  · have hkinds : ∀ n, changes .unregistered .alive (List.replicate n ⟨.alive, .dead, .timeout⟩) = 0 :=
      fun n => List.countP_eq_zero.2 fun e he => by rw [List.eq_of_mem_replicate he]; decide
    rw [hkinds, registered, registered, Table.mapValues, AList.keys_mk, List.map₂_keys]
    rfl
  · have hrevived : ∀ n, changes .dead .alive (List.replicate n ⟨.alive, .dead, .timeout⟩) = 0 :=
      fun n => List.countP_eq_zero.2 fun e he => by rw [List.eq_of_mem_replicate he]; decide
    have hdied : ∀ n, changes .alive .dead (List.replicate n ⟨.alive, .dead, .timeout⟩) = n := by
      intro n
      rw [changes, List.countP_replicate]
      rfl
    rw [hrevived, hdied, deadCount, Table.countValues_mapValues, countP_dead]
    rfl
  · intro hne
    have hpos : 0 < w.workers.countValues fun x => timedOut timeout now x && x.status != .dead := by
      by_contra hzero
      rw [Nat.eq_zero_of_not_pos hzero] at hne
      exact hne rfl
    obtain ⟨e, he, hout⟩ := List.countP_pos_iff.1 hpos
    rw [Bool.and_eq_true, bne_iff_ne] at hout
    have hlook : w.workers.lookup e.1 = some e.2 := AList.mem_lookup_iff.2 he
    refine ⟨e.1, ?_⟩
    simp only [statusAt, Table.lookup_mapValues, hlook, Option.map_some, hout.1, if_true]
    exact fun heq => hout.2 (Option.some_inj.1 heq).symm

/-- Choosing a worker moves the cursor only. -/
theorem nextFrom_fields {n : ℕ} {x : Option WorkerInfo × Workers} (h : nextFrom n w = some x) :
    ∃ k, x.2 = { w with nextWorker := k } := by
  revert w
  induction n with
  | zero =>
    intro w h
    cases h
    exact ⟨w.nextWorker, rfl⟩
  | succ n ih =>
    intro w h
    rw [nextFrom] at h
    split at h
    · cases h
    · dsimp only at h
      split at h
      · obtain ⟨k, hk⟩ := ih h
        exact ⟨k, hk⟩
      · split at h
        · obtain ⟨k, hk⟩ := ih h
          exact ⟨k, hk⟩
        · cases h
          exact ⟨_, rfl⟩

theorem getNextWorker_fields {x : Option WorkerInfo × Workers} (h : w.getNextWorker = some x) :
    ∃ k, x.2 = { w with nextWorker := k } := by
  rw [getNextWorker] at h
  split at h
  · cases h
    exact ⟨w.nextWorker, rfl⟩
  · exact nextFrom_fields h

end Workers

/-- The events a call has not emitted yet. -/
def CallPc.pending : CallPc → List WorkerStateChange
  | .emitting events _ => events
  | _ => []

/-- **A step of a call is a section or an emission**: what was pending before
and what the section left is emitted now or pending after. -/
theorem CallPc.move_accounted {lib : Library} {w : Workers} {now : Time} {pc : CallPc} {m : CallMove}
    (h : pc.move lib w now = some m) :
    ∃ fresh, Workers.Accounted w fresh m.fields ∧
      pc.pending ++ fresh = m.event.toList ++ m.next.pending ∧ (fresh ≠ [] → pc.pending = []) := by
  revert h
  fun_cases CallPc.move <;> intro h <;> cases h
  case case1 => exact ⟨[], Workers.accounted_refl, rfl, fun h => absurd rfl h⟩
  case case2 => exact ⟨[], Workers.accounted_refl, rfl, fun h => absurd rfl h⟩
  case case3 => exact ⟨_, Workers.accounted_registerWorker, rfl, fun _ => rfl⟩
  case case4 => exact ⟨_, Workers.accounted_heartbeat, rfl, fun _ => rfl⟩
  case case5 => exact ⟨[], Workers.accounted_refl, rfl, fun h => absurd rfl h⟩
  case case6 => exact ⟨_, Workers.accounted_checkWorkerLiveness, rfl, fun _ => rfl⟩
  case case7 => exact ⟨[], Workers.accounted_refl, List.append_nil _, fun h => absurd rfl h⟩
  case case8 => exact ⟨[], Workers.accounted_refl, rfl, fun h => absurd rfl h⟩

/-! ## Runs -/

variable {lib : Library}

/-- The events of a kind that are emitted or pending. -/
def Metered.owed (old new : WorkerState) (s : Metered) : ℕ :=
  changes old new (s.events.map (·.2)) + total (fun pc => changes old new pc.pending) s.calls s.numCalls

/-- **The emitted and the pending events account for the fields.** -/
structure Balanced (s : Metered) : Prop where
  /-- The calls that have begun are those below `numCalls`. -/
  begun : ∀ i, (s.calls i).isSome → i < s.numCalls
  joined : s.fields.registered = s.owed .unregistered .alive
  died : s.fields.deadCount + s.owed .dead .alive = s.owed .alive .dead

/-- What a step of the system does. -/
theorem metered_cases {s s' : Metered} {a : MeteredAction} (h : s.step lib a = some s') :
    (∃ c, a = .call c ∧ s' = { s with
        calls := Function.update s.calls s.numCalls (some (.begun c))
        numCalls := s.numCalls + 1 }) ∨
    (∃ i now pc m, a = .step i now ∧ s.calls i = some pc ∧ pc.move lib s.fields now = some m ∧
      s' = { s with
        fields := m.fields
        calls := Function.update s.calls i (some m.next)
        events := s.events ++ m.event.toList.map (i, ·) }) ∨
    ((∀ i now, a ≠ .step i now) ∧ ∃ k, s' = { s with fields := { s.fields with nextWorker := k } }) := by
  cases a with
  | call c => exact .inl ⟨c, rfl, (Option.some_inj.1 h).symm⟩
  | step i now =>
    refine .inr (.inl ?_)
    simp only [Metered.step, Option.bind_eq_bind, Option.bind_eq_some_iff, Option.pure_def] at h
    obtain ⟨pc, hpc, m, hm, h⟩ := h
    exact ⟨i, now, pc, m, rfl, hpc, hm, (Option.some_inj.1 h).symm⟩
  | getNextWorker =>
    refine .inr (.inr ⟨fun i now => by simp, ?_⟩)
    simp only [Metered.step, Option.map_eq_some_iff] at h
    obtain ⟨x, hx, rfl⟩ := h
    obtain ⟨k, hk⟩ := Workers.getNextWorker_fields hx
    exact ⟨k, by rw [hk]⟩
  | idle =>
    refine .inr (.inr ⟨fun i now => by simp, s.fields.nextWorker, ?_⟩)
    exact (Option.some_inj.1 h).symm

/-- What a step of a call does to what is owed: the section's events are
added. -/
theorem owed_step {s : Metered} {i : ℕ} {pc : CallPc} {m : CallMove}
    {fresh : List WorkerStateChange} (hi : i < s.numCalls) (hpc : s.calls i = some pc)
    (hfresh : pc.pending ++ fresh = m.event.toList ++ m.next.pending) (old new : WorkerState) :
    Metered.owed old new { s with
        fields := m.fields
        calls := Function.update s.calls i (some m.next)
        events := s.events ++ m.event.toList.map (i, ·) } =
      s.owed old new + changes old new fresh := by
  have hsum := congrArg (changes old new) hfresh
  have htotal := total_update (m := fun pc : CallPc => changes old new pc.pending) (y := m.next) hi hpc
  have hevents : (m.event.toList.map (i, ·)).map (·.2) = m.event.toList := by
    rw [List.map_map]
    exact List.map_id _
  rw [changes_append, changes_append] at hsum
  simp only [Metered.owed, List.map_append, hevents, changes_append]
  omega

theorem Balanced.step {s s' : Metered} {a : MeteredAction} (hs : Balanced s)
    (h : s.step lib a = some s') : Balanced s' := by
  rcases metered_cases h with ⟨c, -, rfl⟩ | ⟨i, now, pc, m, -, hpc, hm, rfl⟩ | ⟨-, k, rfl⟩
  · have howed : ∀ old new, Metered.owed old new { s with
        calls := Function.update s.calls s.numCalls (some (.begun c))
        numCalls := s.numCalls + 1 } = s.owed old new := by
      intro old new
      simp only [Metered.owed, total_succ]
      rfl
    refine ⟨fun i hi => ?_, ?_, ?_⟩
    · by_cases hn : i = s.numCalls
      · simp [hn]
      · dsimp only at hi ⊢
        rw [Function.update_of_ne hn] at hi
        have := hs.begun i hi
        omega
    · rw [howed]
      exact hs.joined
    · rw [howed, howed]
      exact hs.died
  · have hi : i < s.numCalls := hs.begun i (by rw [hpc]; rfl)
    obtain ⟨fresh, hacc, hfresh, -⟩ := CallPc.move_accounted hm
    have howed := owed_step hi hpc hfresh
    refine ⟨fun j hj => ?_, ?_, ?_⟩
    · by_cases hji : j = i
      · exact hji ▸ hi
      · dsimp only at hj
        rw [Function.update_of_ne hji] at hj
        exact hs.begun j hj
    · rw [howed, hacc.joined, hs.joined]
    · rw [howed, howed]
      have hacc := hacc.died
      have hs := hs.died
      dsimp only
      omega
  · exact ⟨hs.begun, hs.joined, hs.died⟩

theorem balanced (r : (meteredCalls lib).Run) : ∀ n, Balanced (r.state n) := by
  refine r.invariant ?_ fun s a s' hs h => hs.step h
  rintro s rfl
  exact ⟨fun i hi => absurd hi (by simp [Metered.start]), rfl, rfl⟩

/-- With no call in progress nothing is pending. -/
theorem owed_of_quiet {s : Metered} (h : s.Quiet) (old new : WorkerState) :
    s.owed old new = changes old new (s.events.map (·.2)) := by
  have hzero : total (fun pc => changes old new pc.pending) s.calls s.numCalls = 0 := by
    refine total_eq_zero fun i hi pc hpc => ?_
    obtain ⟨reply, hr⟩ := h i hi
    rw [hpc] at hr
    cases hr
    rfl
  rw [Metered.owed, hzero, Nat.add_zero]

/-- **A call that never changes a status has no event**, pending or emitted. -/
theorem silent_of_unchanged (r : (meteredCalls lib).Run) {i : ℕ}
    (h : ∀ n now, r.act n = .step i now →
      ∀ id, (r.state (n + 1)).fields.statusAt id = (r.state n).fields.statusAt id) (n : ℕ) :
    (∀ pc, (r.state n).calls i = some pc → pc.pending = []) ∧ ∀ e, (i, e) ∉ (r.state n).events := by
  induction n with
  | zero =>
    rw [show r.state 0 = Metered.start from r.start]
    constructor
    · intro pc hpc
      cases hpc
    · intro e he
      cases he
  | succ n ih =>
    have hunchanged := h n
    rcases metered_cases (r.next n) with ⟨c, -, hs⟩ | ⟨j, now, pc, m, ha, hpc, hm, hs⟩ | ⟨-, k, hs⟩
    · rw [hs]
      refine ⟨fun pc hpc => ?_, ih.2⟩
      by_cases hi : i = (r.state n).numCalls
      · subst hi
        dsimp only at hpc
        rw [Function.update_self] at hpc
        cases hpc
        rfl
      · dsimp only at hpc
        rw [Function.update_of_ne hi] at hpc
        exact ih.1 pc hpc
    · by_cases hij : i = j
      · subst hij
        -- the section changed no status, so it left no event, and none was pending
        obtain ⟨fresh, hacc, hfresh, -⟩ := CallPc.move_accounted hm
        have hnil : fresh = [] := by
          by_contra hne
          obtain ⟨id, hid⟩ := hacc.changed hne
          refine hid ?_
          have := hunchanged now ha id
          rwa [hs] at this
        rw [ih.1 pc hpc, hnil] at hfresh
        obtain ⟨hevent, hnext⟩ := List.append_eq_nil_iff.1 hfresh.symm
        rw [hs]
        refine ⟨fun pc' hpc' => ?_, fun e he => ?_⟩
        · dsimp only at hpc'
          rw [Function.update_self] at hpc'
          cases hpc'
          exact hnext
        · dsimp only at he
          rw [hevent, List.map_nil, List.append_nil] at he
          exact ih.2 e he
      · rw [hs]
        refine ⟨fun pc' hpc' => ?_, fun e he => ?_⟩
        · dsimp only at hpc'
          rw [Function.update_of_ne hij] at hpc'
          exact ih.1 pc' hpc'
        · dsimp only at he
          rw [List.mem_append, List.mem_map] at he
          rcases he with he | ⟨e', -, heq⟩
          · exact ih.2 e he
          · exact hij (congrArg Prod.fst heq).symm
    · rw [hs]
      exact ih

/-- **The events add up.** -/
theorem worker_transition_accounting (lib : Library) (r : (meteredCalls lib).Run) :
    (∀ n, (r.state n).Quiet →
      changes .unregistered .alive ((r.state n).events.map (·.2)) = (r.state n).fields.registered ∧
      (changes .alive .dead ((r.state n).events.map (·.2)) : ℤ) -
        changes .dead .alive ((r.state n).events.map (·.2)) = (r.state n).fields.deadCount) ∧
    ∀ i, (∀ n now, r.act n = .step i now →
        ∀ id, (r.state (n + 1)).fields.statusAt id = (r.state n).fields.statusAt id) →
      ∀ n e, (i, e) ∉ (r.state n).events := by
  refine ⟨fun n hquiet => ?_, fun i hi n => (silent_of_unchanged r hi n).2⟩
  have hb := balanced r n
  have hjoined := hb.joined
  have hdied := hb.died
  rw [owed_of_quiet hquiet] at hjoined
  rw [owed_of_quiet hquiet, owed_of_quiet hquiet] at hdied
  exact ⟨hjoined.symm, by omega⟩

end Coordinator

end ZkRuntime
