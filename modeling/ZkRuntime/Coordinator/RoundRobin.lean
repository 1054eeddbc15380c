import Mathlib.Data.List.Rotate
import ZkRuntime.Coordinator.Helpers.Lookup
import ZkRuntime.Coordinator.Model.Workers
/-!
# Round robin

The registry read as a ring: `ring` is the order from the cursor on. A call
of `getNextWorker` drops the dead workers in front, returns the first alive
one and turns the ring past it (`getNextWorker_alive`), so the alive workers
of the ring are themselves a ring that each call turns by one.
-/

namespace ZkRuntime

namespace Coordinator

open RpcAuth

namespace Workers

variable {lib : Library} {w : Workers} {id : Bytes} {x : WorkerInfo}

/-- **What every call keeps.** -/
structure Sound (w : Workers) : Prop where
  nodup : w.workerOrder.Nodup
  keys : ∀ id, id ∈ w.workerOrder ↔ id ∈ w.workers
  ids : ∀ id x, w.workers.lookup id = some x → x.id = id
  inRange : w.workerOrder ≠ [] → w.nextWorker < w.workerOrder.length
  atZero : w.workerOrder = [] → w.nextWorker = 0

theorem Sound.empty : Sound empty where
  nodup := List.nodup_nil
  keys := by simp [Workers.empty]
  ids := by simp [Workers.empty]
  inRange := fun h => absurd rfl h
  atZero := fun _ => rfl

theorem Sound.registerWorker (h : w.Sound) {address : Bytes} {now : Time} :
    (w.registerWorker id address now).1.Sound := by
  have hids : ∀ k x, (w.workers.insert id ⟨id, address, now, .alive⟩).lookup k = some x → x.id = k := by
    intro k x hx
    by_cases hk : k = id
    · subst hk
      rw [AList.lookup_insert] at hx
      cases hx
      rfl
    · rw [AList.lookup_insert_ne hk] at hx
      exact h.ids k x hx
  by_cases hnew : w.workers.lookup id = none
  · have hmem : id ∉ w.workerOrder := fun hin => AList.lookup_eq_none.1 hnew ((h.keys id).1 hin)
    refine ⟨?_, ?_, hids, ?_, ?_⟩
    · simp only [Workers.registerWorker, hnew, if_true]
      exact List.nodup_append.2 ⟨h.nodup, List.nodup_singleton id, fun a ha b hb hab =>
        hmem (by rw [List.mem_singleton] at hb; rwa [← hb, ← hab])⟩
    · intro k
      simp only [Workers.registerWorker, hnew, if_true, List.mem_append, List.mem_singleton,
        AList.mem_insert, h.keys k]
      exact or_comm
    · intro _
      simp only [Workers.registerWorker, hnew, if_true, List.length_append, List.length_singleton]
      by_cases hempty : w.workerOrder = []
      · rw [h.atZero hempty]
        omega
      · have := h.inRange hempty
        omega
    · intro hnil
      simp [Workers.registerWorker, hnew] at hnil
  · have hold : id ∈ w.workers := by
      by_contra hn
      exact hnew (AList.lookup_eq_none.2 hn)
    refine ⟨?_, ?_, hids, ?_, ?_⟩
    · simpa only [Workers.registerWorker, hnew, if_false] using h.nodup
    · intro k
      simp only [Workers.registerWorker, hnew, if_false, AList.mem_insert, h.keys k]
      exact ⟨.inr, fun hk => hk.elim (fun heq => heq ▸ hold) fun hk => hk⟩
    · simpa only [Workers.registerWorker, hnew, if_false] using h.inRange
    · simpa only [Workers.registerWorker, hnew, if_false] using h.atZero

/-- A call that writes over entries, and leaves the order and the cursor
alone. -/
theorem Sound.of_workers (h : w.Sound) {t : Table Bytes WorkerInfo}
    (hmem : ∀ id, id ∈ t ↔ id ∈ w.workers) (hids : ∀ id x, t.lookup id = some x → x.id = id) :
    Sound { w with workers := t } :=
  ⟨h.nodup, fun id => (h.keys id).trans (hmem id).symm, hids, h.inRange, h.atZero⟩

theorem Sound.heartbeat (h : w.Sound) {now : Time} : (w.heartbeat id now).1.Sound := by
  rw [Workers.heartbeat]
  cases hx : w.workers.lookup id with
  | none => exact h
  | some worker =>
    have hold : id ∈ w.workers := AList.lookup_isSome.1 (by rw [hx]; rfl)
    refine h.of_workers (fun k => ?_) fun k x hk => ?_
    · rw [AList.mem_insert]
      exact ⟨fun hk => hk.elim (fun heq => heq ▸ hold) fun hk => hk, .inr⟩
    · by_cases hkid : k = id
      · subst hkid
        rw [AList.lookup_insert] at hk
        cases hk
        exact h.ids k worker hx
      · rw [AList.lookup_insert_ne hkid] at hk
        exact h.ids k x hk

theorem Sound.checkWorkerLiveness (h : w.Sound) {timeout : ℤ} {now : Time} :
    (w.checkWorkerLiveness timeout now).1.Sound := by
  refine h.of_workers (fun k => Table.mem_mapValues) fun k x hx => ?_
  rw [Table.lookup_mapValues, Option.map_eq_some_iff] at hx
  obtain ⟨y, hy, rfl⟩ := hx
  have := h.ids k y hy
  split <;> exact this

/-! ## The ring -/

/-- The order, from the cursor on. -/
def ring (w : Workers) : List Bytes := w.workerOrder.rotate w.nextWorker

theorem length_ring : w.ring.length = w.workerOrder.length := List.length_rotate ..

/-- The entry of a worker that is alive. -/
def aliveAt (w : Workers) (id : Bytes) : Option WorkerInfo :=
  (w.workers.lookup id).filter fun x => x.status == .alive

theorem aliveAt_eq_some : w.aliveAt id = some x ↔ w.workers.lookup id = some x ∧ x.status = .alive := by
  rw [aliveAt, Option.filter_eq_some_iff, beq_iff_eq]

/-- The cursor `k` places on. -/
def turned (w : Workers) (k : ℕ) : Workers :=
  { w with nextWorker := (w.nextWorker + k) % w.workerOrder.length }

theorem turned_turned {j k : ℕ} : (w.turned j).turned k = w.turned (j + k) := by
  simp [turned, Nat.add_assoc]

theorem ring_turned {k : ℕ} : (w.turned k).ring = w.ring.rotate k := by
  simp only [ring, turned, List.rotate_mod, List.rotate_rotate]

/-- One place on, what stood in front stands at the end. -/
theorem ring_turned_one {l : List Bytes} (h : w.ring = id :: l) : (w.turned 1).ring = l ++ [id] := by
  rw [ring_turned, h, List.rotate_cons_succ, List.rotate_zero]

/-- The worker under the cursor is the front of the ring. -/
theorem getElem?_nextWorker {l : List Bytes} (hw : w.Sound) (h : w.ring = id :: l) :
    w.workerOrder[w.nextWorker]? = some id := by
  have hne : w.workerOrder ≠ [] := by
    intro hnil
    simp [ring, hnil] at h
  rw [← List.head?_rotate (hw.inRange hne), ← ring, h, List.head?_cons]

theorem Sound.turned (h : w.Sound) {k : ℕ} (hk : k ≤ w.workerOrder.length) : (w.turned k).Sound where
  nodup := h.nodup
  keys := h.keys
  ids := h.ids
  inRange := fun hne => Nat.mod_lt _ (List.length_pos_iff.2 hne)
  atZero := fun hnil => by
    have hnil : w.workerOrder = [] := hnil
    have hzero : k = 0 := by simpa [hnil] using hk
    simp [Workers.turned, hnil, hzero, h.atZero hnil]

/-- **One turn of the loop**: a worker that is alive is returned, and the
others are passed. -/
theorem nextFrom_succ {n : ℕ} {l : List Bytes} (hw : w.Sound) (h : w.ring = id :: l) :
    nextFrom (n + 1) w = match w.aliveAt id with
      | some x => some (some x, w.turned 1)
      | none => nextFrom n (w.turned 1) := by
  rw [nextFrom, getElem?_nextWorker hw h]
  simp only [aliveAt]
  cases hx : w.workers.lookup id with
  | none => rfl
  | some x =>
    by_cases hs : x.status = .alive
    · simp [hs, Option.filter, Workers.turned]
    · simp [hs, Option.filter, Workers.turned]

/-- **The loop passes the dead workers in front.** -/
theorem nextFrom_append {n : ℕ} {front back : List Bytes} (hw : w.Sound)
    (h : w.ring = front ++ back) (hdead : ∀ id ∈ front, w.aliveAt id = none) :
    nextFrom (front.length + n) w = nextFrom n (w.turned front.length) := by
  induction front generalizing w back with
  | nil =>
    have hlen : w.nextWorker % w.workerOrder.length = w.nextWorker := by
      by_cases hempty : w.workerOrder = []
      · rw [hw.atZero hempty, Nat.zero_mod]
      · exact Nat.mod_eq_of_lt (hw.inRange hempty)
    simp [turned, hlen]
  | cons id front ih =>
    have hid := hdead id (by simp)
    rw [List.length_cons, show front.length + 1 + n = (front.length + n) + 1 by omega,
      nextFrom_succ hw h, hid]
    have hring : (w.turned 1).ring = front ++ (back ++ [id]) := by
      rw [ring_turned_one h]
      exact List.append_assoc ..
    have hpos : 1 ≤ w.workerOrder.length := by
      rw [← length_ring, h]
      simp
    have := ih (hw.turned hpos) hring fun k hk => hdead k (by simp [hk])
    rw [turned_turned, Nat.add_comm 1] at this
    exact this

/-- The alive workers, from the cursor on. -/
def aliveRing (w : Workers) : List WorkerInfo := w.ring.filterMap w.aliveAt

/-- **With nobody alive the loop goes round and finds nobody.** -/
theorem getNextWorker_none (hw : w.Sound) (h : w.aliveRing = []) :
    w.getNextWorker = some (none, w.turned w.workerOrder.length) := by
  have hdead : ∀ id ∈ w.ring, w.aliveAt id = none := List.filterMap_eq_nil_iff.1 h
  have hloop := nextFrom_append (n := 0) hw (List.append_nil _).symm hdead
  rw [Nat.add_zero, length_ring] at hloop
  rw [getNextWorker]
  split
  · rename_i hzero
    rw [hzero] at hloop ⊢
    exact hloop
  · rw [hloop]
    rfl

/-- **The first alive worker is returned, and the ring turned past it.** -/
theorem getNextWorker_alive {l : List WorkerInfo} (hw : w.Sound) (h : w.aliveRing = x :: l) :
    ∃ k ≤ w.workerOrder.length, w.getNextWorker = some (some x, w.turned k) ∧
      (w.turned k).aliveRing = l ++ [x] := by
  obtain ⟨front, id, back, hring, hdead, hid, hback⟩ := List.filterMap_eq_cons_iff.1 h
  have hlen : w.workerOrder.length = front.length + (back.length + 1) := by
    rw [← length_ring, hring, List.length_append, List.length_cons]
  refine ⟨front.length + 1, by omega, ?_, ?_⟩
  · have hfront : (w.turned front.length).ring = id :: (back ++ front) := by
      rw [ring_turned, hring, List.rotate_append_length_eq, List.cons_append]
    rw [getNextWorker, if_neg (by omega), hlen, nextFrom_append hw hring hdead,
      nextFrom_succ (hw.turned (by omega)) hfront, turned_turned]
    have : (w.turned front.length).aliveAt id = some x := hid
    rw [this]
  · have hturn : (w.turned (front.length + 1)).ring = back ++ (front ++ [id]) := by
      rw [← turned_turned, ring_turned_one, List.append_assoc]
      rw [ring_turned, hring, List.rotate_append_length_eq, List.cons_append]
    have hat : (w.turned (front.length + 1)).aliveAt = w.aliveAt := rfl
    rw [aliveRing, hturn, hat, List.filterMap_append, hback, List.filterMap_append,
      List.filterMap_eq_nil_iff.2 hdead, List.nil_append, List.filterMap_cons, hid, List.filterMap_nil]

theorem Sound.getNextWorker (hw : w.Sound) :
    ∃ res w', w.getNextWorker = some (res, w') ∧ w'.Sound := by
  cases h : w.aliveRing with
  | nil => exact ⟨_, _, getNextWorker_none hw h, hw.turned le_rfl⟩
  | cons x l =>
    obtain ⟨k, hk, hnext, -⟩ := getNextWorker_alive hw h
    exact ⟨_, _, hnext, hw.turned hk⟩

/-- **No call panics, and every call keeps the registry sound.** -/
theorem Sound.apply (hw : w.Sound) (op : Operation) : ∃ w', w.apply lib op = some w' ∧ w'.Sound := by
  cases op with
  | registerWorker req now =>
    by_cases hreq : registrable lib req
    · exact ⟨_, by rw [Workers.apply, if_pos hreq], hw.registerWorker⟩
    · exact ⟨w, by rw [Workers.apply, if_neg hreq], hw⟩
  | heartbeat id now => exact ⟨_, rfl, hw.heartbeat⟩
  | checkWorkerLiveness timeout now => exact ⟨_, rfl, hw.checkWorkerLiveness⟩
  | getNextWorker =>
    obtain ⟨res, w', hnext, hw'⟩ := hw.getNextWorker
    exact ⟨w', by rw [Workers.apply, hnext]; rfl, hw'⟩

theorem Sound.foldlM (hw : w.Sound) (calls : List Operation) :
    ∃ w', calls.foldlM (Workers.apply lib) w = some w' ∧ w'.Sound := by
  induction calls generalizing w with
  | nil => exact ⟨w, rfl, hw⟩
  | cons op calls ih =>
    obtain ⟨w₁, h₁, hw₁⟩ : ∃ w', w.apply lib op = some w' ∧ w'.Sound := hw.apply op
    obtain ⟨w₂, h₂, hw₂⟩ := ih hw₁
    exact ⟨w₂, by rw [List.foldlM_cons, h₁]; exact h₂, hw₂⟩

/-! ## Consecutive calls -/

/-- `m` calls of `getNextWorker` with nothing between them, and what each
returned. -/
def consecutive : ℕ → Workers → Option (List (Option WorkerInfo) × Workers)
  | 0, w => some ([], w)
  | m + 1, w => do
    let (res, w₁) ← w.getNextWorker
    let (rest, w₂) ← consecutive m w₁
    pure (res :: rest, w₂)

/-- **Calls return the alive workers in the order of the ring.** -/
theorem consecutive_eq {front back : List WorkerInfo} (hw : w.Sound)
    (h : w.aliveRing = front ++ back) :
    ∃ w', consecutive front.length w = some (front.map some, w') := by
  induction front generalizing w back with
  | nil => exact ⟨w, rfl⟩
  | cons x front ih =>
    obtain ⟨k, hk, hnext, hring⟩ := getNextWorker_alive hw h
    obtain ⟨w', hw'⟩ := ih (hw.turned hk) (hring.trans (List.append_assoc ..))
    refine ⟨w', ?_⟩
    rw [List.length_cons, consecutive, hnext]
    simp only [Option.bind_eq_bind, Option.bind_some, hw', Option.pure_def, List.map_cons]

theorem mem_aliveRing (hw : w.Sound) :
    x ∈ w.aliveRing ↔ w.workers.lookup x.id = some x ∧ x.status = .alive := by
  simp only [aliveRing, List.mem_filterMap, aliveAt_eq_some]
  constructor
  · rintro ⟨id, -, hx, hs⟩
    rw [hw.ids id x hx]
    exact ⟨hx, hs⟩
  · rintro ⟨hx, hs⟩
    refine ⟨x.id, ?_, hx, hs⟩
    rw [ring, List.mem_rotate, hw.keys, ← AList.lookup_isSome, hx]
    rfl

/-- No worker stands twice in the ring. -/
theorem nodup_aliveRing (hw : w.Sound) : (w.aliveRing.map WorkerInfo.id).Nodup := by
  have hids : w.aliveRing.map WorkerInfo.id = w.ring.filter fun id => (w.aliveAt id).isSome := by
    rw [aliveRing, List.map_filterMap, ← List.filterMap_eq_filter]
    refine List.filterMap_congr fun id _ => ?_
    cases hx : w.aliveAt id with
    | none => simp [Option.guard, hx]
    | some x => simp [Option.guard, hx, hw.ids id x (aliveAt_eq_some.1 hx).1]
  rw [hids]
  exact (List.nodup_rotate.2 hw.nodup).filter _

/-- **The ring has every alive worker of the table.** -/
theorem length_aliveRing (hw : w.Sound) :
    w.aliveRing.length = w.workers.countValues fun x => x.status == .alive := by
  have hperm : w.ring.Perm w.workers.keys := by
    refine (List.perm_ext_iff_of_nodup (List.nodup_rotate.2 hw.nodup) w.workers.keys_nodup).2 fun id => ?_
    rw [List.mem_rotate, hw.keys, AList.mem_keys]
  have hlook : ∀ e ∈ w.workers.entries, (w.aliveAt e.1).isSome = (e.2.status == .alive) := by
    intro e he
    rw [aliveAt, AList.mem_lookup_iff.2 he]
    simp
  rw [aliveRing, (hperm.filterMap _).length_eq, AList.keys, List.keys, List.filterMap_map,
    List.length_filterMap_eq_countP, Table.countValues]
  exact List.countP_congr fun e he => by rw [Function.comp_apply, hlook e he]

/-- **The registry serves its workers in turn.** -/
theorem round_robin (lib : Library) (calls : List Operation) :
    ∃ w, Workers.run lib calls = some w ∧
      w.workerOrder.Nodup ∧ (∀ id, id ∈ w.workerOrder ↔ id ∈ w.workers) ∧
      (w.workerOrder ≠ [] → w.nextWorker < w.workerOrder.length) ∧
      (∃ res w', w.getNextWorker = some (res, w') ∧
        (res.isSome ↔ ∃ id x, w.workers.lookup id = some x ∧ x.status = .alive) ∧
        ∀ x, res = some x → w.workers.lookup x.id = some x ∧ x.status = .alive) ∧
      ∃ (served : List WorkerInfo) (w' : Workers), consecutive (w.workers.countValues fun x => x.status == .alive) w =
          some (served.map some, w') ∧
        (served.map WorkerInfo.id).Nodup ∧
        ∀ x, x ∈ served ↔ w.workers.lookup x.id = some x ∧ x.status = .alive := by
  obtain ⟨w, hrun, hw⟩ : ∃ w', calls.foldlM (Workers.apply lib) empty = some w' ∧ w'.Sound :=
    Sound.empty.foldlM calls
  refine ⟨w, hrun, hw.nodup, hw.keys, hw.inRange, ?_, ?_⟩
  · cases h : w.aliveRing with
    | nil =>
      refine ⟨none, _, getNextWorker_none hw h, ⟨fun hsome => absurd hsome (by simp), ?_⟩, ?_⟩
      · rintro ⟨id, x, hx, hs⟩
        have := (mem_aliveRing hw).2 ⟨(hw.ids id x hx).symm ▸ hx, hs⟩
        rw [h] at this
        cases this
      · intro x hx
        cases hx
    | cons x l =>
      obtain ⟨k, -, hnext, -⟩ := getNextWorker_alive hw h
      have hx := (mem_aliveRing hw (x := x)).1 (by rw [h]; simp)
      refine ⟨some x, _, hnext, ⟨fun _ => ⟨x.id, x, hx⟩, fun _ => rfl⟩, fun y hy => ?_⟩
      cases hy
      exact hx
  · obtain ⟨w', hw'⟩ := consecutive_eq hw (List.append_nil _).symm
    rw [length_aliveRing hw] at hw'
    exact ⟨_, w', hw', nodup_aliveRing hw, fun x => mem_aliveRing hw⟩

end Workers

/-! ## The registry with its invariant

`Registry` has the same state. Its table is read through `lookup` only, so
the two are compared entry by entry. -/

namespace Registry

/-- **The same state**, with and without its invariant. -/
structure Agrees (r : Registry) (w : Workers) : Prop where
  lookup : ∀ id, r.lookup id = w.workers.lookup id
  order : r.workerOrder = w.workerOrder
  next : r.nextWorker = w.nextWorker

variable {r : Registry} {w : Workers} {id : Bytes}

theorem agrees_empty : empty.Agrees Workers.empty := ⟨fun _ => rfl, rfl, rfl⟩

theorem Agrees.registerWorker (h : r.Agrees w) {address : Bytes} {now : Time} :
    (r.registerWorker id address now).Agrees (w.registerWorker id address now).1 := by
  have hlookup : ∀ k, (r.registerWorker id address now).lookup k =
      (w.workers.insert id ⟨id, address, now, .alive⟩).lookup k := by
    intro k
    rw [lookup_registerWorker]
    by_cases hk : k = id
    · rw [if_pos hk, hk, AList.lookup_insert]
    · rw [if_neg hk, AList.lookup_insert_ne hk, h.lookup k]
  by_cases hin : id ∈ r.workerOrder
  · have hsome : w.workers.lookup id ≠ none := by
      rw [← h.lookup id]
      exact fun hnone => lookup_eq_none.1 hnone hin
    refine ⟨hlookup, ?_, ?_⟩
    · simp only [Registry.registerWorker, hin, dif_pos, Workers.registerWorker, hsome, if_false]
      exact h.order
    · simp only [Registry.registerWorker, hin, dif_pos]
      exact h.next
  · have hnone : w.workers.lookup id = none := by
      rw [← h.lookup id]
      exact lookup_eq_none.2 hin
    refine ⟨hlookup, ?_, ?_⟩
    · simp only [Registry.registerWorker, hin, dif_neg, not_false_iff, Workers.registerWorker, hnone,
        if_true, Registry.append]
      rw [h.order]
    · simp only [Registry.registerWorker, hin, dif_neg, not_false_iff]
      exact h.next

theorem Agrees.heartbeat (h : r.Agrees w) {now : Time} :
    (r.heartbeat id now).Agrees (w.heartbeat id now).1 := by
  rw [Workers.heartbeat]
  cases hx : w.workers.lookup id with
  | none =>
    refine ⟨fun k => ?_, h.order, h.next⟩
    rw [lookup_heartbeat, h.lookup k]
    by_cases hk : k = id
    · rw [hk, hx, if_pos rfl, Option.map_none]
    · rw [if_neg hk]
  | some worker =>
    refine ⟨fun k => ?_, h.order, h.next⟩
    rw [lookup_heartbeat]
    by_cases hk : k = id
    · rw [if_pos hk, hk, h.lookup id, hx, AList.lookup_insert, Option.map_some]
    · rw [if_neg hk, AList.lookup_insert_ne hk, h.lookup k]

theorem lt_sub_iff {timeout : ℕ} (ht : (timeout : ℤ) < 2 ^ 63 - 1) (t u : ℕ) :
    timeout < t - u ↔ (timeout : ℤ) < sub t u := by
  unfold sub
  omega

/-- The comparison of the two liveness checks: a timeout a configuration can
have is not negative, and no duration saturates below it. -/
theorem Agrees.checkWorkerLiveness (h : r.Agrees w) {timeout : ℕ} {now : Time}
    (ht : (timeout : ℤ) < 2 ^ 63 - 1) :
    (r.checkWorkerLiveness timeout now).Agrees (w.checkWorkerLiveness timeout now).1 := by
  refine ⟨fun k => ?_, h.order, h.next⟩
  rw [Registry.checkWorkerLiveness, lookup_update, h.lookup k]
  simp only [Workers.checkWorkerLiveness, Table.lookup_mapValues]
  congr 1
  funext x
  have hiff := lt_sub_iff ht now x.lastSeen
  by_cases hlt : timeout < now - x.lastSeen
  · rw [if_pos hlt, Workers.timedOut, decide_eq_true (hiff.1 hlt), if_pos rfl]
  · rw [if_neg hlt, Workers.timedOut, decide_eq_false (fun hn => hlt (hiff.2 hn)), if_neg (by simp)]

theorem Agrees.nextFrom (h : r.Agrees w) (hw : w.Sound) (n : ℕ) (hn : n ≤ w.workerOrder.length) :
    ∃ w', Workers.nextFrom n w = some ((nextFrom n r).1, w') ∧ (nextFrom n r).2.Agrees w' := by
  induction n generalizing r w with
  | zero => exact ⟨w, rfl, h⟩
  | succ n ih =>
    have hne : w.workerOrder ≠ [] := List.length_pos_iff.1 (by omega)
    have hlt : r.nextWorker < r.workerOrder.length := by
      rw [h.next, h.order]
      exact hw.inRange hne
    have hturned : (r.advance hlt).Agrees (w.turned 1) :=
      ⟨h.lookup, h.order, by simp only [Registry.advance, Workers.turned, h.next, h.order]⟩
    have hget : w.workerOrder[w.nextWorker]? = some (r.workerOrder.get ⟨r.nextWorker, hlt⟩) := by
      rw [← h.order, ← h.next]
      exact List.getElem?_eq_getElem hlt
    have hrest := ih hturned (hw.turned (by omega)) (by simpa [Workers.turned] using (by omega))
    rw [Registry.nextFrom, dif_pos hlt, Workers.nextFrom, hget]
    simp only [h.lookup]
    cases w.workers.lookup (r.workerOrder.get ⟨r.nextWorker, hlt⟩) with
    | none => exact hrest
    | some x =>
      by_cases hs : x.status = .alive
      · simp only [hs, if_true, ne_eq, not_true, if_false]
        exact ⟨_, rfl, hturned⟩
      · simp only [hs, if_false, ne_eq, not_false_iff, if_true]
        exact hrest

/-- **The choice is the same.** -/
theorem Agrees.getNextWorker (h : r.Agrees w) (hw : w.Sound) :
    ∃ w', w.getNextWorker = some (r.getNextWorker.1, w') ∧ r.getNextWorker.2.Agrees w' := by
  rw [Workers.getNextWorker, Registry.getNextWorker, h.order]
  split
  · rename_i hzero
    rw [hzero]
    exact ⟨w, rfl, h⟩
  · exact h.nextFrom hw _ le_rfl

/-- The same call, on the registry with its invariant. -/
def apply (lib : Library) (r : Registry) : Operation → Registry
  | .registerWorker req now =>
    if registrable lib req then r.registerWorker req.workerID req.address now else r
  | .heartbeat id now => r.heartbeat id now
  | .checkWorkerLiveness timeout now => r.checkWorkerLiveness timeout.toNat now
  | .getNextWorker => r.getNextWorker.2

/-- The timeouts a configuration can have. -/
def Configured : Operation → Prop
  | .checkWorkerLiveness timeout _ => 0 ≤ timeout ∧ timeout < 2 ^ 63 - 1
  | _ => True

theorem Agrees.apply {lib : Library} {op : Operation} (h : r.Agrees w) (hw : w.Sound)
    (hop : Configured op) : ∃ w', w.apply lib op = some w' ∧ (r.apply lib op).Agrees w' := by
  cases op with
  | registerWorker req now =>
    by_cases hreq : registrable lib req
    · exact ⟨_, by rw [Workers.apply, if_pos hreq], by rw [Registry.apply, if_pos hreq]; exact h.registerWorker⟩
    · exact ⟨w, by rw [Workers.apply, if_neg hreq], by rw [Registry.apply, if_neg hreq]; exact h⟩
  | heartbeat id now => exact ⟨_, rfl, h.heartbeat⟩
  | checkWorkerLiveness timeout now =>
    obtain ⟨h0, hlt⟩ := hop
    have hcast := Int.toNat_of_nonneg h0
    have : (r.checkWorkerLiveness timeout.toNat now).Agrees
        (w.checkWorkerLiveness (timeout.toNat : ℤ) now).1 :=
      h.checkWorkerLiveness (by rw [hcast]; exact hlt)
    rw [hcast] at this
    exact ⟨_, rfl, this⟩
  | getNextWorker =>
    obtain ⟨w', hnext, hagrees⟩ := h.getNextWorker hw
    exact ⟨w', by rw [Workers.apply, hnext]; rfl, hagrees⟩

/-- **The registry with its invariant follows the fields of the server**
along every sequence of calls. -/
theorem agrees_run (lib : Library) (calls : List Operation) (hcalls : ∀ op ∈ calls, Configured op) :
    ∃ w, Workers.run lib calls = some w ∧ (calls.foldl (Registry.apply lib) empty).Agrees w := by
  suffices h : ∀ (r : Registry) (w : Workers), r.Agrees w → w.Sound →
      ∃ w', calls.foldlM (Workers.apply lib) w = some w' ∧
        (calls.foldl (Registry.apply lib) r).Agrees w' from
    h empty Workers.empty agrees_empty Workers.Sound.empty
  induction calls with
  | nil => exact fun r w h _ => ⟨w, rfl, h⟩
  | cons op calls ih =>
    intro r w h hw
    obtain ⟨w₁, h₁, hagrees⟩ : ∃ w', w.apply lib op = some w' ∧ (r.apply lib op).Agrees w' :=
      h.apply hw (hcalls op (by simp))
    obtain ⟨w₁', h₁', hw₁⟩ : ∃ w', w.apply lib op = some w' ∧ w'.Sound := hw.apply op
    obtain rfl : w₁' = w₁ := Option.some_inj.1 (h₁'.symm.trans h₁)
    obtain ⟨w₂, h₂, hagrees₂⟩ := ih (fun o ho => hcalls o (by simp [ho])) _ _ hagrees hw₁
    exact ⟨w₂, by rw [List.foldlM_cons, h₁]; exact h₂, hagrees₂⟩

end Registry

end Coordinator

end ZkRuntime
