import ZkRuntime.Common.Bytes
/-!
# The worker registry

`cmd/coordinator/workers.go`: registration, heartbeats, the liveness check
and the round-robin choice of a worker. The order list and the table have
the same IDs and the cursor points into the list, which the structure
carries as fields, so that the choice never indexes out of range.
-/

namespace ZkRuntime

namespace Coordinator

/-- A point in time, in nanoseconds; `0` is the zero `time.Time`. -/
abbrev Time := ℕ

/-- `WorkerStatus`. -/
inductive WorkerStatus where
  | alive
  | dead
  deriving DecidableEq, Repr

/-- `WorkerInfo`. -/
structure WorkerInfo where
  id : Bytes
  address : Bytes
  lastSeen : Time
  status : WorkerStatus
  deriving DecidableEq

/-- **The registry**: `workers`, `workerOrder` and `nextWorker` of the
server. -/
structure Registry where
  workers : List WorkerInfo
  workerOrder : List Bytes
  nextWorker : ℕ
  nodup : workerOrder.Nodup
  keys : workers.map WorkerInfo.id = workerOrder
  inRange : nextWorker = 0 ∨ nextWorker < workerOrder.length

namespace Registry

/-- The registry a process starts with. -/
def empty : Registry := ⟨[], [], 0, List.nodup_nil, rfl, .inl rfl⟩

/-- `s.workers[id]`. -/
def lookup (r : Registry) (id : Bytes) : Option WorkerInfo := r.workers.find? fun w => w.id == id

/-- An update of every entry that leaves the IDs alone. -/
def update (r : Registry) (f : WorkerInfo → WorkerInfo) (hf : ∀ w, (f w).id = w.id) : Registry where
  workers := r.workers.map f
  workerOrder := r.workerOrder
  nextWorker := r.nextWorker
  nodup := r.nodup
  keys := by
    rw [List.map_map, ← r.keys]
    exact List.map_congr_left fun w _ => hf w
  inRange := r.inRange

/-- A new entry, at the end of the order. -/
def append (r : Registry) (w : WorkerInfo) (h : w.id ∉ r.workerOrder) : Registry where
  workers := r.workers ++ [w]
  workerOrder := r.workerOrder ++ [w.id]
  nextWorker := r.nextWorker
  nodup := by
    rw [List.nodup_append]
    exact ⟨r.nodup, by simp, by
      intro a ha b hb
      rw [List.mem_singleton] at hb
      subst hb
      exact fun heq => h (heq ▸ ha)⟩
  keys := by simp [r.keys]
  inRange := r.inRange.imp_right fun h => by rw [List.length_append]; omega

/-- `RegisterWorker`, behind the checks of its request: an entry is written
over, or a new one goes to the end of the order. -/
def registerWorker (r : Registry) (id address : Bytes) (now : Time) : Registry :=
  if h : id ∈ r.workerOrder then
    r.update (fun w => if w.id = id then ⟨w.id, address, now, .alive⟩ else w)
      (fun w => by split_ifs <;> rfl)
  else r.append ⟨id, address, now, .alive⟩ h

/-- `Heartbeat`: only a registered worker is seen. -/
def heartbeat (r : Registry) (id : Bytes) (now : Time) : Registry :=
  r.update (fun w => if w.id = id then { w with lastSeen := now, status := .alive } else w)
    (fun w => by split_ifs <;> rfl)

/-- `checkWorkerLiveness`: whoever has been silent for longer than the
timeout is dead. -/
def checkWorkerLiveness (r : Registry) (timeout : ℕ) (now : Time) : Registry :=
  r.update (fun w => if timeout < now - w.lastSeen then { w with status := .dead } else w)
    (fun w => by split_ifs <;> rfl)

/-- The cursor, one step on. -/
def advance (r : Registry) (h : r.nextWorker < r.workerOrder.length) : Registry :=
  { r with
    nextWorker := (r.nextWorker + 1) % r.workerOrder.length
    inRange := .inr (Nat.mod_lt _ (by omega)) }

/-- The loop of `getNextWorker`. -/
def nextFrom : ℕ → Registry → Option WorkerInfo × Registry
  | 0, r => (none, r)
  | n + 1, r =>
    if h : r.nextWorker < r.workerOrder.length then
      match r.lookup (r.workerOrder.get ⟨r.nextWorker, h⟩) with
      | some w => if w.status = .alive then (some w, r.advance h) else nextFrom n (r.advance h)
      | none => nextFrom n (r.advance h)
    else (none, r)

/-- `getNextWorker`: the next alive worker from the cursor on, in one
round over the order. -/
def getNextWorker (r : Registry) : Option WorkerInfo × Registry :=
  nextFrom r.workerOrder.length r

end Registry

end Coordinator

end ZkRuntime
