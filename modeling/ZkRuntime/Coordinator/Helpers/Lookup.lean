import ZkRuntime.Coordinator.Helpers.History
/-!
# The entries of the registry

What each operation of the registry does to one entry, and from it what a
step of the coordinator does to one.
-/

namespace ZkRuntime

namespace Coordinator

namespace Registry

variable {r : Registry} {id k : Bytes} {w : WorkerInfo}

theorem lookup_id (h : r.lookup id = some w) : w.id = id := by
  simpa using List.find?_some h

theorem lookup_eq_none : r.lookup id = none ↔ id ∉ r.workerOrder := by
  rw [← r.keys]
  simp only [lookup, List.find?_eq_none, List.mem_map, not_exists, not_and, beq_iff_eq]

@[simp] theorem lookup_empty : empty.lookup id = none := rfl

/-- **An update reaches the entry it is asked for.** -/
theorem lookup_update {f : WorkerInfo → WorkerInfo} {hf : ∀ w, (f w).id = w.id} :
    (r.update f hf).lookup id = (r.lookup id).map f := by
  have hfun : ((fun w : WorkerInfo => w.id == id) ∘ f) = fun w => w.id == id := by
    funext w
    simp [hf]
  simp only [lookup, update, List.find?_map, hfun]

/-- An update that only one entry sees. -/
theorem lookup_update_one {f : WorkerInfo → WorkerInfo} {hf} :
    (r.update (fun w => if w.id = k then f w else w) hf).lookup id =
      if id = k then (r.lookup id).map f else r.lookup id := by
  rw [lookup_update]
  cases h : r.lookup id with
  | none => simp
  | some w =>
    have hid := lookup_id h
    by_cases hk : id = k
    · simp [hid, hk]
    · simp [hid, hk]

/-- **A registration writes its own entry.** -/
theorem lookup_registerWorker {address : Bytes} {now : Time} :
    (r.registerWorker k address now).lookup id =
      if id = k then some ⟨k, address, now, .alive⟩ else r.lookup id := by
  unfold registerWorker
  split
  · rename_i hmem
    rw [lookup_update_one]
    by_cases hk : id = k
    · subst hk
      cases h : r.lookup id with
      | none => exact absurd hmem (lookup_eq_none.1 h)
      | some w => simp [lookup_id h]
    · simp [hk]
  · rename_i hmem
    have hnone := lookup_eq_none.2 hmem
    simp only [lookup, append, List.find?_append, List.find?_cons, List.find?_nil]
    by_cases hk : id = k
    · subst hk
      simp only [lookup] at hnone
      simp [hnone]
    · have hne : (k == id) = false := by simpa using fun h => hk h.symm
      simp [hk, hne]

theorem lookup_heartbeat {now : Time} :
    (r.heartbeat k now).lookup id =
      if id = k then (r.lookup id).map fun w => { w with lastSeen := now, status := .alive }
      else r.lookup id :=
  lookup_update_one

/-- Choosing a worker moves the cursor only. -/
theorem nextFrom_workers (n : ℕ) : (nextFrom n r).2.workers = r.workers := by
  induction n generalizing r with
  | zero => rfl
  | succ n ih =>
    rw [nextFrom]
    split
    · split
      · split
        · rfl
        · exact ih
      · exact ih
    · rfl

theorem lookup_getNextWorker : r.getNextWorker.2.lookup id = r.lookup id := by
  simp only [lookup, getNextWorker, nextFrom_workers]

end Registry

variable {isPrint : ℕ → Bool} {s s' : State} {a : Action} {id : Bytes}

/-- A session leaves the entries alone. -/
theorem lookup_advance {sid : SessionID} {x : Session} {c : Choice} {m : Move}
    (hm : x.move s isPrint c = some m) :
    (s.advance sid x m).registry.lookup id = s.registry.lookup id := by
  have hmoves := moves_of_move hm
  simp only [State.advance]
  generalize m.next = next at hmoves
  cases he : m.effect with
  | registry r =>
    rw [he] at hmoves
    cases hmoves with
    | pick_some h hr => subst hr; exact Registry.lookup_getNextWorker
    | pick_none h hr => subst hr; exact Registry.lookup_getNextWorker
  | save r applied => cases applied <;> rfl
  | _ => rfl

/-- **What a step does to an entry**: an action on the registry writes it,
a process that ends loses it, and nothing else touches it. -/
theorem lookup_step (hs : Steps isPrint s a s') :
    s'.registry.lookup id = s.registry.lookup id ∨ s'.registry.lookup id = none ∨
      ∃ r, a.registryAfter s = some r ∧ s'.registry = r := by
  cases hs with
  | stopped => exact .inr (.inl rfl)
  | booted cfg => exact .inr (.inl rfl)
  | mark_fails hp => exact .inr (.inl rfl)
  | registry r ha h hmu hr => exact .inr (.inr ⟨r, hr, rfl⟩)
  | session hx hmu hm => exact .inl (lookup_advance hm)
  | _ => exact .inl rfl

end Coordinator

end ZkRuntime
