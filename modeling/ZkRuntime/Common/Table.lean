import Mathlib.Data.List.AList
/-!
# Tables

A map of the language: at most one value for a key, and an order of the
entries that nothing may depend on. The entries are Mathlib's association
lists. What is added is the update of every entry in one loop, and how the
number of entries a predicate holds of changes with one assignment.
-/

namespace ZkRuntime

/-- A map from `κ` to `β`. -/
abbrev Table (κ β : Type*) := AList fun _ : κ => β

namespace Table

variable {κ β : Type*} {t : Table κ β} {a b : κ} {x y : β} {p : β → Bool}

/-- Every entry updated. -/
def mapValues (t : Table κ β) (f : κ → β → β) : Table κ β :=
  ⟨t.entries.map (Sigma.map id f), t.nodupKeys.map₂ f t.entries⟩

/-- The number of entries with a value that `p` holds of. -/
def countValues (p : β → Bool) (t : Table κ β) : ℕ := t.entries.countP fun e => p e.2

theorem countValues_mapValues {f : κ → β → β} :
    countValues p (t.mapValues f) = t.entries.countP fun e => p (f e.1 e.2) := by
  rw [countValues, mapValues, List.countP_map]
  rfl

variable [DecidableEq κ]

/-- **The loop reaches every entry once.** -/
theorem lookup_mapValues {f : κ → β → β} : (t.mapValues f).lookup a = (t.lookup a).map (f a) :=
  List.dlookup_map₂ a

@[simp] theorem mem_mapValues {f : κ → β → β} : a ∈ t.mapValues f ↔ a ∈ t := by
  rw [← AList.lookup_isSome, lookup_mapValues, Option.isSome_map, AList.lookup_isSome]

/-- **A new entry.** -/
theorem countValues_insert_of_notMem (h : a ∉ t) :
    countValues p (t.insert a y) = countValues p t + (p y).toNat := by
  rw [countValues, AList.entries_insert_of_notMem h, List.countP_cons, countValues]
  cases p y <;> rfl

/-- **An entry written over.** -/
theorem countValues_insert (h : t.lookup a = some x) :
    countValues p (t.insert a y) + (p x).toNat = countValues p t + (p y).toNat := by
  have hmem : a ∈ t.entries.keys := AList.mem_keys.1 (AList.lookup_isSome.1 (by rw [h]; rfl))
  obtain ⟨z, l₁, l₂, -, hl, hk⟩ := List.exists_of_kerase hmem
  have hz : z = x := by
    have hin : (⟨a, z⟩ : Sigma fun _ : κ => β) ∈ t.entries := by rw [hl]; simp
    have := AList.mem_lookup_iff.2 hin
    rw [h] at this
    exact (Option.some_inj.1 this).symm
  subst hz
  rw [countValues, AList.entries_insert, hk, countValues, hl, List.countP_cons, List.countP_append,
    List.countP_append, List.countP_cons]
  cases p y <;> cases p z <;> simp <;> omega

theorem length_keys_insert_of_notMem (h : a ∉ t) : (t.insert a y).keys.length = t.keys.length + 1 := by
  rw [AList.keys_insert, List.erase_of_not_mem (fun hk => h (AList.mem_keys.2 hk)), List.length_cons]

theorem length_keys_insert (h : a ∈ t) : (t.insert a y).keys.length = t.keys.length := by
  have hk := AList.mem_keys.1 h
  have hpos := List.length_pos_of_mem hk
  rw [AList.keys_insert, List.length_cons, List.length_erase_of_mem hk]
  omega

end Table

end ZkRuntime
