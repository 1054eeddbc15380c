import Mathlib
import ZkRuntime.Common.Bytes
/-!
# JSON values

What a JSON text denotes once it is read into a dynamically typed program:
integers of any size kept apart from floating point numbers, strings as
sequences of code points, and objects as dictionaries. A dictionary answers
by key only, so its members are kept in the order of their keys; a value
kept that way at every depth, with no surrogate pair in its strings, is `Wf`.

`find?` and `get` ask a value for a member, `put` and `record` build
objects, and what is asked of a built object is answered from the list it
was built of (`find?_record`).
-/

namespace ZkRuntime

namespace PyJson

/-- A string, by its code points. -/
abbrev Text := List ℕ

/-- A literal as a string. -/
def text (s : String) : Text := s.toList.map Char.toNat

@[simp] theorem text_inj {a b : String} : text a = text b ↔ a = b := by
  refine ⟨fun h => ?_, fun h => h ▸ rfl⟩
  have hi : Function.Injective Char.toNat := fun a b h => Char.ext (UInt32.toNat_inj.1 h)
  exact String.toList_injective (List.map_injective_iff.2 hi h)

/-- The first half of a surrogate pair. -/
def isHighUnit (u : ℕ) : Bool := 0xD800 ≤ u && u ≤ 0xDBFF

/-- The second half of a surrogate pair. -/
def isLowUnit (u : ℕ) : Bool := 0xDC00 ≤ u && u ≤ 0xDFFF

/-- **A string JSON can carry**, which is any but one with the two halves of
a surrogate pair side by side: those are read as one character. -/
def Proper (s : Text) : Prop :=
  (∀ c ∈ s, c < 0x110000) ∧ s.IsChain fun a b => ¬ (isHighUnit a = true ∧ isLowUnit b = true)

theorem Proper.tail {c : ℕ} {s : Text} (h : Proper (c :: s)) : Proper s :=
  ⟨fun x hx => h.1 x (List.mem_cons_of_mem _ hx), h.2.of_cons⟩

theorem proper_text (s : String) : Proper (text s) := by
  have hvalid : ∀ c ∈ text s, c.isValidChar := by
    intro c hc
    obtain ⟨x, -, rfl⟩ := List.mem_map.1 hc
    exact x.valid
  constructor
  · intro c hc
    rcases hvalid c hc with h | ⟨-, h⟩ <;> omega
  · -- No character of a literal is half of a pair.
    refine (List.pairwise_of_forall_mem_list fun a ha b _ hab => ?_).isChain
    have hhigh := hab.1
    rw [isHighUnit, Bool.and_eq_true, decide_eq_true_eq, decide_eq_true_eq] at hhigh
    rcases hvalid a ha with h | ⟨h, -⟩ <;> omega

/-- A JSON value, over the floating point numbers `F`. -/
inductive Value (F : Type) where
  | null
  | bool (b : Bool)
  | int (n : ℤ)
  | float (x : F)
  | str (s : Text)
  | arr (items : List (Value F))
  | obj (members : List (Text × Value F))

variable {F : Type}

/-! ### Members -/

/-- The member of a list under a key. -/
@[grind] def lookup (k : Text) : List (Text × Value F) → Option (Value F)
  | [] => none
  | m :: ms => if m.1 = k then some m.2 else lookup k ms

/-- Sets the member under a key, keeping the order of the keys. -/
@[grind] def insert (k : Text) (v : Value F) : List (Text × Value F) → List (Text × Value F)
  | [] => [(k, v)]
  | m :: ms =>
    if m.1 = k then (k, v) :: ms
    else if k < m.1 then (k, v) :: m :: ms
    else m :: insert k v ms

@[simp] theorem lookup_insert_self (k : Text) (v : Value F) :
    ∀ ms : List (Text × Value F), lookup k (insert k v ms) = some v
  | [] => by simp [insert, lookup]
  | m :: ms => by
    rw [insert]
    split_ifs with h1 h2
    · simp [lookup]
    · simp [lookup]
    · rw [lookup, if_neg h1, lookup_insert_self k v ms]

theorem lookup_insert_of_ne {j k : Text} (v : Value F) (h : j ≠ k) :
    ∀ ms : List (Text × Value F), lookup j (insert k v ms) = lookup j ms
  | [] => by simp [insert, lookup, h.symm]
  | m :: ms => by
    rw [insert]
    split_ifs with h1 h2
    · rw [lookup, if_neg (fun e => h e.symm), lookup, if_neg (fun e => h (e.symm.trans h1))]
    · rw [lookup, if_neg (fun e => h e.symm)]
    · rw [lookup, lookup, lookup_insert_of_ne v h ms]

/-- The keys a dictionary holds, in order. -/
theorem mem_insert {k : Text} {v : Value F} {m : Text × Value F} :
    ∀ {ms : List (Text × Value F)}, m ∈ insert k v ms → m = (k, v) ∨ m ∈ ms
  | [], h => by simpa [insert] using h
  | x :: xs, h => by
    rw [insert] at h
    split_ifs at h with h1 h2
    · rcases List.mem_cons.1 h with rfl | h
      · exact .inl rfl
      · exact .inr (List.mem_cons_of_mem _ h)
    · rcases List.mem_cons.1 h with rfl | h
      · exact .inl rfl
      · exact .inr h
    · rcases List.mem_cons.1 h with rfl | h
      · exact .inr List.mem_cons_self
      · exact (mem_insert h).imp_right (List.mem_cons_of_mem _)

/-- The keys in strictly increasing order. -/
def Sorted (ms : List (Text × Value F)) : Prop := ms.Pairwise fun a b => a.1 < b.1

theorem sorted_insert (k : Text) (v : Value F) :
    ∀ {ms : List (Text × Value F)}, Sorted ms → Sorted (insert k v ms)
  | [], _ => by simp [insert, Sorted]
  | m :: ms, h => by
    obtain ⟨hm, hms⟩ := List.pairwise_cons.1 h
    rw [insert]
    split_ifs with h1 h2
    · exact List.pairwise_cons.2 ⟨fun x hx => h1 ▸ hm x hx, hms⟩
    · refine List.pairwise_cons.2 ⟨fun x hx => ?_, h⟩
      rcases List.mem_cons.1 hx with rfl | hx
      · exact h2
      · exact lt_trans h2 (hm x hx)
    · refine List.pairwise_cons.2 ⟨fun x hx => ?_, sorted_insert k v hms⟩
      rcases mem_insert hx with rfl | hx
      · exact lt_of_le_of_ne (not_lt.1 h2) h1
      · exact hm x hx

/-- A key past every key there is goes to the end. -/
theorem insert_append {k : Text} (v : Value F) :
    ∀ {ms : List (Text × Value F)}, (∀ m ∈ ms, m.1 < k) → insert k v ms = ms ++ [(k, v)]
  | [], _ => rfl
  | m :: ms, h => by
    have hm : m.1 < k := h m List.mem_cons_self
    rw [insert, if_neg (ne_of_lt hm), if_neg (lt_asymm hm),
      insert_append v fun x hx => h x (List.mem_cons_of_mem _ hx), List.cons_append]

theorem lookup_eq_none {k : Text} :
    ∀ {ms : List (Text × Value F)}, (∀ m ∈ ms, m.1 ≠ k) → lookup k ms = none
  | [], _ => rfl
  | m :: ms, h => by
    rw [lookup, if_neg (h m List.mem_cons_self),
      lookup_eq_none fun x hx => h x (List.mem_cons_of_mem _ hx)]

namespace Value

/-- **A value JSON can carry**: its strings are texts, and the members of
every object in it stand by their keys. -/
inductive Wf : Value F → Prop where
  | null : Wf .null
  | bool (b : Bool) : Wf (.bool b)
  | int (n : ℤ) : Wf (.int n)
  | float (x : F) : Wf (.float x)
  | str {s : Text} (h : Proper s) : Wf (.str s)
  | arr {items : List (Value F)} (h : ∀ v ∈ items, Wf v) : Wf (.arr items)
  | obj {members : List (Text × Value F)} (hs : Sorted members) (hk : ∀ m ∈ members, Proper m.1)
      (h : ∀ m ∈ members, Wf m.2) : Wf (.obj members)

/-! ### Asking -/

/-- The member under a key, of an object that has it. -/
@[grind] def find? : Value F → String → Option (Value F)
  | .obj members, k => lookup (text k) members
  | _, _ => none

/-- The member under a key, and null where there is none. -/
def get (v : Value F) (k : String) : Value F := (v.find? k).getD .null

/-- Is the value an object? -/
def isObj : Value F → Bool
  | .obj _ => true
  | _ => false

/-- Is the value null? -/
def isNull : Value F → Bool
  | .null => true
  | _ => false

/-- The value as an integer; a boolean is none. -/
def int? : Value F → Option ℤ
  | .int n => some n
  | _ => none

/-- The value as a string. -/
def str? : Value F → Option Text
  | .str s => some s
  | _ => none

/-- The value as a list. -/
def items? : Value F → Option (List (Value F))
  | .arr items => some items
  | _ => none

@[simp] theorem int?_int (n : ℤ) : (Value.int n : Value F).int? = some n := rfl
@[simp] theorem str?_str (s : Text) : (Value.str s : Value F).str? = some s := rfl
@[simp] theorem items?_arr (l : List (Value F)) : (Value.arr l).items? = some l := rfl
@[simp] theorem int?_null : (Value.null : Value F).int? = none := rfl
@[simp] theorem isNull_null : (Value.null : Value F).isNull = true := rfl
@[simp] theorem isNull_int (n : ℤ) : (Value.int n : Value F).isNull = false := rfl
@[simp] theorem isNull_obj (ms : List (Text × Value F)) : (Value.obj ms).isNull = false := rfl
@[simp] theorem isObj_obj (ms : List (Text × Value F)) : (Value.obj ms).isObj = true := rfl

theorem isNull_iff {v : Value F} : v.isNull = true ↔ v = .null := by
  cases v <;> simp [isNull]

theorem int?_eq_some {v : Value F} {n : ℤ} : v.int? = some n ↔ v = .int n := by
  cases v <;> simp [int?]

theorem str?_eq_some {v : Value F} {s : Text} : v.str? = some s ↔ v = .str s := by
  cases v <;> simp [str?]

theorem items?_eq_some {v : Value F} {l : List (Value F)} : v.items? = some l ↔ v = .arr l := by
  cases v <;> simp [items?]

/-! ### Building -/

/-- Sets a member of an object. -/
def put : Value F → String → Value F → Value F
  | .obj members, k, v => .obj (insert (text k) v members)
  | w, _, _ => w

/-- The members of a list, put in order; of two under one key the first
stands. -/
def fields : List (String × Value F) → List (Text × Value F)
  | [] => []
  | m :: ms => insert (text m.1) m.2 (fields ms)

/-- An object of the members of a list. -/
def record (ms : List (String × Value F)) : Value F := .obj (fields ms)

@[simp] theorem isObj_record (ms : List (String × Value F)) : (record ms).isObj = true := rfl
@[simp] theorem isNull_record (ms : List (String × Value F)) : (record ms).isNull = false := rfl

@[simp] theorem find?_record_nil (k : String) : (record [] : Value F).find? k = none := rfl

/-- **A built object answers from its list.** -/
@[simp] theorem find?_record_cons (k : String) (m : String × Value F) (ms : List (String × Value F)) :
    (record (m :: ms)).find? k = if m.1 = k then some m.2 else (record ms).find? k := by
  obtain ⟨j, v⟩ := m
  show lookup (text k) (insert (text j) v (fields ms)) = _
  by_cases h : j = k
  · rw [if_pos h, h, lookup_insert_self]
  · rw [if_neg h, lookup_insert_of_ne v fun e => h (text_inj.1 e).symm]
    rfl

/-- Setting a member changes the answer under its key alone. -/
@[simp] theorem find?_put {w : Value F} (hw : w.isObj = true) (k j : String) (v : Value F) :
    (w.put j v).find? k = if j = k then some v else w.find? k := by
  cases w <;> try cases hw
  rename_i ms
  show lookup (text k) (insert (text j) v ms) = _
  by_cases h : j = k
  · rw [if_pos h, h, lookup_insert_self]
  · rw [if_neg h, lookup_insert_of_ne v fun e => h (text_inj.1 e).symm]
    rfl

@[simp] theorem isObj_put {w : Value F} {k : String} {v : Value F} : (w.put k v).isObj = w.isObj := by
  cases w <;> rfl

theorem get_of_find? {w v : Value F} {k : String} (h : w.find? k = some v) : w.get k = v := by
  rw [get, h, Option.getD_some]

theorem sorted_fields : ∀ ms : List (String × Value F), Sorted (fields ms)
  | [] => List.Pairwise.nil
  | _ :: ms => sorted_insert _ _ (sorted_fields ms)

theorem mem_fields {m : Text × Value F} : ∀ {ms : List (String × Value F)},
    m ∈ fields ms → ∃ x ∈ ms, m = (text x.1, x.2)
  | [], h => absurd h List.not_mem_nil
  | x :: xs, h => by
    rcases mem_insert h with rfl | h
    · exact ⟨x, List.mem_cons_self, rfl⟩
    · obtain ⟨y, hy, e⟩ := mem_fields h
      exact ⟨y, List.mem_cons_of_mem _ hy, e⟩

/-- An object built of values JSON can carry is one. -/
theorem wf_record {ms : List (String × Value F)} (h : ∀ m ∈ ms, Wf m.2) : Wf (record ms) := by
  refine .obj (sorted_fields ms) (fun m hm => ?_) fun m hm => ?_
  · obtain ⟨x, -, rfl⟩ := mem_fields hm
    exact proper_text x.1
  · obtain ⟨x, hx, rfl⟩ := mem_fields hm
    exact h x hx

end Value

end PyJson

end ZkRuntime
