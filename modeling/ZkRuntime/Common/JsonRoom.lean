import ZkRuntime.Common.JsonPlain
/-!
# How long a JSON text is

A plain value has a text in every layout, and `room` is long enough for it
(`exists_print`). The room of a built object is what its members ask for
(`room_record`).
-/

namespace ZkRuntime

namespace PyJson

/-! ### Integers -/

theorem short_iff {n : ℤ} : Short n ↔ (digits n.natAbs).length ≤ maxDigits := by
  rw [Short, digits, List.length_map]
  exact (Nat.length_toDigits_le_iff (by decide) (by decide)).symm

theorem Short.of_le {m n : ℤ} (h : Short n) (hm : 0 ≤ m) (hle : m ≤ n) : Short m := by
  have : m.natAbs ≤ n.natAbs := by omega
  exact lt_of_le_of_lt this h

/-- A number of a few digits is short. -/
theorem short_natCast {n : ℕ} (h : n < 10 ^ 8) : Short n :=
  lt_of_lt_of_le h (Nat.pow_le_pow_right (by decide) (by decide))

/-- An integer is written where it is short. -/
theorem isSome_intText {n : ℤ} : (intText n).isSome = true ↔ Short n := by
  rw [intText, short_iff]
  split <;> simp [*]

theorem length_intText {n : ℤ} {t : Text} (h : intText n = some t) : t.length ≤ maxDigits + 1 := by
  rw [intText] at h
  split_ifs at h with h1 h2
  · obtain rfl := Option.some.inj h
    rw [List.length_cons]
    omega
  · obtain rfl := Option.some.inj h
    omega

variable {F : Type}

/-! ### Values -/

theorem PlainText.proper {s : Text} (h : PlainText s) : Proper s := by
  refine ⟨fun c hc => ?_, (List.pairwise_of_forall_mem_list fun a ha b _ hab => ?_).isChain⟩
  · have := h c hc
    omega
  · have hle := h a ha
    have hhigh := hab.1
    rw [isHighUnit, Bool.and_eq_true, decide_eq_true_eq, decide_eq_true_eq] at hhigh
    omega

mutual

/-- Room for the text of a plain value, from a depth on. -/
def room (L : Layout) : ℕ → Value F → ℕ
  | _, .null => 4
  | _, .bool _ => 5
  | _, .int _ => maxDigits + 1
  | _, .float _ => 0
  | _, .str s => s.length + 2
  | d, .arr vs => (L.gap (d + 1)).length + roomItems L (d + 1) vs + (L.gap d).length + 2
  | d, .obj ms => (L.gap (d + 1)).length + roomMembers L (d + 1) ms + (L.gap d).length + 2
termination_by structural _ v => v

def roomItems (L : Layout) : ℕ → List (Value F) → ℕ
  | _, [] => 0
  | d, v :: vs => (L.sep d).length + 1 + room L d v + roomItems L d vs
termination_by structural _ vs => vs

def roomMembers (L : Layout) : ℕ → List (Text × Value F) → ℕ
  | _, [] => 0
  | d, (k, v) :: ms => (L.sep d).length + k.length + 5 + room L d v + roomMembers L d ms
termination_by structural _ ms => ms

end

section

variable [Floats F] {L : Layout}

/-- The value has a text, and there is room for it. -/
def Written (L : Layout) (d : ℕ) (v : Value F) : Prop := ∃ t, print L d v = some t ∧ t.length ≤ room L d v

theorem length_quoted_plain {s : Text} (h : PlainText s) : (quoted s).length = s.length + 2 := by
  rw [quoted, escape_plain h]
  simp

theorem written_items {d : ℕ} : ∀ {vs : List (Value F)}, (∀ v ∈ vs, Written L d v) →
    ∃ t, printItems L d vs = some t ∧ t.length ≤ roomItems L d vs
  | [], _ => ⟨[], rfl, le_rfl⟩
  | v :: vs, h => by
    obtain ⟨head, hhead, hle⟩ := h v List.mem_cons_self
    obtain ⟨tail, htail, hle'⟩ := written_items fun w hw => h w (List.mem_cons_of_mem _ hw)
    refine ⟨_, by rw [printItems, hhead, htail]; rfl, ?_⟩
    rw [roomItems]
    simp only [List.length_cons, List.length_append]
    omega

theorem written_members {d : ℕ} : ∀ {ms : List (Text × Value F)}, (∀ m ∈ ms, PlainText m.1) →
    (∀ m ∈ ms, Written L d m.2) → ∃ t, printMembers L d ms = some t ∧ t.length ≤ roomMembers L d ms
  | [], _, _ => ⟨[], rfl, le_rfl⟩
  | (k, v) :: ms, hk, h => by
    obtain ⟨head, hhead, hle⟩ := h (k, v) List.mem_cons_self
    obtain ⟨tail, htail, hle'⟩ := written_members (fun m hm => hk m (List.mem_cons_of_mem _ hm))
      fun m hm => h m (List.mem_cons_of_mem _ hm)
    have hquoted := length_quoted_plain (hk (k, v) List.mem_cons_self)
    refine ⟨_, by rw [printMembers, hhead, htail]; rfl, ?_⟩
    rw [roomMembers]
    simp only [List.length_cons, List.length_append, List.length_nil, hquoted]
    dsimp only at hle
    omega

/-- **A plain value is written**, in the room there is for it. -/
theorem exists_print {v : Value F} (hp : Plain v) : ∀ d, Written L d v := by
  induction hp with
  | null => exact fun d => ⟨_, rfl, show (text "null").length ≤ 4 by decide⟩
  | bool b =>
    intro d
    refine ⟨_, rfl, ?_⟩
    rw [room]
    cases b <;> decide
  | int h =>
    intro d
    obtain ⟨t, ht⟩ := Option.isSome_iff_exists.1 (isSome_intText.2 h)
    exact ⟨t, ht, length_intText ht⟩
  | str h => exact fun d => ⟨_, rfl, (length_quoted_plain h).le⟩
  | @arr items h ih =>
    intro d
    cases items with
    | nil => exact ⟨_, rfl, by rw [room]; exact Nat.le_add_left 2 _⟩
    | cons v vs =>
      obtain ⟨head, hhead, hle⟩ := ih v List.mem_cons_self (d + 1)
      obtain ⟨tail, htail, hle'⟩ := written_items fun w hw => ih w (List.mem_cons_of_mem _ hw) (d + 1)
      refine ⟨_, by rw [print, hhead, htail]; rfl, ?_⟩
      rw [room, roomItems]
      simp only [List.length_cons, List.length_append, List.length_nil]
      omega
  | @obj members hk h ih =>
    intro d
    cases members with
    | nil => exact ⟨_, rfl, by rw [room]; exact Nat.le_add_left 2 _⟩
    | cons m ms =>
      obtain ⟨k, v⟩ := m
      obtain ⟨head, hhead, hle⟩ := ih (k, v) List.mem_cons_self (d + 1)
      obtain ⟨tail, htail, hle'⟩ := written_members (fun m hm => hk m (List.mem_cons_of_mem _ hm))
        fun m hm => ih m (List.mem_cons_of_mem _ hm) (d + 1)
      have hquoted := length_quoted_plain (hk (k, v) List.mem_cons_self)
      refine ⟨_, by rw [print, hhead, htail]; rfl, ?_⟩
      rw [room, roomMembers]
      simp only [List.length_cons, List.length_append, List.length_nil, hquoted]
      dsimp only at hle
      omega

/-- What a member of a written object is written as. -/
theorem isSome_print_of_lookup {d : ℕ} {ms : List (Text × Value F)} {t : Text} (h : print L d (.obj ms) = some t)
    {k : Text} {v : Value F} (hk : lookup k ms = some v) : (print L (d + 1) v).isSome = true := by
  have hmembers : ∀ {ms : List (Text × Value F)} {t : Text}, printMembers L (d + 1) ms = some t →
      lookup k ms = some v → (print L (d + 1) v).isSome = true := by
    intro ms
    induction ms with
    | nil => exact fun _ hk => by cases hk
    | cons m ms ih =>
      intro t ht hk
      simp only [printMembers, bind, Option.bind_eq_some_iff] at ht
      obtain ⟨head, hhead, tail, htail, -⟩ := ht
      rw [lookup] at hk
      split_ifs at hk
      · cases hk
        rw [hhead]
        rfl
      · exact ih htail hk
  cases ms with
  | nil => cases hk
  | cons m ms =>
    simp only [print, bind, Option.bind_eq_some_iff] at h
    obtain ⟨head, hhead, tail, htail, -⟩ := h
    rw [lookup] at hk
    split_ifs at hk
    · cases hk
      rw [hhead]
      rfl
    · exact hmembers htail hk

/-- **An integer in a written object is short.** -/
theorem short_of_dumps {v : Value F} {t : Text} (h : dumps v = some t) {k : String} {n : ℤ}
    (hk : v.get k = .int n) : Short n := by
  cases v with
  | obj ms =>
    rw [Value.get, Value.find?] at hk
    cases hl : lookup (text k) ms with
    | none =>
      rw [hl] at hk
      cases hk
    | some w =>
      rw [hl, Option.getD_some] at hk
      subst hk
      exact isSome_intText.1 (isSome_print_of_lookup h hl)
  | _ => cases hk

end

/-! ### Built objects -/

theorem roomMembers_insert {L : Layout} {d : ℕ} {k : Text} {v : Value F} : ∀ ms : List (Text × Value F),
    roomMembers L d (insert k v ms) ≤ (L.sep d).length + k.length + 5 + room L d v + roomMembers L d ms
  | [] => le_rfl
  | (j, w) :: ms => by
    rw [insert]
    split_ifs with h1 h2
    · rw [roomMembers, roomMembers]
      omega
    · rw [roomMembers]
    · have ih := roomMembers_insert (L := L) (d := d) (k := k) (v := v) ms
      rw [roomMembers, roomMembers]
      omega

/-- **The room of a built object.** -/
theorem room_record {L : Layout} {d : ℕ} {ms : List (String × Value F)} : room L d (.record ms) ≤
    (ms.map fun m => (L.sep (d + 1)).length + (text m.1).length + 5 + room L (d + 1) m.2).sum +
      ((L.gap (d + 1)).length + (L.gap d).length + 2) := by
  have hmembers : ∀ ms : List (String × Value F), roomMembers L (d + 1) (Value.fields ms) ≤
      (ms.map fun m => (L.sep (d + 1)).length + (text m.1).length + 5 + room L (d + 1) m.2).sum := by
    intro ms
    induction ms with
    | nil => exact le_rfl
    | cons m ms ih =>
      refine (roomMembers_insert _).trans ?_
      rw [List.map_cons, List.sum_cons]
      omega
  have := hmembers ms
  rw [Value.record, room]
  omega

theorem plain_record {ms : List (String × Value F)} {names : List String} (hk : ms.map (·.1) = names)
    (hn : ∀ name ∈ names, PlainText (text name)) (h : ∀ m ∈ ms, Plain m.2) : Plain (.record ms) := by
  refine .obj (fun m hm => ?_) fun m hm => ?_
  · obtain ⟨x, hx, rfl⟩ := Value.mem_fields hm
    exact hn _ (hk ▸ List.mem_map_of_mem hx)
  · obtain ⟨x, hx, rfl⟩ := Value.mem_fields hm
    exact h x hx

end PyJson

end ZkRuntime
