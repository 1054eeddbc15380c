import ZkRuntime.Common.JsonRoundTrip
/-!
# What a JSON text is made of

A text is printable ASCII and the white space of its layout
(`drawn_print`), so that one on a single line has no line break in it
(`printable_print`), and the text of a plain value, one whose strings
need no escapes, whose integers are short and which has no floating point
number in it, is the text of no other value (`eq_of_dumps_eq`).
-/

namespace ZkRuntime

namespace PyJson

variable {F : Type} [Floats F]

/-! ### What a text on one line is made of -/

/-- Printable ASCII. -/
def Printable (t : Text) : Prop := ∀ c ∈ t, 0x20 ≤ c ∧ c ≤ 0x7E

theorem printable_append {s t : Text} (hs : Printable s) (ht : Printable t) : Printable (s ++ t) := by
  intro c hc
  exact (List.mem_append.1 hc).elim (hs c) (ht c)

theorem printable_cons {c : ℕ} {t : Text} (hc : 0x20 ≤ c ∧ c ≤ 0x7E) (ht : Printable t) :
    Printable (c :: t) := by
  intro x hx
  rcases List.mem_cons.1 hx with rfl | hx
  · exact hc
  · exact ht x hx

theorem printable_nil : Printable [] := fun _ h => absurd h List.not_mem_nil

theorem hexChar_printable {n : ℕ} (h : n < 16) : 0x20 ≤ hexChar n ∧ hexChar n ≤ 0x7E := by
  rw [hexChar]
  split_ifs <;> omega

theorem printable_unitEscape {u : ℕ} (h : u < 0x10000) : Printable (unitEscape u) :=
  printable_cons (by decide) <| printable_cons (by decide) <|
    printable_cons (hexChar_printable (by omega)) <| printable_cons (hexChar_printable (by omega)) <|
      printable_cons (hexChar_printable (by omega)) <| printable_cons (hexChar_printable (by omega)) printable_nil

theorem printable_escapeChar {c : ℕ} (h : c < 0x110000) : Printable (escapeChar c) := by
  have two : ∀ x, 0x20 ≤ x ∧ x ≤ 0x7E → Printable [0x5C, x] := fun x hx =>
    printable_cons (by decide) (printable_cons hx printable_nil)
  rw [escapeChar]
  split_ifs with h1 h2 h3 h4 h5 h6 h7 h8 h9
  · exact two _ (by decide)
  · exact two _ (by decide)
  · exact two _ (by decide)
  · exact two _ (by decide)
  · exact two _ (by decide)
  · exact two _ (by decide)
  · exact two _ (by decide)
  · exact printable_cons h8 printable_nil
  · exact printable_unitEscape h9
  · exact printable_append (printable_unitEscape (by omega)) (printable_unitEscape (by omega))

theorem printable_quoted {s : Text} (h : Proper s) : Printable (quoted s) := by
  have hesc : Printable (escape s) := by
    induction s with
    | nil => exact printable_nil
    | cons c s ih =>
      exact printable_append (printable_escapeChar (h.1 c List.mem_cons_self)) (ih h.tail)
  exact printable_cons (by decide) (printable_append hesc (printable_cons (by decide) printable_nil))

theorem printable_digits {ds : Text} (h : ∀ x ∈ ds, isDigit x = true) : Printable ds := by
  intro c hc
  have := h c hc
  rw [isDigit, Bool.and_eq_true, decide_eq_true_eq, decide_eq_true_eq] at this
  omega

theorem printable_intText {n : ℤ} {t : Text} (h : intText n = some t) : Printable t := by
  have hd : Printable (digits n.natAbs) := printable_digits fun x hx => isDigit_of_mem_digits hx
  rw [intText] at h
  split_ifs at h
  · obtain rfl := Option.some.inj h
    exact printable_cons (by decide) hd
  · obtain rfl := Option.some.inj h
    exact hd

theorem printable_whole {n : Text} (h : Whole n) : Printable n := by
  rcases h with rfl | ⟨c, ds, -, -, hd⟩
  · exact printable_cons (by decide) printable_nil
  · exact printable_digits hd

theorem printable_repr {x : F} {t : Text} (h : Floats.repr x = some t) : Printable t := by
  obtain ⟨s, n, f, e, rfl, hs, hn, hf, he, -⟩ := Floats.floatToken_of_repr h
  refine printable_append (printable_append (printable_append ?_ (printable_whole hn)) ?_) ?_
  · rcases hs with rfl | rfl
    · exact printable_nil
    · exact printable_cons (by decide) printable_nil
  · rcases hf with rfl | ⟨ds, rfl, -, hd⟩
    · exact printable_nil
    · exact printable_cons (by decide) (printable_digits hd)
  · rcases he with rfl | ⟨m, g, ds, rfl, hm, hg, -, hd⟩
    · exact printable_nil
    · refine printable_cons (by omega) (printable_append ?_ (printable_digits hd))
      rcases hg with rfl | rfl | rfl
      · exact printable_nil
      · exact printable_cons (by decide) printable_nil
      · exact printable_cons (by decide) printable_nil

/-- **What a text in a layout is made of**: printable ASCII and the white
space of the layout. -/
def Drawn (L : Layout) (t : Text) : Prop := ∀ c ∈ t, (0x20 ≤ c ∧ c ≤ 0x7E) ∨ ∃ d, c ∈ L.gap d ∨ c ∈ L.sep d

section

variable {L : Layout}

theorem Printable.drawn {t : Text} (h : Printable t) : Drawn L t := fun c hc => .inl (h c hc)

theorem drawn_gap (d : ℕ) : Drawn L (L.gap d) := fun _ hc => .inr ⟨d, .inl hc⟩

theorem drawn_sep (d : ℕ) : Drawn L (L.sep d) := fun _ hc => .inr ⟨d, .inr hc⟩

theorem drawn_append {s t : Text} (hs : Drawn L s) (ht : Drawn L t) : Drawn L (s ++ t) := by
  intro c hc
  exact (List.mem_append.1 hc).elim (hs c) (ht c)

theorem drawn_cons {c : ℕ} {t : Text} (hc : 0x20 ≤ c ∧ c ≤ 0x7E) (ht : Drawn L t) : Drawn L (c :: t) :=
  drawn_append (s := [c]) (printable_cons hc printable_nil).drawn ht

theorem drawn_singleton {c : ℕ} (hc : 0x20 ≤ c ∧ c ≤ 0x7E) : Drawn L [c] :=
  (printable_cons hc printable_nil).drawn

theorem drawn_colon : Drawn L [0x3A, 0x20] := drawn_cons (by decide) (drawn_singleton (by decide))

theorem drawn_printItems {d : ℕ} : ∀ {vs : List (Value F)} {tail : Text},
    (∀ w ∈ vs, ∀ tw, print L d w = some tw → Drawn L tw) → printItems L d vs = some tail → Drawn L tail
  | [], tail, _, h => by
    obtain rfl := Option.some.inj h
    exact printable_nil.drawn
  | v :: vs, tail, hv, h => by
    simp only [printItems, bind, Option.bind_eq_some_iff] at h
    obtain ⟨head, hhead, tail', htail, h⟩ := h
    obtain rfl := Option.some.inj h
    have ih := drawn_printItems (fun w hw => hv w (List.mem_cons_of_mem _ hw)) htail
    have hv := hv v List.mem_cons_self head hhead
    exact drawn_cons (by decide) (drawn_append (drawn_append (drawn_sep d) hv) ih)

theorem drawn_printMembers {d : ℕ} : ∀ {ms : List (Text × Value F)} {tail : Text},
    (∀ m ∈ ms, Proper m.1) → (∀ m ∈ ms, ∀ tm, print L d m.2 = some tm → Drawn L tm) →
    printMembers L d ms = some tail → Drawn L tail
  | [], tail, _, _, h => by
    obtain rfl := Option.some.inj h
    exact printable_nil.drawn
  | (k, v) :: ms, tail, hk, hv, h => by
    simp only [printMembers, bind, Option.bind_eq_some_iff] at h
    obtain ⟨head, hhead, tail', htail, h⟩ := h
    obtain rfl := Option.some.inj h
    have ih := drawn_printMembers (fun m hm => hk m (List.mem_cons_of_mem _ hm))
      (fun m hm => hv m (List.mem_cons_of_mem _ hm)) htail
    have hkey : Drawn L (quoted k) := (printable_quoted (hk (k, v) List.mem_cons_self)).drawn
    have hv := hv (k, v) List.mem_cons_self head hhead
    exact drawn_cons (by decide) (drawn_append (drawn_append (drawn_append
      (drawn_append (drawn_sep d) hkey) drawn_colon) hv) ih)

/-- **What a text is made of**, in every layout. -/
theorem drawn_print {v : Value F} (hv : v.Wf) : ∀ {d : ℕ} {t : Text}, print L d v = some t → Drawn L t := by
  have hliteral : ∀ {t : Text}, (∀ c ∈ t, 0x20 ≤ c ∧ c ≤ 0x7E) → Drawn L t := fun h => Printable.drawn h
  induction hv with
  | null =>
    intro d t h
    obtain rfl := Option.some.inj h
    exact hliteral (by decide)
  | bool b =>
    intro d t h
    obtain rfl := Option.some.inj h
    exact hliteral (by cases b <;> decide)
  | int k => exact fun h => (printable_intText h).drawn
  | float x => exact fun h => (printable_repr h).drawn
  | str hs =>
    intro d t h
    obtain rfl := Option.some.inj h
    exact (printable_quoted hs).drawn
  | @arr items h ih =>
    intro d t ht
    cases items with
    | nil =>
      obtain rfl := Option.some.inj ht
      exact hliteral (by decide)
    | cons v vs =>
      simp only [print, bind, Option.bind_eq_some_iff] at ht
      obtain ⟨head, hhead, tail, htail, ht⟩ := ht
      obtain rfl := Option.some.inj ht
      have h1 := ih v List.mem_cons_self hhead
      have h2 := drawn_printItems (fun w hw _ h => ih w (List.mem_cons_of_mem _ hw) h) htail
      exact drawn_cons (by decide) (drawn_append (drawn_append (drawn_append
        (drawn_append (drawn_gap _) h1) h2) (drawn_gap _)) (drawn_singleton (by decide)))
  | @obj members hs hk h ih =>
    intro d t ht
    cases members with
    | nil =>
      obtain rfl := Option.some.inj ht
      exact hliteral (by decide)
    | cons m ms =>
      obtain ⟨k, v⟩ := m
      simp only [print, bind, Option.bind_eq_some_iff] at ht
      obtain ⟨head, hhead, tail, htail, ht⟩ := ht
      obtain rfl := Option.some.inj ht
      have h1 := ih (k, v) List.mem_cons_self hhead
      have h2 := drawn_printMembers (fun x hx => hk x (List.mem_cons_of_mem _ hx))
        (fun x hx _ h => ih x (List.mem_cons_of_mem _ hx) h) htail
      have hkey : Drawn L (quoted k) := (printable_quoted (hk (k, v) List.mem_cons_self)).drawn
      exact drawn_cons (by decide) (drawn_append (drawn_append (drawn_append
        (drawn_append (drawn_append (drawn_append (drawn_gap _) hkey) drawn_colon) h1) h2) (drawn_gap _))
        (drawn_singleton (by decide)))

end

/-- **What is written on one line is printable ASCII.** -/
theorem printable_print {v : Value F} (hv : v.Wf) {d : ℕ} {t : Text} (h : print oneLine d v = some t) :
    Printable t := by
  intro c hc
  rcases drawn_print hv h c hc with hc | ⟨e, hc | hc⟩
  · exact hc
  · exact absurd hc List.not_mem_nil
  · rw [List.mem_singleton.1 hc]
    decide

/-! ### Plain values -/

/-- A string whose literal is the string itself in quotes. -/
def PlainText (s : Text) : Prop := ∀ c ∈ s, 0x20 ≤ c ∧ c ≤ 0x7E ∧ c ≠ 0x22 ∧ c ≠ 0x5C

instance (s : Text) : Decidable (PlainText s) := List.decidableBAll _ s

/-- An integer of no more digits than one is written with. -/
def Short (n : ℤ) : Prop := n.natAbs < 10 ^ maxDigits

/-- **A plain value**: no string in it needs an escape, and no integer has too
many digits. -/
inductive Plain : Value F → Prop where
  | null : Plain .null
  | bool (b : Bool) : Plain (.bool b)
  | int {n : ℤ} (h : Short n) : Plain (.int n)
  | str {s : Text} (h : PlainText s) : Plain (.str s)
  | arr {items : List (Value F)} (h : ∀ v ∈ items, Plain v) : Plain (.arr items)
  | obj {members : List (Text × Value F)} (hk : ∀ m ∈ members, PlainText m.1)
      (h : ∀ m ∈ members, Plain m.2) : Plain (.obj members)

theorem escape_plain : ∀ {s : Text}, PlainText s → escape s = s
  | [], _ => rfl
  | c :: s, h => by
    have hc := h c List.mem_cons_self
    rw [escape, escape_plain fun x hx => h x (List.mem_cons_of_mem _ hx), escapeChar, if_neg hc.2.2.1,
      if_neg hc.2.2.2, if_neg (by omega), if_neg (by omega), if_neg (by omega), if_neg (by omega),
      if_neg (by omega), if_pos ⟨hc.1, hc.2.1⟩]
    rfl

/-- An escape starts with a backslash, or is the character itself. -/
theorem escapeChar_head (c : ℕ) : (∃ s, escapeChar c = 0x5C :: s) ∨ escapeChar c = [c] ∧ c ≠ 0x22 := by
  rw [escapeChar]
  split_ifs with h1
  · exact .inl ⟨_, rfl⟩
  · exact .inl ⟨_, rfl⟩
  · exact .inl ⟨_, rfl⟩
  · exact .inl ⟨_, rfl⟩
  · exact .inl ⟨_, rfl⟩
  · exact .inl ⟨_, rfl⟩
  · exact .inl ⟨_, rfl⟩
  · exact .inr ⟨rfl, h1⟩
  · exact .inl ⟨_, rfl⟩
  · exact .inl ⟨_, rfl⟩

/-- The literal of a plain string is the literal of no other. -/
theorem escape_inj : ∀ {s' : Text}, PlainText s' → ∀ {s r r' : Text},
    escape s ++ 0x22 :: r = s' ++ 0x22 :: r' → s = s' ∧ r = r'
  | [], _, s, r, r', h => by
    cases s with
    | nil => exact ⟨rfl, (List.cons.inj h).2⟩
    | cons c s =>
      exfalso
      rw [escape, List.nil_append, List.append_assoc] at h
      rcases escapeChar_head c with ⟨t, e⟩ | ⟨e, hne⟩
      · rw [e] at h
        exact absurd (List.cons.inj h).1 (by decide)
      · rw [e] at h
        exact hne (List.cons.inj h).1
  | c' :: s', hs, s, r, r', h => by
    have hc' := hs c' List.mem_cons_self
    cases s with
    | nil => exact absurd (List.cons.inj h).1.symm hc'.2.2.1
    | cons c s =>
      rw [escape, List.append_assoc, List.cons_append] at h
      rcases escapeChar_head c with ⟨t, e⟩ | ⟨e, -⟩
      · rw [e] at h
        exact absurd (List.cons.inj h).1.symm hc'.2.2.2
      · rw [e, List.cons_append, List.nil_append] at h
        obtain ⟨rfl, hcons⟩ := List.cons.inj h
        obtain ⟨rfl, hr⟩ := escape_inj (fun x hx => hs x (List.mem_cons_of_mem _ hx)) hcons
        exact ⟨rfl, hr⟩

/-- **The text of a value is the text of no other.** -/
def Determined (b : Value F) (d : ℕ) : Prop :=
  ∀ {a : Value F} {ta tb r r' : Text}, print oneLine d a = some ta → print oneLine d b = some tb →
    Ends r → Ends r' → ta ++ r = tb ++ r' → a = b ∧ r = r'

theorem ends_items {d : ℕ} {vs : List (Value F)} {tail r : Text} (h : printItems oneLine d vs = some tail) :
    Ends (tail ++ 0x5D :: r) := by
  cases vs with
  | nil => obtain rfl := Option.some.inj h; exact ends_cons (by decide)
  | cons v vs =>
    simp only [printItems, bind, Option.bind_eq_some_iff] at h
    obtain ⟨head, -, tail', -, h⟩ := h
    obtain rfl := Option.some.inj h
    exact ends_cons (by decide)

theorem ends_members {d : ℕ} {ms : List (Text × Value F)} {tail r : Text}
    (h : printMembers oneLine d ms = some tail) : Ends (tail ++ 0x7D :: r) := by
  cases ms with
  | nil => obtain rfl := Option.some.inj h; exact ends_cons (by decide)
  | cons m ms =>
    simp only [printMembers, bind, Option.bind_eq_some_iff] at h
    obtain ⟨head, -, tail', -, h⟩ := h
    obtain rfl := Option.some.inj h
    exact ends_cons (by decide)

theorem printItems_inj {d : ℕ} : ∀ {ws vs : List (Value F)} {tv tw r r' : Text},
    (∀ w ∈ ws, Determined w d) → printItems oneLine d vs = some tv → printItems oneLine d ws = some tw →
    tv ++ 0x5D :: r = tw ++ 0x5D :: r' → vs = ws ∧ r = r'
  | [], vs, tv, tw, r, r', _, hv, hw, h => by
    obtain rfl := Option.some.inj hw
    cases vs with
    | nil => obtain rfl := Option.some.inj hv; exact ⟨rfl, (List.cons.inj h).2⟩
    | cons v vs =>
      simp only [printItems, bind, Option.bind_eq_some_iff] at hv
      obtain ⟨head, -, tail, -, hv⟩ := hv
      obtain rfl := Option.some.inj hv
      exact absurd (List.cons.inj h).1 (by decide)
  | w :: ws, vs, tv, tw, r, r', hdet, hv, hw, h => by
    simp only [printItems, bind, Option.bind_eq_some_iff] at hw
    obtain ⟨headw, hheadw, tailw, htailw, hw⟩ := hw
    obtain rfl := Option.some.inj hw
    cases vs with
    | nil =>
      obtain rfl := Option.some.inj hv
      exact absurd (List.cons.inj h).1 (by decide)
    | cons v vs =>
      simp only [printItems, bind, Option.bind_eq_some_iff] at hv
      obtain ⟨headv, hheadv, tailv, htailv, hv⟩ := hv
      obtain rfl := Option.some.inj hv
      simp only [oneLine, List.cons_append, List.nil_append, List.append_assoc, List.cons.injEq,
        true_and] at h
      obtain ⟨rfl, htail⟩ := hdet w List.mem_cons_self hheadv hheadw (ends_items htailv)
        (ends_items htailw) h
      obtain ⟨rfl, hr⟩ := printItems_inj (fun x hx => hdet x (List.mem_cons_of_mem _ hx)) htailv htailw htail
      exact ⟨rfl, hr⟩

theorem printMembers_inj {d : ℕ} : ∀ {ns ms : List (Text × Value F)} {tm tn r r' : Text},
    (∀ n ∈ ns, PlainText n.1) → (∀ n ∈ ns, Determined n.2 d) → printMembers oneLine d ms = some tm →
    printMembers oneLine d ns = some tn → tm ++ 0x7D :: r = tn ++ 0x7D :: r' → ms = ns ∧ r = r'
  | [], ms, tm, tn, r, r', _, _, hm, hn, h => by
    obtain rfl := Option.some.inj hn
    cases ms with
    | nil => obtain rfl := Option.some.inj hm; exact ⟨rfl, (List.cons.inj h).2⟩
    | cons m ms =>
      simp only [printMembers, bind, Option.bind_eq_some_iff] at hm
      obtain ⟨head, -, tail, -, hm⟩ := hm
      obtain rfl := Option.some.inj hm
      exact absurd (List.cons.inj h).1 (by decide)
  | (k', w) :: ns, ms, tm, tn, r, r', hk, hdet, hm, hn, h => by
    simp only [printMembers, bind, Option.bind_eq_some_iff] at hn
    obtain ⟨headw, hheadw, tailw, htailw, hn⟩ := hn
    obtain rfl := Option.some.inj hn
    cases ms with
    | nil =>
      obtain rfl := Option.some.inj hm
      exact absurd (List.cons.inj h).1 (by decide)
    | cons m ms =>
      obtain ⟨k, v⟩ := m
      simp only [printMembers, bind, Option.bind_eq_some_iff] at hm
      obtain ⟨headv, hheadv, tailv, htailv, hm⟩ := hm
      obtain rfl := Option.some.inj hm
      have hplain := hk (k', w) List.mem_cons_self
      simp only [oneLine, quoted, escape_plain hplain, List.cons_append, List.nil_append, List.append_assoc,
        List.cons.injEq, true_and] at h
      obtain ⟨rfl, hvalue⟩ := escape_inj hplain h
      simp only [List.cons.injEq, true_and] at hvalue
      obtain ⟨rfl, htail⟩ := hdet (k, w) List.mem_cons_self hheadv hheadw (ends_members htailv)
        (ends_members htailw) hvalue
      obtain ⟨rfl, hr⟩ := printMembers_inj (fun x hx => hk x (List.mem_cons_of_mem _ hx))
        (fun x hx => hdet x (List.mem_cons_of_mem _ hx)) htailv htailw htail
      exact ⟨rfl, hr⟩

/-- A value that is read back is told from any other that is. -/
theorem eq_of_readBack {a b : Value F} {ta tb r r' : Text} (ha : ReadBack a ta) (hb : ReadBack b tb)
    (hr : Ends r) (hr' : Ends r') (h : ta ++ r = tb ++ r') : a = b ∧ r = r' := by
  have hlen : ta.length + r.length = tb.length + r'.length := by
    rw [← List.length_append, ← List.length_append, h]
  have h1 := ha r hr _ le_rfl
  have h2 := hb r' hr' (2 * (ta.length + r.length)) (by omega)
  rw [h, h2] at h1
  obtain ⟨rfl, rfl⟩ := Prod.mk.inj (Option.some.inj h1)
  exact ⟨rfl, rfl⟩

/-- Only a string is read from a text that starts with a quote. -/
theorem isStr_of_readBack {b : Value F} {t r tb : Text} (hb : ReadBack b tb) (hr : Ends r)
    (h : 0x22 :: t = tb ++ r) : ∃ s, b = .str s := by
  have hread := hb r hr (2 * (tb.length + r.length) + 1) (by omega)
  rw [← h, readValue, if_pos rfl] at hread
  obtain ⟨p, -, e⟩ := Option.map_eq_some_iff.1 hread
  exact ⟨p.1, (Prod.mk.inj e).1.symm⟩

/-- **One level of a plain value.** Scalars and the empty containers are
told apart by reading them, a string literal that is read as a plain
string is its own, and in a container the items follow one another. -/
theorem determined_of_inner {b : Value F} (hp : Plain b) (hw : b.Wf) (d : ℕ)
    (hitems : ∀ items, b = .arr items → ∀ w ∈ items, Determined w (d + 1))
    (hmembers : ∀ ms, b = .obj ms → ∀ m ∈ ms, Determined m.2 (d + 1)) : Determined b d := by
  intro a ta tb r r' ha hb hr hr' h
  have hbread := readBack_print hw hb
  cases a with
  | null => exact eq_of_readBack (readBack_print .null ha) hbread hr hr' h
  | bool x => exact eq_of_readBack (readBack_print (.bool x) ha) hbread hr hr' h
  | int n => exact eq_of_readBack (readBack_print (.int n) ha) hbread hr hr' h
  | float x => exact eq_of_readBack (readBack_print (.float x) ha) hbread hr hr' h
  | str s =>
    obtain rfl := Option.some.inj ha
    obtain ⟨s', rfl⟩ := isStr_of_readBack hbread hr' h
    obtain rfl := Option.some.inj hb
    cases hp with
    | str hs =>
      simp only [quoted, escape_plain hs, List.cons_append, List.append_assoc, List.nil_append,
        List.cons.injEq, true_and] at h
      obtain ⟨rfl, hr⟩ := escape_inj hs h
      exact ⟨rfl, hr⟩
  | arr items =>
    cases items with
    | nil => exact eq_of_readBack (readBack_print (.arr fun _ h => absurd h List.not_mem_nil) ha) hbread hr hr' h
    | cons v vs =>
      simp only [print, bind, Option.bind_eq_some_iff] at ha
      obtain ⟨headv, hheadv, tailv, htailv, ha⟩ := ha
      obtain rfl := Option.some.inj ha
      obtain ⟨c, t, rfl, -, -, hc, -⟩ := leads_print hb
      obtain ⟨items, rfl⟩ := hc (List.cons.inj h).1.symm
      cases items with
      | nil =>
        -- A value does not start like the end of an array.
        obtain ⟨-, rfl⟩ := List.cons.inj (Option.some.inj hb)
        obtain ⟨c, s, rfl, -, hc⟩ := starts_print hheadv
        exact absurd (List.cons.inj (List.cons.inj h).2).1 hc
      | cons w ws =>
        simp only [print, bind, Option.bind_eq_some_iff] at hb
        obtain ⟨headw, hheadw, tailw, htailw, hb⟩ := hb
        obtain ⟨rfl, rfl⟩ := List.cons.inj (Option.some.inj hb)
        simp only [oneLine, List.cons_append, List.nil_append, List.append_assoc, List.append_nil,
          List.cons.injEq, true_and] at h
        obtain ⟨rfl, htail⟩ := hitems _ rfl w List.mem_cons_self hheadv hheadw (ends_items htailv)
          (ends_items htailw) h
        obtain ⟨rfl, hr⟩ := printItems_inj (fun x hx => hitems _ rfl x (List.mem_cons_of_mem _ hx)) htailv
          htailw htail
        exact ⟨rfl, hr⟩
  | obj members =>
    cases members with
    | nil =>
      refine eq_of_readBack (readBack_print (.obj List.Pairwise.nil ?_ ?_) ha) hbread hr hr' h
      · exact fun _ h => absurd h List.not_mem_nil
      · exact fun _ h => absurd h List.not_mem_nil
    | cons m ms =>
      obtain ⟨k, v⟩ := m
      simp only [print, bind, Option.bind_eq_some_iff] at ha
      obtain ⟨headv, hheadv, tailv, htailv, ha⟩ := ha
      obtain rfl := Option.some.inj ha
      obtain ⟨c, t, rfl, -, -, -, hc⟩ := leads_print hb
      obtain ⟨ns, rfl⟩ := hc (List.cons.inj h).1.symm
      cases ns with
      | nil =>
        obtain ⟨-, rfl⟩ := List.cons.inj (Option.some.inj hb)
        exact absurd (List.cons.inj (List.cons.inj h).2).1 (by decide)
      | cons n ns =>
        obtain ⟨k', w⟩ := n
        simp only [print, bind, Option.bind_eq_some_iff] at hb
        obtain ⟨headw, hheadw, tailw, htailw, hb⟩ := hb
        obtain ⟨rfl, rfl⟩ := List.cons.inj (Option.some.inj hb)
        cases hp with
        | obj hk _ =>
          have hplain := hk (k', w) List.mem_cons_self
          simp only [oneLine, quoted, escape_plain hplain, List.cons_append, List.nil_append,
            List.append_assoc, List.append_nil, List.cons.injEq, true_and] at h
          obtain ⟨rfl, hvalue⟩ := escape_inj hplain h
          simp only [List.cons.injEq, true_and] at hvalue
          obtain ⟨rfl, htail⟩ := hmembers _ rfl (k, w) List.mem_cons_self hheadv hheadw
            (ends_members htailv) (ends_members htailw) hvalue
          obtain ⟨rfl, hr⟩ := printMembers_inj (fun x hx => hk x (List.mem_cons_of_mem _ hx))
            (fun x hx => hmembers _ rfl x (List.mem_cons_of_mem _ hx)) htailv htailw htail
          exact ⟨rfl, hr⟩

theorem determined_of_plain {b : Value F} (hp : Plain b) : b.Wf → ∀ d, Determined b d := by
  induction hp with
  | null => exact fun hw d => determined_of_inner .null hw d (by simp) (by simp)
  | bool x => exact fun hw d => determined_of_inner (.bool x) hw d (by simp) (by simp)
  | int h => exact fun hw d => determined_of_inner (.int h) hw d (by simp) (by simp)
  | str hs => exact fun hw d => determined_of_inner (.str hs) hw d (by simp) (by simp)
  | arr h ih =>
    intro hw d
    refine determined_of_inner (.arr h) hw d ?_ (by simp)
    rintro items e w hmem
    obtain rfl := Value.arr.inj e
    cases hw with
    | arr hws => exact ih w hmem (hws w hmem) (d + 1)
  | obj hk h ih =>
    intro hw d
    refine determined_of_inner (.obj hk h) hw d (by simp) ?_
    rintro ms e m hmem
    obtain rfl := Value.obj.inj e
    cases hw with
    | obj _ _ hws => exact ih m hmem (hws m hmem) (d + 1)

/-- **A plain value is the only one of its text.** -/
theorem eq_of_dumps_eq {a b : Value F} (hp : Plain b) (hw : b.Wf) {t : Text} (ha : dumps a = some t)
    (hb : dumps b = some t) : a = b :=
  (determined_of_plain hp hw 0 ha hb ends_nil ends_nil rfl).1

end PyJson

end ZkRuntime
