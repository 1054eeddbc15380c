import ZkRuntime.Common.JsonText
/-!
# The JSON reader inverts the writer

Read back in turn: a string literal (`readString_escape`), an integer
(`readNumber_intText`), a floating point number (`readNumber_repr`), and
from them, by induction on a value JSON can carry, the value itself
(`readBack_print`). A numeral is delimited only by what stands behind it,
so every statement is about a text with more text behind it, where no
numeral goes on (`Ends`). The layout is arbitrary throughout.
-/

namespace ZkRuntime

namespace PyJson

variable {F : Type} [Floats F]

/-! ### Strings read back -/

theorem hexValue_hexChar : ∀ n, n < 16 → hexValue (hexChar n) = some n := by decide

theorem hexUnit_unitEscape {u : ℕ} (h : u < 0x10000) :
    hexUnit (hexChar (u / 4096)) (hexChar (u / 256 % 16)) (hexChar (u / 16 % 16)) (hexChar (u % 16)) =
      some u := by
  rw [hexUnit, hexValue_hexChar _ (by omega), hexValue_hexChar _ (by omega), hexValue_hexChar _ (by omega),
    hexValue_hexChar _ (by omega)]
  exact congrArg some (by omega)

/-- An escaped unit that is no first half, or the first half of nothing,
stands for itself. -/
theorem readString_unit {u : ℕ} (h : u < 0x10000) (n : ℕ) (r : Text)
    (hu : isHighUnit u = true → readLow r = none) :
    readString (n + 1) (unitEscape u ++ r) = (readString n r).map fun q => (u :: q.1, q.2) := by
  have hlow : (if isHighUnit u then readLow r else none) = none := by
    split_ifs with hh
    · exact hu hh
    · rfl
  simp only [unitEscape, List.cons_append, List.nil_append, readString, hexUnit_unitEscape h, hlow]
  rfl

/-- A first half and a second half are one character. -/
theorem readString_pair {u w : ℕ} (hu : isHighUnit u = true) (hw : isLowUnit w = true) (n : ℕ) (r : Text) :
    readString (n + 1) (unitEscape u ++ (unitEscape w ++ r)) =
      (readString n r).map fun q => ((0x10000 + (u - 0xD800) * 0x400 + (w - 0xDC00)) :: q.1, q.2) := by
  have hu' : u < 0x10000 := by simp only [isHighUnit, Bool.and_eq_true, decide_eq_true_eq] at hu; omega
  have hw' : w < 0x10000 := by simp only [isLowUnit, Bool.and_eq_true, decide_eq_true_eq] at hw; omega
  simp only [unitEscape, List.cons_append, List.nil_append, readString, hexUnit_unitEscape hu', hu, readLow,
    hexUnit_unitEscape hw', hw]
  rfl

/-- A two-character escape. -/
theorem readString_escaped {e b : ℕ} (h : escapedChar e = some b) (he : e ≠ 0x75) (n : ℕ) (r : Text) :
    readString (n + 1) (0x5C :: e :: r) = (readString n r).map fun q => (b :: q.1, q.2) := by
  rw [readString, h]
  · rfl
  · exact fun _ _ _ _ _ h75 _ => he h75

theorem readString_raw {c : ℕ} (h1 : c ≠ 0x22) (h2 : c ≠ 0x5C) (h3 : 0x20 ≤ c) (n : ℕ) (r : Text) :
    readString (n + 1) (c :: r) = (readString n r).map fun q => (c :: q.1, q.2) := by
  rw [readString.eq_def]
  dsimp only
  rw [if_neg h1, if_neg h2, if_neg (by omega)]

/-- One character is read back, where no second half follows a first. -/
theorem readString_escapeChar {c : ℕ} (hc : c < 0x110000) (n : ℕ) (r : Text)
    (hr : isHighUnit c = true → readLow r = none) :
    readString (n + 1) (escapeChar c ++ r) = (readString n r).map fun q => (c :: q.1, q.2) := by
  rw [escapeChar]
  split_ifs with h1 h2 h3 h4 h5 h6 h7 h8 h9
  · subst h1; exact readString_escaped rfl (by decide) n r
  · subst h2; exact readString_escaped rfl (by decide) n r
  · subst h3; exact readString_escaped rfl (by decide) n r
  · subst h4; exact readString_escaped rfl (by decide) n r
  · subst h5; exact readString_escaped rfl (by decide) n r
  · subst h6; exact readString_escaped rfl (by decide) n r
  · subst h7; exact readString_escaped rfl (by decide) n r
  · exact readString_raw h1 h2 h8.1 n r
  · exact readString_unit h9 n r hr
  · rw [List.append_assoc, readString_pair]
    · have : 0x10000 + (0xD800 + (c - 0x10000) / 0x400 - 0xD800) * 0x400 +
          (0xDC00 + (c - 0x10000) % 0x400 - 0xDC00) = c := by omega
      rw [this]
    · rw [isHighUnit, Bool.and_eq_true, decide_eq_true_eq, decide_eq_true_eq]
      omega
    · rw [isLowUnit, Bool.and_eq_true, decide_eq_true_eq, decide_eq_true_eq]
      omega

theorem readLow_unitEscape {u : ℕ} (h : u < 0x10000) (hu : isLowUnit u = false) (r : Text) :
    readLow (unitEscape u ++ r) = none := by
  simp only [unitEscape, List.cons_append, List.nil_append, readLow, hexUnit_unitEscape h, hu]
  rfl

/-- Only a second half is written as one. -/
theorem readLow_escapeChar {c : ℕ} (hc : c < 0x110000) (hl : isLowUnit c = false) (r : Text) :
    readLow (escapeChar c ++ r) = none := by
  rw [escapeChar]
  split_ifs with h1 h2 h3 h4 h5 h6 h7 h8 h9
  · rfl
  · rfl
  · rfl
  · rfl
  · rfl
  · rfl
  · rfl
  · rw [List.cons_append, List.nil_append, readLow]
    exact fun _ _ _ _ _ e => h2 (List.cons.inj e).1
  · exact readLow_unitEscape h9 hl r
  · rw [List.append_assoc]
    refine readLow_unitEscape (by omega) ?_ _
    rw [isLowUnit, Bool.and_eq_false_iff, decide_eq_false_iff_not, decide_eq_false_iff_not]
    omega

/-- No second half stands behind a first. -/
theorem readLow_escape {c : ℕ} {s : Text} (h : Proper (c :: s)) (hc : isHighUnit c = true) (rest : Text) :
    readLow (escape s ++ 0x22 :: rest) = none := by
  cases s with
  | nil => rfl
  | cons d s =>
    have hd : isLowUnit d = false := by
      rw [← Bool.not_eq_true]
      exact fun hd => (List.isChain_cons_cons.1 h.2).1 ⟨hc, hd⟩
    rw [escape, List.append_assoc]
    exact readLow_escapeChar (h.1 d (by simp)) hd _

theorem escapeChar_ne_nil (c : ℕ) : escapeChar c ≠ [] := by
  rw [escapeChar]
  split_ifs <;> simp [unitEscape]

/-- A string is no longer than its literal. -/
theorem length_le_escape : ∀ s : Text, s.length ≤ (escape s).length
  | [] => le_rfl
  | c :: s => by
    have h1 := List.length_pos_iff.2 (escapeChar_ne_nil c)
    have h2 := length_le_escape s
    rw [escape, List.length_append, List.length_cons]
    omega

/-- **A string literal is read back.** -/
theorem readString_escape : ∀ {s : Text}, Proper s → ∀ {n : ℕ}, s.length < n → ∀ rest : Text,
    readString n (escape s ++ 0x22 :: rest) = some (s, rest)
  | [], _, n, hn, rest => by
    obtain ⟨m, rfl⟩ := Nat.exists_eq_add_of_lt hn
    simp [escape, readString]
  | c :: s, hs, n, hn, rest => by
    obtain ⟨m, rfl⟩ : ∃ m, n = m + 1 := ⟨n - 1, by omega⟩
    rw [List.length_cons] at hn
    rw [escape, List.append_assoc, readString_escapeChar (hs.1 c List.mem_cons_self) m _
      fun hc => readLow_escape hs hc rest, readString_escape hs.tail (by omega) rest]
    rfl

/-! ### Numbers read back -/

/-- **No numeral goes on into the text.** -/
def Ends (t : Text) : Prop := ∀ c, t.head? = some c → isDigit c = false ∧ c ≠ 0x2E ∧ c ≠ 0x65 ∧ c ≠ 0x45

theorem ends_nil : Ends [] := by
  intro c hc
  cases hc

theorem ends_cons {c : ℕ} {t : Text} (h : isDigit c = false ∧ c ≠ 0x2E ∧ c ≠ 0x65 ∧ c ≠ 0x45) :
    Ends (c :: t) := by
  intro d hd
  obtain rfl := Option.some.inj hd
  exact h

theorem takeWhile_digits {ds r : Text} (hd : ∀ x ∈ ds, isDigit x = true)
    (hr : ∀ c, r.head? = some c → isDigit c = false) : (ds ++ r).takeWhile isDigit = ds := by
  rw [List.takeWhile_append_of_pos hd]
  cases r with
  | nil => simp
  | cons c r => simp [hr c rfl]

theorem dropWhile_digits {ds r : Text} (hd : ∀ x ∈ ds, isDigit x = true)
    (hr : ∀ c, r.head? = some c → isDigit c = false) : (ds ++ r).dropWhile isDigit = r := by
  rw [List.dropWhile_append_of_pos hd]
  cases r with
  | nil => simp
  | cons c r => simp [hr c rfl]

theorem readNat_append {n r : Text} (hn : Whole n) (hr : ∀ c, r.head? = some c → isDigit c = false) :
    readNat (n ++ r) = some (n, r) := by
  rcases hn with rfl | ⟨c, ds, rfl, hc, hd⟩
  · rfl
  · have hds : ∀ x ∈ ds, isDigit x = true := fun x hx => hd x (List.mem_cons_of_mem _ hx)
    rw [List.cons_append, readNat, if_neg hc, if_pos (hd c List.mem_cons_self), takeWhile_digits hds hr,
      dropWhile_digits hds hr]

theorem readFraction_none {r : Text} (h : ∀ c, r.head? = some c → c ≠ 0x2E) :
    readFraction r = ([], r) := by
  rw [readFraction]
  rintro d r rfl
  exact h _ rfl rfl

theorem readFraction_append {ds r : Text} (hne : ds ≠ []) (hd : ∀ x ∈ ds, isDigit x = true)
    (hr : ∀ c, r.head? = some c → isDigit c = false) :
    readFraction (0x2E :: ds ++ r) = (0x2E :: ds, r) := by
  obtain ⟨d, ds, rfl⟩ := List.exists_cons_of_ne_nil hne
  have hds : ∀ x ∈ ds, isDigit x = true := fun x hx => hd x (List.mem_cons_of_mem _ hx)
  rw [List.cons_append, List.cons_append, readFraction, if_pos (hd d List.mem_cons_self),
    takeWhile_digits hds hr, dropWhile_digits hds hr]

theorem readExponent_none {r : Text} (h : ∀ c, r.head? = some c → c ≠ 0x65 ∧ c ≠ 0x45) :
    readExponent r = ([], r) := by
  cases r with
  | nil => rfl
  | cons c r =>
    rw [readExponent.eq_def]
    dsimp only
    rw [if_neg]
    rintro (hc | hc)
    · exact (h c rfl).1 hc
    · exact (h c rfl).2 hc

theorem readPower_append {m : ℕ} {g ds r : Text} (hne : ds ≠ []) (hd : ∀ x ∈ ds, isDigit x = true)
    (hr : ∀ c, r.head? = some c → isDigit c = false) :
    readPower m g (ds ++ r) = some (m :: (g ++ ds), r) := by
  obtain ⟨d, ds, rfl⟩ := List.exists_cons_of_ne_nil hne
  have hds : ∀ x ∈ ds, isDigit x = true := fun x hx => hd x (List.mem_cons_of_mem _ hx)
  rw [List.cons_append, readPower, if_pos (hd d List.mem_cons_self), takeWhile_digits hds hr,
    dropWhile_digits hds hr]

theorem readExponent_append {m : ℕ} {g ds r : Text} (hm : m = 0x65 ∨ m = 0x45)
    (hg : g = [] ∨ g = [0x2B] ∨ g = [0x2D]) (hne : ds ≠ []) (hd : ∀ x ∈ ds, isDigit x = true)
    (hr : ∀ c, r.head? = some c → isDigit c = false) :
    readExponent (m :: (g ++ ds) ++ r) = (m :: (g ++ ds), r) := by
  have hp : ∀ g, readPower m g (ds ++ r) = some (m :: (g ++ ds), r) := fun g => readPower_append hne hd hr
  rcases hg with rfl | rfl | rfl
  · -- Without a sign the first digit is no sign.
    obtain ⟨d, ds, rfl⟩ := List.exists_cons_of_ne_nil hne
    have hdig := hd d List.mem_cons_self
    have h1 : d ≠ 0x2B := by rintro rfl; exact absurd hdig (by decide)
    have h2 : d ≠ 0x2D := by rintro rfl; exact absurd hdig (by decide)
    have := hp []
    rw [List.nil_append, List.cons_append] at *
    rw [List.cons_append, readExponent.eq_def]
    dsimp only
    rw [if_pos hm]
    split
    · rename_i heq
      exact absurd (List.cons.inj heq).1 h1
    · rename_i heq
      exact absurd (List.cons.inj heq).1 h2
    · rw [this]
      rfl
  · rw [List.cons_append, List.append_assoc, readExponent.eq_def]
    dsimp only [List.cons_append, List.nil_append]
    rw [if_pos hm]
    show (readPower m [0x2B] (ds ++ r)).getD _ = _
    rw [hp]
    rfl
  · rw [List.cons_append, List.append_assoc, readExponent.eq_def]
    dsimp only [List.cons_append, List.nil_append]
    rw [if_pos hm]
    show (readPower m [0x2D] (ds ++ r)).getD _ = _
    rw [hp]
    rfl

theorem isDigit_of_mem_digits {n c : ℕ} (h : c ∈ digits n) : isDigit c = true := by
  obtain ⟨x, hx, rfl⟩ := List.mem_map.1 h
  have hx := Nat.isDigit_of_mem_toDigits (by omega) (by omega) hx
  simp only [Char.isDigit, Bool.and_eq_true, decide_eq_true_eq] at hx
  rw [isDigit, Bool.and_eq_true, decide_eq_true_eq, decide_eq_true_eq]
  exact hx

theorem whole_digits (n : ℕ) : Whole (digits n) := by
  induction n using Nat.strong_induction_on with
  | _ n ih =>
    by_cases h0 : n = 0
    · subst h0
      exact .inl rfl
    by_cases h10 : n < 10
    · refine .inr ⟨n.digitChar.toNat, [], ?_, ?_, fun x hx => isDigit_of_mem_digits hx⟩
      · rw [digits, Nat.toDigits_of_lt_base h10]
        rfl
      · have : ∀ n, n < 10 → n ≠ 0 → n.digitChar.toNat ≠ 0x30 := by decide
        exact this n h10 h0
    · have hsplit : digits n = digits (n / 10) ++ [(n % 10).digitChar.toNat] := by
        rw [digits, Nat.toDigits_of_base_le (by omega) (by omega), List.map_append]
        rfl
      rcases ih (n / 10) (by omega) with hz | ⟨c, ds, hc, hne, -⟩
      · -- A number of two digits does not start with a zero.
        have hv : Nat.ofDigitChars 10 (Nat.toDigits 10 (n / 10)) 0 = n / 10 := Nat.ofDigitChars_ten_toDigits
        have hz' : Nat.toDigits 10 (n / 10) = ['0'] := by
          refine List.map_injective_iff.2 (fun a b h => Char.ext (UInt32.toNat_inj.1 h)) ?_
          exact hz
        rw [hz'] at hv
        have : (0 : ℕ) = n / 10 := hv
        omega
      · refine .inr ⟨c, ds ++ [(n % 10).digitChar.toNat], ?_, hne, fun x hx => isDigit_of_mem_digits hx⟩
        rw [hsplit, hc, List.cons_append]

theorem digitsValue_digits (n : ℕ) : digitsValue (digits n) = n := by
  have hfold : ∀ (cs : List Char) (k : ℕ),
      (cs.map Char.toNat).foldl (fun n c => 10 * n + (c - 0x30)) k = Nat.ofDigitChars 10 cs k := by
    intro cs
    induction cs with
    | nil => intro k; simp [Nat.ofDigitChars_nil]
    | cons c cs ih =>
      intro k
      simp only [List.map_cons, List.foldl_cons, Nat.ofDigitChars_cons]
      exact ih _
  rw [digitsValue, digits, hfold]
  exact Nat.ofDigitChars_ten_toDigits

theorem Ends.noDigit {t : Text} (h : Ends t) : ∀ c, t.head? = some c → isDigit c = false :=
  fun c hc => (h c hc).1

/-- An integer numeral. -/
theorem readUnsigned_digits {n : ℕ} (negative : Bool) (hn : (digits n).length ≤ maxDigits) {rest : Text}
    (hr : Ends rest) : readUnsigned (F := F) negative (digits n ++ rest) =
      some (.int (if negative then -(n : ℤ) else n), rest) := by
  rw [readUnsigned, readNat_append (whole_digits n) hr.noDigit]
  dsimp only
  rw [readFraction_none fun c hc => (hr c hc).2.1, readExponent_none fun c hc => (hr c hc).2.2,
    if_pos ⟨rfl, rfl⟩, if_pos hn, digitsValue_digits]

/-- A text that starts with no minus sign is read as it stands. -/
theorem readNumber_of_ne {t : Text} (h : ∀ c, t.head? = some c → c ≠ 0x2D) :
    readNumber (F := F) t = readUnsigned false t := by
  rw [readNumber]
  rintro r rfl
  exact h _ rfl rfl

theorem Whole.head {n r : Text} (h : Whole n) : ∃ c s, n ++ r = c :: s ∧ isDigit c = true := by
  rcases h with rfl | ⟨c, ds, rfl, -, hd⟩
  · exact ⟨0x30, r, rfl, rfl⟩
  · exact ⟨c, ds ++ r, rfl, hd c List.mem_cons_self⟩

theorem Whole.head_ne {n r : Text} (h : Whole n) : ∀ c, (n ++ r).head? = some c → c ≠ 0x2D := by
  intro c hc
  obtain ⟨d, s, e, hd⟩ := h.head (r := r)
  rw [e] at hc
  obtain rfl := Option.some.inj hc
  rintro rfl
  exact absurd hd (by decide)

/-- **An integer is read back.** -/
theorem readNumber_intText {n : ℤ} {t rest : Text} (h : intText n = some t) (hr : Ends rest) :
    readNumber (F := F) (t ++ rest) = some (.int n, rest) := by
  rw [intText] at h
  split_ifs at h with hlen hneg
  · obtain rfl := Option.some.inj h
    show readUnsigned true (digits n.natAbs ++ rest) = _
    rw [readUnsigned_digits true hlen hr, if_pos rfl]
    congr 3
    omega
  · obtain rfl := Option.some.inj h
    rw [readNumber_of_ne (whole_digits _).head_ne, readUnsigned_digits false hlen hr, if_neg Bool.false_ne_true]
    congr 3
    omega

/-- What follows the integer part of a numeral is no digit. -/
theorem noDigit_fraction {f e rest : Text}
    (hf : f = [] ∨ ∃ ds, f = 0x2E :: ds ∧ ds ≠ [] ∧ ∀ x ∈ ds, isDigit x = true)
    (he : ∀ c, (e ++ rest).head? = some c → isDigit c = false) :
    ∀ c, (f ++ (e ++ rest)).head? = some c → isDigit c = false := by
  rcases hf with rfl | ⟨ds, rfl, -, -⟩
  · exact he
  · intro c hc
    obtain rfl := Option.some.inj hc
    rfl

theorem noDigit_exponent {e rest : Text} (hr : Ends rest)
    (he : e = [] ∨ ∃ m g ds, e = m :: (g ++ ds) ∧ (m = 0x65 ∨ m = 0x45) ∧ (g = [] ∨ g = [0x2B] ∨ g = [0x2D]) ∧
      ds ≠ [] ∧ ∀ x ∈ ds, isDigit x = true) :
    ∀ c, (e ++ rest).head? = some c → isDigit c = false ∧ c ≠ 0x2E := by
  rcases he with rfl | ⟨m, g, ds, rfl, hm, -⟩
  · exact fun c hc => ⟨(hr c hc).1, (hr c hc).2.1⟩
  · intro c hc
    obtain rfl := Option.some.inj hc
    rcases hm with rfl | rfl <;> exact ⟨rfl, by decide⟩

/-- **A floating point number is read back.** -/
theorem readNumber_repr {x : F} {t rest : Text} (h : Floats.repr x = some t) (hr : Ends rest) :
    readNumber (F := F) (t ++ rest) = some (.float x, rest) := by
  obtain ⟨s, n, f, e, ht, hs, hn, hf, he, hfe⟩ := Floats.floatToken_of_repr h
  have hread := Floats.read_repr h
  have hex := noDigit_exponent hr he
  have hF : readFraction (f ++ (e ++ rest)) = (f, e ++ rest) := by
    rcases hf with rfl | ⟨ds, rfl, hne, hd⟩
    · exact readFraction_none fun c hc => (hex c hc).2
    · exact readFraction_append hne hd fun c hc => (hex c hc).1
  have hE : readExponent (e ++ rest) = (e, rest) := by
    rcases he with rfl | ⟨m, g, ds, rfl, hm, hg, hne, hd⟩
    · exact readExponent_none fun c hc => (hr c hc).2.2
    · exact readExponent_append hm hg hne hd hr.noDigit
  have hun : ∀ negative : Bool, readUnsigned (F := F) negative (n ++ (f ++ (e ++ rest))) =
      some (.float (Floats.read ((if negative then [0x2D] else []) ++ n ++ f ++ e)), rest) := by
    intro negative
    rw [readUnsigned, readNat_append hn (noDigit_fraction hf fun c hc => (hex c hc).1)]
    dsimp only
    rw [hF, hE, if_neg]
    rintro ⟨hf', he'⟩
    exact hfe.elim (fun h => h hf') fun h => h he'
  rcases hs with rfl | rfl
  · rw [List.nil_append] at ht
    rw [ht, List.append_assoc, List.append_assoc, readNumber_of_ne hn.head_ne, hun]
    simp only [Bool.false_eq_true, if_false, List.nil_append]
    rw [← ht, hread]
  · rw [ht]
    simp only [List.cons_append, List.nil_append, List.append_assoc]
    show readUnsigned true (n ++ (f ++ (e ++ rest))) = _
    rw [hun]
    simp only [if_true]
    rw [← ht, hread]

/-! ### Values read back -/

/-- White space is skipped. -/
theorem skipBlank_append {g : Text} (hg : ∀ c ∈ g, isBlank c = true) {c : ℕ} (hc : isBlank c = false)
    (t : Text) : skipBlank (g ++ c :: t) = c :: t := by
  rw [skipBlank, List.dropWhile_append_of_pos hg, List.dropWhile_cons_of_neg (by simp [hc])]

theorem skipBlank_cons {c : ℕ} (hc : isBlank c = false) (t : Text) : skipBlank (c :: t) = c :: t :=
  skipBlank_append (fun _ h => absurd h List.not_mem_nil) hc t

/-- A numeral ends at white space and at a closing bracket. -/
theorem ends_append {g : Text} (hg : ∀ c ∈ g, isBlank c = true) {c : ℕ}
    (hc : isDigit c = false ∧ c ≠ 0x2E ∧ c ≠ 0x65 ∧ c ≠ 0x45) (t : Text) : Ends (g ++ c :: t) := by
  cases g with
  | nil => exact ends_cons hc
  | cons b g =>
    refine ends_cons ?_
    have hb := hg b List.mem_cons_self
    simp only [isBlank, Bool.or_eq_true, decide_eq_true_eq] at hb
    rcases hb with ((rfl | rfl) | rfl) | rfl <;> decide

/-- **How a value's text starts**: with no white space, and not like the
end of an array. -/
def Starts (t : Text) : Prop := ∃ c s, t = c :: s ∧ isBlank c = false ∧ c ≠ 0x5D

/-- How a numeral starts. -/
def StartsNumeral (t : Text) : Prop := ∃ c s, t = c :: s ∧ (c = 0x2D ∨ 0x30 ≤ c ∧ c ≤ 0x39)

theorem startsNumeral_whole {n r : Text} (h : Whole n) : StartsNumeral (n ++ r) := by
  obtain ⟨c, s, e, hc⟩ := h.head (r := r)
  rw [isDigit, Bool.and_eq_true, decide_eq_true_eq, decide_eq_true_eq] at hc
  exact ⟨c, s, e, .inr hc⟩

theorem startsNumeral_intText {n : ℤ} {t : Text} (h : intText n = some t) : StartsNumeral t := by
  rw [intText] at h
  split_ifs at h
  · obtain rfl := Option.some.inj h
    exact ⟨0x2D, _, rfl, .inl rfl⟩
  · obtain rfl := Option.some.inj h
    simpa using startsNumeral_whole (r := []) (whole_digits n.natAbs)

theorem startsNumeral_repr {x : F} {t : Text} (h : Floats.repr x = some t) : StartsNumeral t := by
  obtain ⟨s, n, f, e, rfl, hs, hn, -⟩ := Floats.floatToken_of_repr h
  rcases hs with rfl | rfl
  · rw [List.nil_append, List.append_assoc]
    exact startsNumeral_whole hn
  · exact ⟨0x2D, _, rfl, .inl rfl⟩

/-- The first character tells arrays and objects from the rest. -/
def Leads (v : Value F) (c : ℕ) : Prop :=
  isBlank c = false ∧ c ≠ 0x5D ∧ (c = 0x5B → ∃ items, v = .arr items) ∧ (c = 0x7B → ∃ ms, v = .obj ms)

omit [Floats F] in
theorem leads_numeral {v : Value F} {t : Text} (h : StartsNumeral t) : ∃ c s, t = c :: s ∧ Leads v c := by
  obtain ⟨c, s, rfl, hc⟩ := h
  refine ⟨c, s, rfl, ?_, by omega, fun h => by omega, fun h => by omega⟩
  simp only [isBlank, Bool.or_eq_false_iff, decide_eq_false_iff_not]
  omega

theorem leads_print {L : Layout} {d : ℕ} {v : Value F} {t : Text} (h : print L d v = some t) :
    ∃ c s, t = c :: s ∧ Leads v c := by
  cases v with
  | null => obtain rfl := Option.some.inj h; exact ⟨0x6E, _, rfl, rfl, by decide, by simp, by simp⟩
  | bool b =>
    obtain rfl := Option.some.inj h
    cases b
    · exact ⟨0x66, _, rfl, rfl, by decide, by simp, by simp⟩
    · exact ⟨0x74, _, rfl, rfl, by decide, by simp, by simp⟩
  | int n => exact leads_numeral (startsNumeral_intText h)
  | float x => exact leads_numeral (startsNumeral_repr h)
  | str s => obtain rfl := Option.some.inj h; exact ⟨0x22, _, rfl, rfl, by decide, by simp, by simp⟩
  | arr items =>
    cases items with
    | nil => obtain rfl := Option.some.inj h; exact ⟨0x5B, _, rfl, rfl, by decide, by simp, by simp⟩
    | cons v vs =>
      simp only [print, bind, Option.bind_eq_some_iff] at h
      obtain ⟨head, -, tail, -, h⟩ := h
      obtain rfl := Option.some.inj h
      exact ⟨0x5B, _, rfl, rfl, by decide, by simp, by simp⟩
  | obj members =>
    cases members with
    | nil => obtain rfl := Option.some.inj h; exact ⟨0x7B, _, rfl, rfl, by decide, by simp, by simp⟩
    | cons m ms =>
      simp only [print, bind, Option.bind_eq_some_iff] at h
      obtain ⟨head, -, tail, -, h⟩ := h
      obtain rfl := Option.some.inj h
      exact ⟨0x7B, _, rfl, rfl, by decide, by simp, by simp⟩

theorem starts_print {L : Layout} {d : ℕ} {v : Value F} {t : Text} (h : print L d v = some t) :
    Starts t := by
  obtain ⟨c, s, rfl, hb, hc, -⟩ := leads_print h
  exact ⟨c, s, rfl, hb, hc⟩

/-- A text of a value, read back in whatever stands behind it. -/
def ReadBack (v : Value F) (t : Text) : Prop :=
  ∀ rest, Ends rest → ∀ n, 2 * (t.length + rest.length) ≤ n → readValue n (t ++ rest) = some (v, rest)

theorem skipBlank_starts {g t : Text} (hg : ∀ c ∈ g, isBlank c = true) (ht : Starts t) (r : Text) :
    skipBlank (g ++ (t ++ r)) = t ++ r := by
  obtain ⟨c, s, rfl, hc, -⟩ := ht
  exact skipBlank_append hg hc (s ++ r)

theorem readItems_last {n : ℕ} {t r r' : Text} {v : Value F} (h : readValue n t = some (v, r))
    (hb : skipBlank r = 0x5D :: r') : readItems (n + 1) t = some ([v], r') := by
  rw [readItems, h]
  dsimp only
  rw [hb]
  rfl

theorem readItems_more {n : ℕ} {t r r' : Text} {v : Value F} (h : readValue n t = some (v, r))
    (hb : skipBlank r = 0x2C :: r') :
    readItems (n + 1) t = (readItems n (skipBlank r')).map fun p => (v :: p.1, p.2) := by
  rw [readItems, h]
  dsimp only
  rw [hb]
  rfl

theorem readMembers_last {n : ℕ} {t r r1 r2 r3 k : Text} {v : Value F} (hk : readString n t = some (k, r))
    (hc : skipBlank r = 0x3A :: r1) (hv : readValue n (skipBlank r1) = some (v, r2))
    (hb : skipBlank r2 = 0x7D :: r3) : readMembers (n + 1) t = some ([(k, v)], r3) := by
  simp only [readMembers, hk, hc, hv, hb]

theorem readMembers_more {n : ℕ} {t r r1 r2 r3 r4 k : Text} {v : Value F}
    (hk : readString n t = some (k, r)) (hc : skipBlank r = 0x3A :: r1)
    (hv : readValue n (skipBlank r1) = some (v, r2)) (hb : skipBlank r2 = 0x2C :: r3)
    (hq : skipBlank r3 = 0x22 :: r4) :
    readMembers (n + 1) t = (readMembers n r4).map fun p => ((k, v) :: p.1, p.2) := by
  simp only [readMembers, hk, hc, hv, hb, hq]

/-- **Items are read back**, one after another up to the bracket. -/
theorem readItems_print {L : Layout} {d : ℕ} {g : Text} (hg : ∀ c ∈ g, isBlank c = true) (rest : Text) :
    ∀ (vs : List (Value F)) (v : Value F) (tv tail : Text) (n : ℕ), ReadBack v tv →
      (∀ w ∈ vs, ∀ tw, print L d w = some tw → ReadBack w tw) → printItems L d vs = some tail →
      2 * (tv ++ (tail ++ (g ++ 0x5D :: rest))).length + 1 ≤ n →
      readItems n (tv ++ (tail ++ (g ++ 0x5D :: rest))) = some (v :: vs, rest)
  | [], v, tv, tail, n, hv, _, ht, hn => by
    obtain rfl := Option.some.inj ht
    obtain ⟨m, rfl⟩ : ∃ m, n = m + 1 := ⟨n - 1, by omega⟩
    rw [List.nil_append, List.length_append] at hn
    rw [List.nil_append]
    exact readItems_last (hv _ (ends_append hg (by decide) rest) m (by omega)) (skipBlank_append hg rfl rest)
  | w :: ws, v, tv, tail, n, hv, hw, ht, hn => by
    simp only [printItems, bind, Option.bind_eq_some_iff] at ht
    obtain ⟨head, hhead, tail', htail, ht⟩ := ht
    obtain rfl := Option.some.inj ht
    obtain ⟨m, rfl⟩ : ∃ m, n = m + 1 := ⟨n - 1, by omega⟩
    have hcat : (0x2C :: (L.sep d ++ head ++ tail')) ++ (g ++ 0x5D :: rest) =
        0x2C :: (L.sep d ++ (head ++ (tail' ++ (g ++ 0x5D :: rest)))) := by
      simp only [List.cons_append, List.append_assoc]
    rw [hcat] at hn ⊢
    rw [List.length_append] at hn
    have hlen : (0x2C :: (L.sep d ++ (head ++ (tail' ++ (g ++ 0x5D :: rest))))).length =
        (L.sep d).length + (head ++ (tail' ++ (g ++ 0x5D :: rest))).length + 1 := by
      rw [List.length_cons, List.length_append]
    have ih := readItems_print hg rest ws w head tail' m (hw w List.mem_cons_self head hhead)
      (fun x hx => hw x (List.mem_cons_of_mem _ hx)) htail (by omega)
    rw [readItems_more (hv _ (ends_cons (by decide)) m (by omega)) (skipBlank_cons rfl _),
      skipBlank_starts (L.blank_sep d) (starts_print hhead), ih]
    rfl

theorem length_quoted (s : Text) : (quoted s).length = (escape s).length + 2 := by
  simp [quoted]

/-- **Members are read back**, from behind the quote of the first key. -/
theorem readMembers_print {L : Layout} {d : ℕ} {g : Text} (hg : ∀ c ∈ g, isBlank c = true) (rest : Text) :
    ∀ (ms : List (Text × Value F)) (k : Text) (v : Value F) (tv tail : Text) (n : ℕ), Proper k →
      ReadBack v tv → (∀ m ∈ ms, Proper m.1) →
      (∀ m ∈ ms, ∀ tm, print L d m.2 = some tm → ReadBack m.2 tm) → printMembers L d ms = some tail →
      Starts tv →
      2 * (escape k ++ 0x22 :: 0x3A :: 0x20 :: (tv ++ (tail ++ (g ++ 0x7D :: rest)))).length + 1 ≤ n →
      readMembers n (escape k ++ 0x22 :: 0x3A :: 0x20 :: (tv ++ (tail ++ (g ++ 0x7D :: rest)))) =
        some ((k, v) :: ms, rest)
  | [], k, v, tv, tail, n, hk, hv, _, _, ht, hs, hn => by
    obtain rfl := Option.some.inj ht
    obtain ⟨m, rfl⟩ : ∃ m, n = m + 1 := ⟨n - 1, by omega⟩
    have hlen := length_le_escape k
    simp only [List.nil_append, List.length_append, List.length_cons] at hn
    have hv' := hv _ (ends_append hg (c := 0x7D) (by decide) rest) m
      (by simp only [List.length_append, List.length_cons]; omega)
    rw [List.nil_append]
    refine readMembers_last (readString_escape hk (by omega) _) (skipBlank_cons rfl _) ?_
      (skipBlank_append hg rfl rest)
    rw [← hv']
    exact congrArg _ (skipBlank_starts (g := [0x20]) (by decide) hs _)
  | (k', v') :: ms, k, v, tv, tail, n, hk, hv, hks, hms, ht, hs, hn => by
    simp only [printMembers, bind, Option.bind_eq_some_iff] at ht
    obtain ⟨head, hhead, tail', htail, ht⟩ := ht
    obtain rfl := Option.some.inj ht
    obtain ⟨m, rfl⟩ : ∃ m, n = m + 1 := ⟨n - 1, by omega⟩
    have hlen := length_le_escape k
    have hcat : (0x2C :: (L.sep d ++ quoted k' ++ [0x3A, 0x20] ++ head ++ tail')) ++ (g ++ 0x7D :: rest) =
        0x2C :: (L.sep d ++ 0x22 :: (escape k' ++ 0x22 :: 0x3A :: 0x20 ::
          (head ++ (tail' ++ (g ++ 0x7D :: rest))))) := by
      simp only [quoted, List.cons_append, List.append_assoc, List.nil_append]
    rw [hcat] at hn ⊢
    have hlen' : (escape k ++ 0x22 :: 0x3A :: 0x20 :: (tv ++ 0x2C :: (L.sep d ++ 0x22 :: (escape k' ++
        0x22 :: 0x3A :: 0x20 :: (head ++ (tail' ++ (g ++ 0x7D :: rest))))))).length =
        (escape k).length + tv.length + (L.sep d).length + 5 + (escape k' ++ 0x22 :: 0x3A :: 0x20 ::
          (head ++ (tail' ++ (g ++ 0x7D :: rest)))).length := by
      simp only [List.length_append, List.length_cons]
      omega
    rw [hlen'] at hn
    have ih := readMembers_print hg rest ms k' v' head tail' m (hks (k', v') List.mem_cons_self)
      (hms (k', v') List.mem_cons_self head hhead) (fun x hx => hks x (List.mem_cons_of_mem _ hx))
      (fun x hx => hms x (List.mem_cons_of_mem _ hx)) htail (starts_print hhead) (by omega)
    have hv' := hv (0x2C :: (L.sep d ++ 0x22 :: (escape k' ++ 0x22 :: 0x3A :: 0x20 ::
      (head ++ (tail' ++ (g ++ 0x7D :: rest)))))) (ends_cons (by decide)) m
      (by simp only [List.length_append, List.length_cons] at hn ⊢; omega)
    have hvalue : skipBlank (0x20 :: (tv ++ 0x2C :: (L.sep d ++ 0x22 :: (escape k' ++
        0x22 :: 0x3A :: 0x20 :: (head ++ (tail' ++ (g ++ 0x7D :: rest))))))) = _ :=
      skipBlank_starts (g := [0x20]) (by decide) hs _
    rw [readMembers_more (readString_escape hk (by omega) _) (skipBlank_cons rfl _)
      ((congrArg _ hvalue).trans hv') (skipBlank_cons rfl _) (skipBlank_append (L.blank_sep d) rfl _), ih]
    rfl

omit [Floats F] in
/-- A list of pairs in order is its own dictionary. -/
theorem pairs_sorted : ∀ (ms acc : List (Text × Value F)), Sorted (acc ++ ms) →
    pairs acc ms = some (acc ++ ms)
  | [], acc, _ => by rw [pairs, List.append_nil]
  | (k, v) :: ms, acc, h => by
    have hlt : ∀ m ∈ acc, m.1 < k := by
      intro m hm
      exact (List.pairwise_append.1 h).2.2 m hm (k, v) List.mem_cons_self
    have hcat : acc ++ (k, v) :: ms = (acc ++ [(k, v)]) ++ ms := by simp
    rw [pairs, lookup_eq_none fun m hm => ne_of_lt (hlt m hm), if_neg (by simp), insert_append v hlt,
      pairs_sorted ms _ (hcat ▸ h), hcat]

theorem readValue_number {t rest : Text} {v : Value F} (ht : StartsNumeral t)
    (h : readNumber (t ++ rest) = some (v, rest)) {n : ℕ} (hn : t.length ≤ n) :
    readValue n (t ++ rest) = some (v, rest) := by
  obtain ⟨c, s, rfl, hc⟩ := ht
  obtain ⟨m, rfl⟩ : ∃ m, n = m + 1 := ⟨n - 1, by rw [List.length_cons] at hn; omega⟩
  rw [List.cons_append] at h ⊢
  rw [readValue, if_neg (by omega), if_neg (by omega), if_neg (by omega), if_neg (by omega),
    if_neg (by omega), if_neg (by omega), h]

theorem readValue_array {g t r : Text} (hg : ∀ c ∈ g, isBlank c = true) (ht : Starts t) {n : ℕ} :
    readValue (F := F) (n + 1) (0x5B :: (g ++ (t ++ r))) =
      (readItems n (t ++ r)).map fun p => (.arr p.1, p.2) := by
  rw [readValue, if_neg (by decide), if_neg (by decide), if_pos rfl, skipBlank_starts hg ht]
  obtain ⟨c, s, rfl, -, hc⟩ := ht
  rw [List.cons_append]
  split
  · rename_i heq
    exact absurd (List.cons.inj heq).1 hc
  · rfl

theorem readValue_object {g r : Text} (hg : ∀ c ∈ g, isBlank c = true) {n : ℕ} :
    readValue (F := F) (n + 1) (0x7B :: (g ++ 0x22 :: r)) =
      (readMembers n r).bind fun p => (pairs [] p.1).map fun ms => (.obj ms, p.2) := by
  rw [readValue, if_neg (by decide), if_pos rfl, skipBlank_append hg rfl]
  rfl

/-- **A value is read back**, whatever its layout. -/
theorem readBack_print {L : Layout} {v : Value F} (hv : v.Wf) :
    ∀ {d : ℕ} {t : Text}, print L d v = some t → ReadBack v t := by
  induction hv with
  | null =>
    intro d t h rest _ n hn
    obtain rfl := Option.some.inj h
    obtain ⟨m, rfl⟩ : ∃ m, n = m + 1 := ⟨n - 1, by simp [text] at hn; omega⟩
    rfl
  | bool b =>
    intro d t h rest _ n hn
    obtain rfl := Option.some.inj h
    obtain ⟨m, rfl⟩ : ∃ m, n = m + 1 := ⟨n - 1, by cases b <;> simp [text] at hn <;> omega⟩
    cases b <;> rfl
  | int k =>
    intro d t h rest hr n hn
    exact readValue_number (startsNumeral_intText h) (readNumber_intText h hr) (by omega)
  | float x =>
    intro d t h rest hr n hn
    exact readValue_number (startsNumeral_repr h) (readNumber_repr h hr) (by omega)
  | @str s hs =>
    intro d t h rest _ n hn
    obtain rfl := Option.some.inj h
    rw [length_quoted] at hn
    have hlen := length_le_escape s
    obtain ⟨m, rfl⟩ : ∃ m, n = m + 1 := ⟨n - 1, by omega⟩
    have hcat : quoted s ++ rest = 0x22 :: (escape s ++ 0x22 :: rest) := by simp [quoted]
    rw [hcat, readValue, if_pos rfl, readString_escape hs (by omega)]
    rfl
  | @arr items h ih =>
    intro d t ht rest _ n hn
    cases items with
    | nil =>
      obtain rfl := Option.some.inj ht
      obtain ⟨m, rfl⟩ : ∃ m, n = m + 1 := ⟨n - 1, by simp [text] at hn; omega⟩
      rfl
    | cons v vs =>
      simp only [print, bind, Option.bind_eq_some_iff] at ht
      obtain ⟨head, hhead, tail, htail, ht⟩ := ht
      obtain rfl := Option.some.inj ht
      obtain ⟨m, rfl⟩ : ∃ m, n = m + 1 := ⟨n - 1, by rw [List.length_cons] at hn; omega⟩
      have hcat : 0x5B :: (L.gap (d + 1) ++ head ++ tail ++ L.gap d ++ [0x5D]) ++ rest =
          0x5B :: (L.gap (d + 1) ++ (head ++ (tail ++ (L.gap d ++ 0x5D :: rest)))) := by simp
      have hitems := readItems_print (L.blank_gap d) rest vs v head tail m
        (ih v List.mem_cons_self hhead) (fun w hw tw h => ih w (List.mem_cons_of_mem _ hw) h) htail
        (by simp only [List.length_append, List.length_cons, List.length_nil] at hn ⊢; omega)
      rw [hcat, readValue_array (L.blank_gap _) (starts_print hhead), hitems]
      rfl
  | @obj members hs hk h ih =>
    intro d t ht rest _ n hn
    cases members with
    | nil =>
      obtain rfl := Option.some.inj ht
      obtain ⟨m, rfl⟩ : ∃ m, n = m + 1 := ⟨n - 1, by simp at hn; omega⟩
      rfl
    | cons m ms =>
      obtain ⟨k, v⟩ := m
      simp only [print, bind, Option.bind_eq_some_iff] at ht
      obtain ⟨head, hhead, tail, htail, ht⟩ := ht
      obtain rfl := Option.some.inj ht
      obtain ⟨m, rfl⟩ : ∃ m, n = m + 1 := ⟨n - 1, by rw [List.length_cons] at hn; omega⟩
      have hcat : 0x7B :: (L.gap (d + 1) ++ quoted k ++ [0x3A, 0x20] ++ head ++ tail ++ L.gap d ++ [0x7D]) ++
          rest = 0x7B :: (L.gap (d + 1) ++ 0x22 :: (escape k ++ 0x22 :: 0x3A :: 0x20 ::
            (head ++ (tail ++ (L.gap d ++ 0x7D :: rest))))) := by simp [quoted]
      have hmem := readMembers_print (L.blank_gap d) rest ms k v head tail m
        (hk (k, v) List.mem_cons_self) (ih (k, v) List.mem_cons_self hhead)
        (fun x hx => hk x (List.mem_cons_of_mem _ hx))
        (fun x hx tx h => ih x (List.mem_cons_of_mem _ hx) h) htail (starts_print hhead)
        (by simp only [quoted, List.length_append, List.length_cons, List.length_nil] at hn ⊢; omega)
      rw [hcat, readValue_object (L.blank_gap _), hmem, Option.bind_some,
        pairs_sorted ((k, v) :: ms) [] hs]
      rfl

/-- **What was written is what is read**, whatever the layout and whatever
white space stands behind it. -/
theorem loads_print {L : Layout} {v : Value F} (hv : v.Wf) {t g : Text} (h : print L 0 v = some t)
    (hg : ∀ c ∈ g, isBlank c = true) : loads (t ++ g) = some v := by
  have hends : Ends g := by
    cases g with
    | nil => exact ends_nil
    | cons c g =>
      exact ends_append (g := []) (fun _ h => absurd h List.not_mem_nil)
        (by
          have hc := hg c List.mem_cons_self
          simp only [isBlank, Bool.or_eq_true, decide_eq_true_eq] at hc
          rcases hc with ((rfl | rfl) | rfl) | rfl <;> decide) g
  have hskip := skipBlank_starts (g := []) (fun _ h => absurd h List.not_mem_nil) (starts_print h) g
  rw [List.nil_append] at hskip
  have hread := readBack_print hv h g hends (2 * (t ++ g).length + 1)
    (by rw [List.length_append]; omega)
  have hblank : skipBlank g = [] := by
    rw [skipBlank, List.dropWhile_eq_nil_iff]
    exact hg
  rw [loads, hskip, hread]
  dsimp only
  rw [if_pos hblank]

end PyJson

end ZkRuntime
