import Mathlib.Algebra.Group.Nat.Defs
import ZkRuntime.Common.Quote
/-!
# Reading a quoted string back

Each character of a string, and each byte that is in none, is written in a
way that `readItem` reads back and that no quote begins. So a quoted string
ends where it seems to, and two strings with one quotation are equal
(`quoted_cut`), whatever is taken to be printable.
-/

namespace ZkRuntime

namespace Quote

open Json

/-! ## Characters -/

/-- The forms of an encoded character. -/
inductive Encoded : Bytes → Prop
  | one {a : UInt8} (ha : a.toNat < 0x80) : Encoded [a]
  | two {a b : UInt8} (ha : 0xC2 ≤ a.toNat ∧ a.toNat ≤ 0xDF) (hb : 0x80 ≤ b.toNat ∧ b.toNat ≤ 0xBF) :
      Encoded [a, b]
  | three {a b c : UInt8} (ha : 0xE0 ≤ a.toNat ∧ a.toNat ≤ 0xEF)
      (hb : 0x80 ≤ b.toNat ∧ b.toNat ≤ 0xBF) (hab : a.toNat = 0xE0 → 0xA0 ≤ b.toNat)
      (hc : 0x80 ≤ c.toNat ∧ c.toNat ≤ 0xBF) : Encoded [a, b, c]
  | four {a b c d : UInt8} (ha : 0xF0 ≤ a.toNat ∧ a.toNat ≤ 0xF4)
      (hb : 0x80 ≤ b.toNat ∧ b.toNat ≤ 0xBF) (hab : a.toNat = 0xF0 → 0x90 ≤ b.toNat)
      (hc : 0x80 ≤ c.toNat ∧ c.toNat ≤ 0xBF) (hd : 0x80 ≤ d.toNat ∧ d.toNat ≤ 0xBF) :
      Encoded [a, b, c, d]

variable {l enc rest : Bytes}

/-- Where a byte from a range is owed and more behind it, it is there. -/
theorem takeRune_within {q next : Utf8.Pos} {lo hi : ℕ} (hnext : next ≠ .start)
    (hq : ∀ b, q.step b = Utf8.within lo hi b next) (h : takeRune q l = some (enc, rest)) :
    ∃ b e l', enc = b :: e ∧ (lo ≤ b.toNat ∧ b.toNat ≤ hi) ∧ takeRune next l' = some (e, rest) := by
  cases l with
  | nil => cases h
  | cons b bs =>
    rw [takeRune, hq, Utf8.within] at h
    split_ifs at h with hb
    have hmap : (takeRune next bs).map (fun p => (b :: p.1, p.2)) = some (enc, rest) := by
      cases next <;> first | exact absurd rfl hnext | exact h
    obtain ⟨⟨e, rest'⟩, he, heq⟩ := Option.map_eq_some_iff.1 hmap
    cases heq
    exact ⟨b, e, bs, rfl, hb, he⟩

theorem takeRune_tail1 (h : takeRune .tail1 l = some (enc, rest)) :
    ∃ b : UInt8, enc = [b] ∧ 0x80 ≤ b.toNat ∧ b.toNat ≤ 0xBF := by
  cases l with
  | nil => cases h
  | cons b bs =>
    rw [takeRune, Utf8.Pos.step, Utf8.within] at h
    split_ifs at h with hb
    cases h
    exact ⟨b, rfl, hb⟩

theorem takeRune_tail2 (h : takeRune .tail2 l = some (enc, rest)) :
    ∃ b c : UInt8, enc = [b, c] ∧ (0x80 ≤ b.toNat ∧ b.toNat ≤ 0xBF) ∧
      0x80 ≤ c.toNat ∧ c.toNat ≤ 0xBF := by
  obtain ⟨b, e, l', rfl, hb, he⟩ := takeRune_within (by decide) (fun _ => rfl) h
  obtain ⟨c, rfl, hc⟩ := takeRune_tail1 he
  exact ⟨b, c, rfl, hb, hc⟩

/-- A first byte that owes others. -/
theorem takeRune_start {a : UInt8} {bs : Bytes} {q : Utf8.Pos} (hq : Utf8.first a = some q)
    (hne : q ≠ .start) (h : takeRune .start (a :: bs) = some (enc, rest)) :
    ∃ e, enc = a :: e ∧ takeRune q bs = some (e, rest) := by
  rw [takeRune, Utf8.Pos.step, hq] at h
  have hmap : (takeRune q bs).map (fun p => (a :: p.1, p.2)) = some (enc, rest) := by
    cases q <;> first | exact absurd rfl hne | exact h
  obtain ⟨⟨e, rest'⟩, he, heq⟩ := Option.map_eq_some_iff.1 hmap
  cases heq
  exact ⟨e, rfl, he⟩

/-- **A character read from a string has one of the forms.** -/
theorem encoded_of_takeRune (h : takeRune .start l = some (enc, rest)) : Encoded enc := by
  cases l with
  | nil => cases h
  | cons a bs =>
    cases hq : Utf8.first a with
    | none => rw [takeRune, Utf8.Pos.step, hq] at h; cases h
    | some q =>
      have hfirst := hq
      unfold Utf8.first at hq
      split_ifs at hq with h1 h2 h3 h4 h5 h6 h7 h8 <;> cases hq
      · rw [takeRune, Utf8.Pos.step, hfirst] at h
        cases h
        exact .one h1
      · obtain ⟨e, rfl, he⟩ := takeRune_start hfirst (by decide) h
        obtain ⟨b, rfl, hb⟩ := takeRune_tail1 he
        exact .two h2 hb
      · obtain ⟨e, rfl, he⟩ := takeRune_start hfirst (by decide) h
        obtain ⟨b, e, l', rfl, hb, he⟩ := takeRune_within (by decide) (fun _ => rfl) he
        obtain ⟨c, rfl, hc⟩ := takeRune_tail1 he
        exact .three (by omega) (by omega) (fun _ => hb.1) hc
      · obtain ⟨e, rfl, he⟩ := takeRune_start hfirst (by decide) h
        obtain ⟨b, e, l', rfl, hb, he⟩ := takeRune_within (by decide) (fun _ => rfl) he
        obtain ⟨c, rfl, hc⟩ := takeRune_tail1 he
        exact .three (by omega) (by omega) (by omega) hc
      · obtain ⟨e, rfl, he⟩ := takeRune_start hfirst (by decide) h
        obtain ⟨b, c, rfl, hb, hc⟩ := takeRune_tail2 he
        exact .three (by omega) hb (by omega) hc
      · obtain ⟨e, rfl, he⟩ := takeRune_start hfirst (by decide) h
        obtain ⟨b, e, l', rfl, hb, he⟩ := takeRune_within (by decide) (fun _ => rfl) he
        obtain ⟨c, d, rfl, hc, hd⟩ := takeRune_tail2 he
        exact .four (by omega) (by omega) (fun _ => hb.1) hc hd
      · obtain ⟨e, rfl, he⟩ := takeRune_start hfirst (by decide) h
        obtain ⟨b, e, l', rfl, hb, he⟩ := takeRune_within (by decide) (fun _ => rfl) he
        obtain ⟨c, d, rfl, hc, hd⟩ := takeRune_tail2 he
        exact .four (by omega) hb (by omega) hc hd
      · obtain ⟨e, rfl, he⟩ := takeRune_start hfirst (by decide) h
        obtain ⟨b, e, l', rfl, hb, he⟩ := takeRune_within (by decide) (fun _ => rfl) he
        obtain ⟨c, d, rfl, hc, hd⟩ := takeRune_tail2 he
        exact .four (by omega) (by omega) (by omega) hc hd

/-- The character is what the string begins with, and the same is read from
it with anything behind it. -/
theorem takeRune_append {q : Utf8.Pos} (h : takeRune q l = some (enc, rest)) :
    l = enc ++ rest ∧ ∀ xs, takeRune q (enc ++ xs) = some (enc, xs) := by
  induction l generalizing q enc with
  | nil => cases h
  | cons b bs ih =>
    rw [takeRune] at h
    split at h
    · cases h
    · rename_i hq
      cases h
      exact ⟨rfl, fun xs => by rw [List.cons_append, takeRune, hq]; rfl⟩
    · rename_i q' hne hq
      obtain ⟨⟨e, rest'⟩, he, heq⟩ := Option.map_eq_some_iff.1 h
      cases heq
      obtain ⟨rfl, hread⟩ := ih he
      refine ⟨rfl, fun xs => ?_⟩
      rw [List.cons_append, takeRune, hq]
      cases q' <;> first | exact absurd rfl hne | simp [hread]

/-- **The code point determines the character.** -/
theorem Encoded.inj {enc' : Bytes} (h : Encoded enc) (h' : Encoded enc')
    (hv : runeValue enc = runeValue enc') : enc = enc' := by
  have heq : ∀ a b : UInt8, a.toNat = b.toNat → a = b := fun a b => UInt8.toNat_inj.1
  cases h <;> cases h' <;> simp only [runeValue] at hv
  case one.one a ha b hb => rw [heq a b hv]
  case two.two a b ha hb a' b' ha' hb' => rw [heq a a' (by omega), heq b b' (by omega)]
  case three.three a b c ha hb hab hc a' b' c' ha' hb' hab' hc' =>
    rw [heq a a' (by omega), heq b b' (by omega), heq c c' (by omega)]
  case four.four a b c d ha hb hab hc hd a' b' c' d' ha' hb' hab' hc' hd' =>
    rw [heq a a' (by omega), heq b b' (by omega), heq c c' (by omega), heq d d' (by omega)]
  all_goals omega

theorem Encoded.runeValue_lt (h : Encoded enc) : runeValue enc < 16 ^ 8 := by
  cases h <;> simp only [runeValue] <;> omega

/-- A code point below `0x80` is its own byte. -/
theorem Encoded.eq_singleton (h : Encoded enc) {c : ℕ} (hc : c < 0x80) (hv : runeValue enc = c) :
    enc = [c.toUInt8] := by
  have hone : Encoded [c.toUInt8] := .one (by rw [Utf8.toNat_toUInt8 (by omega)]; exact hc)
  refine h.inj hone ?_
  rw [hv, runeValue, Utf8.toNat_toUInt8 (by omega)]

/-! ## Items -/

/-- What one piece of a quotation stands for: a character by its code point,
or a byte that is in none. -/
inductive Item where
  | rune (c : ℕ)
  | byte (b : UInt8)

/-- The part of a string an item stands for. -/
def Item.Stands : Item → Bytes → Prop
  | .rune c, enc => Encoded enc ∧ runeValue enc = c
  | .byte b, enc => enc = [b]

theorem Item.Stands.inj {i : Item} {enc' : Bytes} (h : i.Stands enc) (h' : i.Stands enc') :
    enc = enc' := by
  cases i with
  | rune c => exact h.1.inj h'.1 (h.2.trans h'.2.symm)
  | byte b => exact Eq.trans h (Eq.symm h')

/-- A number of `n` hexadecimal digits. -/
def readHex : ℕ → Bytes → Option (ℕ × Bytes)
  | 0, bs => some (0, bs)
  | n + 1, bs =>
    match readHex n bs with
    | some (v, b :: bs') => (hexVal b).map fun d => (v * 16 + d, bs')
    | _ => none

/-- The escapes of one letter. -/
def letterEscape (e : UInt8) : Option ℕ :=
  if e = 0x61 then some 0x07
  else if e = 0x62 then some 0x08
  else if e = 0x66 then some 0x0C
  else if e = 0x6E then some 0x0A
  else if e = 0x72 then some 0x0D
  else if e = 0x74 then some 0x09
  else if e = 0x76 then some 0x0B
  else none

/-- What is behind a backslash. -/
def readEscape (e : UInt8) (bs : Bytes) : Option (Item × Bytes) :=
  if e = 0x22 ∨ e = 0x5C then some (.rune e.toNat, bs)
  else if e = 0x78 then
    (readHex 2 bs).map fun p => (if p.1 < 0x80 then .rune p.1 else .byte p.1.toUInt8, p.2)
  else if e = 0x75 then (readHex 4 bs).map fun p => (.rune p.1, p.2)
  else if e = 0x55 then (readHex 8 bs).map fun p => (.rune p.1, p.2)
  else (letterEscape e).map fun c => (.rune c, bs)

/-- **The first item of a quotation**, where the closing quote is not next. -/
def readItem : Bytes → Option (Item × Bytes)
  | [] => none
  | b :: bs =>
    if b = 0x22 then none
    else if b = 0x5C then
      match bs with
      | e :: bs' => readEscape e bs'
      | [] => none
    else (takeRune .start (b :: bs)).map fun p => (.rune (runeValue p.1), p.2)

/-- **What is written in hexadecimal is read back.** -/
theorem readHex_hex (n : ℕ) {v : ℕ} (hv : v < 16 ^ n) (xs : Bytes) :
    readHex n (hex n v ++ xs) = some (v, xs) := by
  induction n generalizing v xs with
  | zero =>
    have : v = 0 := by simpa using hv
    subst this
    rfl
  | succ n ih =>
    have hdiv : v / 16 < 16 ^ n := Nat.div_lt_of_lt_mul (by rw [Nat.pow_succ] at hv; omega)
    rw [readHex, hex, List.append_assoc, ih hdiv]
    simp only [List.cons_append, List.nil_append, hexVal_hexDigit _ (Nat.mod_lt v (by omega)),
      Option.map_some]
    congr 2
    omega

theorem readItem_raw {a : UInt8} (hq : a ≠ 0x22) (hb : a ≠ 0x5C) (xs : Bytes) :
    readItem (a :: xs) = (takeRune .start (a :: xs)).map fun p => (.rune (runeValue p.1), p.2) := by
  rw [readItem.eq_def]
  dsimp only
  rw [if_neg hq, if_neg hb]

theorem readItem_backslash (e : UInt8) (xs : Bytes) : readItem (0x5C :: e :: xs) = readEscape e xs := by
  rw [readItem, if_neg (by decide), if_pos rfl]

/-- The escapes that are one letter. -/
theorem readEscape_letter {e : UInt8} {c : ℕ} {xs : Bytes}
    (he : e ≠ 0x22 ∧ e ≠ 0x5C ∧ e ≠ 0x78 ∧ e ≠ 0x75 ∧ e ≠ 0x55) (hc : letterEscape e = some c) :
    readEscape e xs = some (.rune c, xs) := by
  obtain ⟨h1, h2, h3, h4, h5⟩ := he
  rw [readEscape, if_neg (not_or.2 ⟨h1, h2⟩), if_neg h3, if_neg h4, if_neg h5, hc, Option.map_some]

/-- The escapes that are a number. -/
theorem readItem_x (xs : Bytes) : readItem (ascii "\\x" ++ xs) = readEscape 0x78 xs :=
  readItem_backslash 0x78 xs

theorem readItem_u (xs : Bytes) : readItem (ascii "\\u" ++ xs) = readEscape 0x75 xs :=
  readItem_backslash 0x75 xs

theorem readItem_U (xs : Bytes) : readItem (ascii "\\U" ++ xs) = readEscape 0x55 xs :=
  readItem_backslash 0x55 xs

variable {isPrint : ℕ → Bool}

/-- An encoding that is not a quote or a backslash does not begin with one. -/
theorem Encoded.head {a : UInt8} {e : Bytes} (h : Encoded (a :: e))
    (hv : runeValue (a :: e) ≠ 0x22 ∧ runeValue (a :: e) ≠ 0x5C) : a ≠ 0x22 ∧ a ≠ 0x5C := by
  constructor <;> rintro rfl
  · cases h with
    | one ha => exact hv.1 rfl
    | two ha hb => exact absurd ha.1 (by decide)
    | three ha hb hab hc => exact absurd ha.1 (by decide)
    | four ha hb hab hc hd => exact absurd ha.1 (by decide)
  · cases h with
    | one ha => exact hv.2 rfl
    | two ha hb => exact absurd ha.1 (by decide)
    | three ha hb hab hc => exact absurd ha.1 (by decide)
    | four ha hb hab hc hd => exact absurd ha.1 (by decide)

/-- **A character is read back**, printed or escaped. -/
theorem readItem_escapeRune (h : takeRune .start l = some (enc, rest)) (xs : Bytes) :
    readItem (escapeRune isPrint (runeValue enc) enc ++ xs) = some (.rune (runeValue enc), xs) := by
  have henc := encoded_of_takeRune h
  have hlt := henc.runeValue_lt
  obtain ⟨c, hc⟩ : ∃ c, runeValue enc = c := ⟨_, rfl⟩
  rw [hc] at hlt ⊢
  unfold escapeRune
  by_cases h1 : c = 0x22 ∨ c = 0x5C
  · rw [if_pos h1]
    rcases h1 with rfl | rfl
    · rw [henc.eq_singleton (by decide) hc]
      rfl
    · rw [henc.eq_singleton (by decide) hc]
      rfl
  rw [if_neg h1]
  by_cases h2 : isPrint c = true
  · rw [if_pos h2]
    obtain ⟨-, hread⟩ := takeRune_append h
    cases enc with
    | nil => cases henc
    | cons a e =>
      obtain ⟨hq, hb⟩ := henc.head (by rw [hc]; exact not_or.1 h1)
      rw [List.cons_append, readItem_raw hq hb, ← List.cons_append, hread, Option.map_some, hc]
  rw [if_neg h2]
  by_cases h3 : c = 0x07
  · rw [if_pos h3, h3]
    exact (readItem_backslash 0x61 xs).trans (readEscape_letter (by decide) rfl)
  rw [if_neg h3]
  by_cases h4 : c = 0x08
  · rw [if_pos h4, h4]
    exact (readItem_backslash 0x62 xs).trans (readEscape_letter (by decide) rfl)
  rw [if_neg h4]
  by_cases h5 : c = 0x0C
  · rw [if_pos h5, h5]
    exact (readItem_backslash 0x66 xs).trans (readEscape_letter (by decide) rfl)
  rw [if_neg h5]
  by_cases h6 : c = 0x0A
  · rw [if_pos h6, h6]
    exact (readItem_backslash 0x6E xs).trans (readEscape_letter (by decide) rfl)
  rw [if_neg h6]
  by_cases h7 : c = 0x0D
  · rw [if_pos h7, h7]
    exact (readItem_backslash 0x72 xs).trans (readEscape_letter (by decide) rfl)
  rw [if_neg h7]
  by_cases h8 : c = 0x09
  · rw [if_pos h8, h8]
    exact (readItem_backslash 0x74 xs).trans (readEscape_letter (by decide) rfl)
  rw [if_neg h8]
  by_cases h9 : c = 0x0B
  · rw [if_pos h9, h9]
    exact (readItem_backslash 0x76 xs).trans (readEscape_letter (by decide) rfl)
  rw [if_neg h9]
  by_cases h10 : c < 0x20 ∨ c = 0x7F
  · have hsmall : c < 0x80 := by omega
    rw [if_pos h10, List.append_assoc, readItem_x, readEscape, if_neg (by decide), if_pos rfl,
      readHex_hex 2 (by omega), Option.map_some, if_pos hsmall]
  rw [if_neg h10]
  by_cases h11 : c < 0x10000
  · rw [if_pos h11, List.append_assoc, readItem_u, readEscape, if_neg (by decide), if_neg (by decide),
      if_pos rfl, readHex_hex 4 (by omega), Option.map_some]
  · rw [if_neg h11, List.append_assoc, readItem_U, readEscape, if_neg (by decide), if_neg (by decide),
      if_neg (by decide), if_pos rfl, readHex_hex 8 (by omega), Option.map_some]

/-- **A byte that begins no character is read back.** -/
theorem readItem_byte {b : UInt8} (hb : 0x80 ≤ b.toNat) (xs : Bytes) :
    readItem (ascii "\\x" ++ hex 2 b.toNat ++ xs) = some (.byte b, xs) := by
  have hlt : b.toNat < 256 := b.toNat_lt
  rw [List.append_assoc, readItem_x, readEscape, if_neg (by decide), if_pos rfl, readHex_hex 2 (by omega),
    Option.map_some, if_neg (by omega)]
  dsimp only
  rw [Nat.toUInt8, UInt8.ofNat_toNat]

/-- An ASCII byte begins a character. -/
theorem le_of_takeRune_none {b : UInt8} {bs : Bytes} (h : takeRune .start (b :: bs) = none) :
    0x80 ≤ b.toNat := by
  by_contra hlt
  rw [takeRune, Utf8.start_step_ascii (by omega)] at h
  cases h

/-- **The first item of a string that is not empty.** -/
theorem escapeFrom_succ {b : UInt8} {bs : Bytes} (n : ℕ) :
    ∃ item enc rest, b :: bs = enc ++ rest ∧ enc ≠ [] ∧ item.Stands enc ∧
      ∀ xs, readItem (escapeFrom isPrint (n + 1) (b :: bs) ++ xs) =
        some (item, escapeFrom isPrint n rest ++ xs) := by
  cases h : takeRune .start (b :: bs) with
  | none =>
    refine ⟨.byte b, [b], bs, rfl, by simp, rfl, fun xs => ?_⟩
    rw [escapeFrom, h, List.append_assoc]
    exact readItem_byte (le_of_takeRune_none h) _
  | some p =>
    obtain ⟨enc, rest⟩ := p
    have henc := encoded_of_takeRune h
    refine ⟨.rune (runeValue enc), enc, rest, (takeRune_append h).1, ?_, ⟨henc, rfl⟩, fun xs => ?_⟩
    · rintro rfl
      cases henc
    · rw [escapeFrom, h, List.append_assoc]
      exact readItem_escapeRune h _

@[simp] theorem escapeFrom_nil (n : ℕ) : escapeFrom isPrint n [] = [] := by
  cases n <;> rfl

theorem readItem_quote (xs : Bytes) : readItem (0x22 :: xs) = none := rfl

/-- The closing quote is not in the quotation of a string. -/
theorem eq_nil_of_quote {m : ℕ} {t xs ys : Bytes} (ht : t.length ≤ m)
    (h : 0x22 :: xs = escapeFrom isPrint m t ++ ys) : t = [] := by
  cases t with
  | nil => rfl
  | cons b bs =>
    obtain ⟨m, rfl⟩ : ∃ m', m = m' + 1 := ⟨m - 1, by simp only [List.length_cons] at ht; omega⟩
    obtain ⟨item, enc, rest, -, -, -, hread⟩ := @escapeFrom_succ isPrint b bs m
    have := hread ys
    rw [← h, readItem_quote] at this
    cases this

theorem nil_cut {m : ℕ} {t xs ys : Bytes} (ht : t.length ≤ m)
    (h : 0x22 :: xs = escapeFrom isPrint m t ++ 0x22 :: ys) : [] = t ∧ xs = ys := by
  obtain rfl := eq_nil_of_quote ht h
  rw [escapeFrom_nil, List.nil_append] at h
  exact ⟨rfl, List.tail_eq_of_cons_eq h⟩

/-- **Two strings whose quotations agree up to the closing quote are equal.** -/
theorem escapeFrom_cut (n m : ℕ) {s t xs ys : Bytes} (hs : s.length ≤ n) (ht : t.length ≤ m)
    (h : escapeFrom isPrint n s ++ 0x22 :: xs = escapeFrom isPrint m t ++ 0x22 :: ys) :
    s = t ∧ xs = ys := by
  induction n generalizing m s t with
  | zero =>
    obtain rfl : s = [] := by simpa using hs
    rw [escapeFrom_nil] at h
    exact nil_cut ht h
  | succ n ih =>
    cases s with
    | nil =>
      rw [escapeFrom_nil] at h
      exact nil_cut ht h
    | cons a as =>
      obtain ⟨item, enc, rest, hs', hne, hstands, hread⟩ :=
        @escapeFrom_succ isPrint a as n
      cases t with
      | nil =>
        have := eq_nil_of_quote hs ((List.nil_append _).symm.trans ((escapeFrom_nil m ▸ h).symm))
        cases this
      | cons b bs =>
        obtain ⟨m, rfl⟩ : ∃ m', m = m' + 1 := ⟨m - 1, by simp only [List.length_cons] at ht; omega⟩
        obtain ⟨item', enc', rest', ht', hne', hstands', hread'⟩ :=
          @escapeFrom_succ isPrint b bs m
        have heq := (hread (0x22 :: xs)).symm.trans (h ▸ hread' (0x22 :: ys))
        simp only [Option.some.injEq, Prod.mk.injEq] at heq
        obtain ⟨rfl, hrest⟩ := heq
        obtain rfl := hstands.inj hstands'
        have hpos : 0 < enc.length := List.length_pos_iff.2 hne
        rw [hs', List.length_append] at hs
        rw [ht', List.length_append] at ht
        obtain ⟨rfl, hxy⟩ := ih m (by omega) (by omega) hrest
        exact ⟨hs'.trans ht'.symm, hxy⟩

/-- **A quotation ends where its string does.** -/
theorem quoted_cut {s t xs ys : Bytes} (h : quoted isPrint s ++ xs = quoted isPrint t ++ ys) :
    s = t ∧ xs = ys := by
  simp only [quoted, List.cons_append, List.append_assoc, List.cons.injEq, true_and] at h
  exact escapeFrom_cut _ _ (Nat.le_refl _) (Nat.le_refl _) h

end Quote

end ZkRuntime
