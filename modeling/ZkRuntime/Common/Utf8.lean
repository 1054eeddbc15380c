import ZkRuntime.Common.Bytes
/-!
# UTF-8

The well-formed byte sequences, as the machine that reads them one byte at
a time, and the encoder. The machine composes over `++` (`run_append`), and
an ASCII byte is only ever read between characters (`step_ascii`).
-/

namespace ZkRuntime

namespace Utf8

/-- Where the machine stands between two bytes. -/
inductive Pos where
  /-- Between characters. -/
  | start
  /-- One continuation byte owed. -/
  | tail1
  | tail2
  | tail3
  /-- After `E0`, `ED`, `F0` and `F4` the next byte is from a narrower range. -/
  | afterE0
  | afterED
  | afterF0
  | afterF4
  deriving DecidableEq, Repr

/-- `next`, if the byte lies in the range. -/
@[grind] def within (lo hi : ℕ) (b : UInt8) (next : Pos) : Option Pos :=
  if lo ≤ b.toNat ∧ b.toNat ≤ hi then some next else none

/-- The first byte of a character. -/
@[grind] def first (b : UInt8) : Option Pos :=
  if b.toNat < 0x80 then some .start
  else if 0xC2 ≤ b.toNat ∧ b.toNat ≤ 0xDF then some .tail1
  else if b.toNat = 0xE0 then some .afterE0
  else if b.toNat = 0xED then some .afterED
  else if 0xE1 ≤ b.toNat ∧ b.toNat ≤ 0xEF then some .tail2
  else if b.toNat = 0xF0 then some .afterF0
  else if 0xF1 ≤ b.toNat ∧ b.toNat ≤ 0xF3 then some .tail3
  else if b.toNat = 0xF4 then some .afterF4
  else none

/-- One byte. -/
@[grind] def Pos.step : Pos → UInt8 → Option Pos
  | .start, b => first b
  | .tail1, b => within 0x80 0xBF b .start
  | .tail2, b => within 0x80 0xBF b .tail1
  | .tail3, b => within 0x80 0xBF b .tail2
  | .afterE0, b => within 0xA0 0xBF b .tail1
  | .afterED, b => within 0x80 0x9F b .tail1
  | .afterF0, b => within 0x90 0xBF b .tail2
  | .afterF4, b => within 0x80 0x8F b .tail2

/-- A sequence of bytes. -/
def Pos.run : Pos → Bytes → Option Pos
  | q, [] => some q
  | q, b :: bs =>
    match q.step b with
    | some q' => q'.run bs
    | none => none

/-- `utf8.ValidString`: read from between characters, the text ends there. -/
def validString (bs : Bytes) : Bool := Pos.start.run bs == some .start

theorem validString_iff {bs : Bytes} : validString bs = true ↔ Pos.start.run bs = some .start := by
  simp [validString]

@[simp] theorem run_nil (q : Pos) : q.run [] = some q := rfl

theorem run_cons {q q' : Pos} {b : UInt8} (bs : Bytes) (h : q.step b = some q') :
    q.run (b :: bs) = q'.run bs := by
  simp [Pos.run, h]

/-- The machine composes. -/
theorem run_append (q : Pos) (as bs : Bytes) :
    q.run (as ++ bs) = (q.run as).bind fun q' => q'.run bs := by
  induction as generalizing q with
  | nil => rfl
  | cons a as ih =>
    cases h : q.step a with
    | none => simp [Pos.run, h]
    | some q' => simp only [List.cons_append, run_cons _ h, ih q']

/-- An ASCII byte stands between characters. -/
theorem step_ascii {b : UInt8} (hb : b.toNat < 0x80) {q q' : Pos} (h : q.step b = some q') :
    q = .start ∧ q' = .start := by
  cases q with
  | start =>
    simp only [Pos.step, first, if_pos hb, Option.some.injEq] at h
    exact ⟨rfl, h.symm⟩
  | _ =>
    simp only [Pos.step, within] at h
    split at h
    · omega
    · cases h

@[simp] theorem start_step_ascii {b : UInt8} (hb : b.toNat < 0x80) :
    Pos.start.step b = some .start := by
  simp [Pos.step, first, hb]

theorem run_of_ascii {bs : Bytes} (h : ∀ b ∈ bs, b.toNat < 0x80) :
    Pos.start.run bs = some .start := by
  induction bs with
  | nil => rfl
  | cons b bs ih =>
    rw [run_cons _ (start_step_ascii (h b (by simp)))]
    exact ih fun b' hb' => h b' (by simp [hb'])

/-- Two texts make a text. -/
theorem run_append_start {as bs : Bytes} (ha : Pos.start.run as = some .start)
    (hb : Pos.start.run bs = some .start) : Pos.start.run (as ++ bs) = some .start := by
  rw [run_append, ha]; exact hb

/-! ## The encoder -/

/-- `utf8.RuneError`, encoded. -/
def runeError : Bytes := [0xEF, 0xBF, 0xBD]

/-- A UTF-16 surrogate. -/
def isSurrogate (c : ℕ) : Bool := 0xD800 ≤ c && c ≤ 0xDFFF

/-- `utf8.EncodeRune`. -/
def encodeRune (c : ℕ) : Bytes :=
  if c < 0x80 then [c.toUInt8]
  else if c < 0x800 then [(0xC0 + c / 0x40).toUInt8, (0x80 + c % 0x40).toUInt8]
  else if isSurrogate c || 0x10FFFF < c then runeError
  else if c < 0x10000 then
    [(0xE0 + c / 0x1000).toUInt8, (0x80 + c / 0x40 % 0x40).toUInt8, (0x80 + c % 0x40).toUInt8]
  else
    [(0xF0 + c / 0x40000).toUInt8, (0x80 + c / 0x1000 % 0x40).toUInt8,
      (0x80 + c / 0x40 % 0x40).toUInt8, (0x80 + c % 0x40).toUInt8]

theorem toNat_toUInt8 {n : ℕ} (h : n < 256) : n.toUInt8.toNat = n := by
  simp only [Nat.toUInt8, UInt8.toNat_ofNat']
  omega

theorem within_pos {lo hi n : ℕ} {next : Pos} (h : n < 256) (h1 : lo ≤ n) (h2 : n ≤ hi) :
    within lo hi n.toUInt8 next = some next := by
  rw [within, toNat_toUInt8 h, if_pos ⟨h1, h2⟩]

theorem run_runeError : Pos.start.run runeError = some .start := by decide

/-- A three-byte character: which narrower range applies depends on the
leading byte, which the code point fixes. -/
theorem run_three {c : ℕ} (h1 : 0x800 ≤ c) (h2 : c < 0x10000) (hs : isSurrogate c = false) :
    Pos.start.run [(0xE0 + c / 0x1000).toUInt8, (0x80 + c / 0x40 % 0x40).toUInt8,
      (0x80 + c % 0x40).toUInt8] = some .start := by
  simp only [isSurrogate, Bool.and_eq_false_iff, decide_eq_false_iff_not] at hs
  have hlast : Pos.tail1.step (0x80 + c % 0x40).toUInt8 = some .start :=
    within_pos (by omega) (by omega) (by omega)
  have hlead := toNat_toUInt8 (n := 0xE0 + c / 0x1000) (by omega)
  rcases (by omega : c / 0x1000 = 0 ∨ c / 0x1000 = 13 ∨ (1 ≤ c / 0x1000 ∧ c / 0x1000 ≠ 13))
    with h | h | h
  · have hfirst : Pos.start.step (0xE0 + c / 0x1000).toUInt8 = some .afterE0 := by
      simp [Pos.step, first, h]
    have hsecond : Pos.afterE0.step (0x80 + c / 0x40 % 0x40).toUInt8 = some .tail1 :=
      within_pos (by omega) (by omega) (by omega)
    rw [run_cons _ hfirst, run_cons _ hsecond, run_cons _ hlast, run_nil]
  · have hfirst : Pos.start.step (0xE0 + c / 0x1000).toUInt8 = some .afterED := by
      simp [Pos.step, first, h]
    have hsecond : Pos.afterED.step (0x80 + c / 0x40 % 0x40).toUInt8 = some .tail1 :=
      within_pos (by omega) (by omega) (by omega)
    rw [run_cons _ hfirst, run_cons _ hsecond, run_cons _ hlast, run_nil]
  · have hfirst : Pos.start.step (0xE0 + c / 0x1000).toUInt8 = some .tail2 := by
      simp only [Pos.step, first, hlead]
      rw [if_neg (by omega), if_neg (by omega), if_neg (by omega), if_neg (by omega),
        if_pos (by omega)]
    have hsecond : Pos.tail2.step (0x80 + c / 0x40 % 0x40).toUInt8 = some .tail1 :=
      within_pos (by omega) (by omega) (by omega)
    rw [run_cons _ hfirst, run_cons _ hsecond, run_cons _ hlast, run_nil]

/-- And a four-byte one. -/
theorem run_four {c : ℕ} (h1 : 0x10000 ≤ c) (h2 : c ≤ 0x10FFFF) :
    Pos.start.run [(0xF0 + c / 0x40000).toUInt8, (0x80 + c / 0x1000 % 0x40).toUInt8,
      (0x80 + c / 0x40 % 0x40).toUInt8, (0x80 + c % 0x40).toUInt8] = some .start := by
  have hlast : Pos.tail1.step (0x80 + c % 0x40).toUInt8 = some .start :=
    within_pos (by omega) (by omega) (by omega)
  have hthird : Pos.tail2.step (0x80 + c / 0x40 % 0x40).toUInt8 = some .tail1 :=
    within_pos (by omega) (by omega) (by omega)
  have hlead := toNat_toUInt8 (n := 0xF0 + c / 0x40000) (by omega)
  rcases (by omega : c / 0x40000 = 0 ∨ c / 0x40000 = 4 ∨ (1 ≤ c / 0x40000 ∧ c / 0x40000 ≤ 3))
    with h | h | h
  · have hfirst : Pos.start.step (0xF0 + c / 0x40000).toUInt8 = some .afterF0 := by
      simp [Pos.step, first, h]
    have hsecond : Pos.afterF0.step (0x80 + c / 0x1000 % 0x40).toUInt8 = some .tail2 :=
      within_pos (by omega) (by omega) (by omega)
    rw [run_cons _ hfirst, run_cons _ hsecond, run_cons _ hthird, run_cons _ hlast, run_nil]
  · have hfirst : Pos.start.step (0xF0 + c / 0x40000).toUInt8 = some .afterF4 := by
      simp [Pos.step, first, h]
    have hsecond : Pos.afterF4.step (0x80 + c / 0x1000 % 0x40).toUInt8 = some .tail2 :=
      within_pos (by omega) (by omega) (by omega)
    rw [run_cons _ hfirst, run_cons _ hsecond, run_cons _ hthird, run_cons _ hlast, run_nil]
  · have hfirst : Pos.start.step (0xF0 + c / 0x40000).toUInt8 = some .tail3 := by
      simp only [Pos.step, first, hlead]
      rw [if_neg (by omega), if_neg (by omega), if_neg (by omega), if_neg (by omega),
        if_neg (by omega), if_neg (by omega), if_pos (by omega)]
    have hsecond : Pos.tail3.step (0x80 + c / 0x1000 % 0x40).toUInt8 = some .tail2 :=
      within_pos (by omega) (by omega) (by omega)
    rw [run_cons _ hfirst, run_cons _ hsecond, run_cons _ hthird, run_cons _ hlast, run_nil]

/-- **What the encoder writes is well formed**, whatever it is given. -/
theorem run_encodeRune (c : ℕ) : Pos.start.run (encodeRune c) = some .start := by
  unfold encodeRune
  split_ifs with h1 h2 h3 h4
  · exact run_of_ascii (by simp [toNat_toUInt8 (by omega : c < 256), h1])
  · have hlead := toNat_toUInt8 (n := 0xC0 + c / 0x40) (by omega)
    have hfirst : Pos.start.step (0xC0 + c / 0x40).toUInt8 = some .tail1 := by
      simp only [Pos.step, first, hlead]
      rw [if_neg (by omega), if_pos (by omega)]
    have hsecond : Pos.tail1.step (0x80 + c % 0x40).toUInt8 = some .start :=
      within_pos (by omega) (by omega) (by omega)
    rw [run_cons _ hfirst, run_cons _ hsecond, run_nil]
  · exact run_runeError
  · simp only [Bool.or_eq_true, decide_eq_true_eq, not_or, Bool.not_eq_true] at h3
    exact run_three (by omega) h4 h3.1
  · simp only [Bool.or_eq_true, decide_eq_true_eq, not_or] at h3
    exact run_four (by omega) (by omega)

end Utf8

end ZkRuntime
