import ZkRuntime.Common.JsonPlain
/-!
# Texts and bytes

A JSON text arrives as bytes in one of the Unicode encodings, told by a
byte order mark or by where its first zero bytes stand. Surrogates pass, as
code points of their own. What a JSON writer produces is ASCII, in which
all that comes down to one byte for each character
(`decodeText_encodeText`), and such a text is read back from its bytes
(`loadsBytes_print`).
-/

namespace ZkRuntime

namespace PyJson

/-- Is the byte the inner one of a UTF-8 sequence? -/
def isInner (b : UInt8) : Bool := 0x80 ≤ b.toNat && b.toNat ≤ 0xBF

/-- UTF-8, surrogates included. -/
def decodeUtf8 : Bytes → Option Text
  | [] => some []
  | b :: rest =>
    if b.toNat < 0x80 then (decodeUtf8 rest).map (b.toNat :: ·)
    else if b.toNat < 0xC2 then none
    else if b.toNat ≤ 0xDF then
      match rest with
      | c :: r =>
        if isInner c then (decodeUtf8 r).map (((b.toNat - 0xC0) * 64 + (c.toNat - 0x80)) :: ·) else none
      | [] => none
    else if b.toNat ≤ 0xEF then
      match rest with
      | c :: d :: r =>
        if isInner c && isInner d && (b.toNat != 0xE0 || 0xA0 ≤ c.toNat) then
          (decodeUtf8 r).map (((b.toNat - 0xE0) * 4096 + (c.toNat - 0x80) * 64 + (d.toNat - 0x80)) :: ·)
        else none
      | _ => none
    else if b.toNat ≤ 0xF4 then
      match rest with
      | c :: d :: e :: r =>
        if isInner c && isInner d && isInner e && (b.toNat != 0xF0 || 0x90 ≤ c.toNat) &&
            (b.toNat != 0xF4 || c.toNat ≤ 0x8F) then
          (decodeUtf8 r).map (((b.toNat - 0xF0) * 262144 + (c.toNat - 0x80) * 4096 + (d.toNat - 0x80) * 64 +
            (e.toNat - 0x80)) :: ·)
        else none
      | _ => none
    else none

/-- Two bytes as a code unit, in either byte order. -/
def unit16 (big : Bool) (a b : UInt8) : ℕ := if big then a.toNat * 256 + b.toNat else b.toNat * 256 + a.toNat

/-- UTF-16, its surrogate pairs joined and its lone surrogates kept. -/
def decodeUtf16 (big : Bool) : Bytes → Option Text
  | [] => some []
  | a :: b :: rest =>
    match rest with
    | c :: d :: r =>
      if isHighUnit (unit16 big a b) && isLowUnit (unit16 big c d) then
        (decodeUtf16 big r).map
          ((0x10000 + (unit16 big a b - 0xD800) * 0x400 + (unit16 big c d - 0xDC00)) :: ·)
      else (decodeUtf16 big (c :: d :: r)).map (unit16 big a b :: ·)
    | r => (decodeUtf16 big r).map (unit16 big a b :: ·)
  | [_] => none

/-- Four bytes as a code point, in either byte order. -/
def unit32 (big : Bool) (a b c d : UInt8) : ℕ :=
  if big then unit16 true a b * 65536 + unit16 true c d else unit16 false c d * 65536 + unit16 false a b

/-- UTF-32. -/
def decodeUtf32 (big : Bool) : Bytes → Option Text
  | [] => some []
  | a :: b :: c :: d :: rest =>
    if unit32 big a b c d < 0x110000 then (decodeUtf32 big rest).map (unit32 big a b c d :: ·) else none
  | _ => none

/-- **The text of JSON bytes**: a byte order mark tells the encoding, and
without one the zero bytes among the first four, since a JSON text starts
with ASCII. -/
def decodeText (bs : Bytes) : Option Text :=
  if [0x00, 0x00, 0xFE, 0xFF].isPrefixOf bs then decodeUtf32 true (bs.drop 4)
  else if [0xFF, 0xFE, 0x00, 0x00].isPrefixOf bs then decodeUtf32 false (bs.drop 4)
  else if [0xFE, 0xFF].isPrefixOf bs then decodeUtf16 true (bs.drop 2)
  else if [0xFF, 0xFE].isPrefixOf bs then decodeUtf16 false (bs.drop 2)
  else if [0xEF, 0xBB, 0xBF].isPrefixOf bs then decodeUtf8 (bs.drop 3)
  else
    match bs with
    | a :: b :: c :: d :: _ =>
      if a = 0 then if b = 0 then decodeUtf32 true bs else decodeUtf16 true bs
      else if b = 0 then if c = 0 ∧ d = 0 then decodeUtf32 false bs else decodeUtf16 false bs
      else decodeUtf8 bs
    | [a, b] =>
      if a = 0 then decodeUtf16 true bs else if b = 0 then decodeUtf16 false bs else decodeUtf8 bs
    | _ => decodeUtf8 bs

/-- The bytes of an ASCII text. -/
def encodeText (t : Text) : Bytes := t.map Nat.toUInt8

/-- ASCII without a zero. -/
def Ascii (t : Text) : Prop := ∀ c ∈ t, 0 < c ∧ c < 0x80

theorem toNat_toUInt8_of_ascii {c : ℕ} (h : 0 < c ∧ c < 0x80) : c.toUInt8.toNat = c := by
  simp only [Nat.toUInt8, UInt8.toNat_ofNat']
  omega

theorem decodeUtf8_ascii : ∀ {t : Text}, Ascii t → decodeUtf8 (encodeText t) = some t
  | [], _ => rfl
  | c :: t, h => by
    have hc := h c List.mem_cons_self
    have ih := decodeUtf8_ascii fun x hx => h x (List.mem_cons_of_mem _ hx)
    rw [encodeText, List.map_cons, decodeUtf8.eq_def]
    dsimp only
    rw [toNat_toUInt8_of_ascii hc, if_pos hc.2, ← encodeText, ih]
    rfl

theorem ascii_byte {c : ℕ} (h : 0 < c ∧ c < 0x80) {k : UInt8} (hk : k.toNat = 0 ∨ 0x80 ≤ k.toNat) :
    c.toUInt8 ≠ k := by
  rintro rfl
  rw [toNat_toUInt8_of_ascii h] at hk
  omega

/-- No byte order mark stands before an ASCII character. -/
theorem isPrefixOf_ascii {m a : UInt8} (h : a ≠ m) (ms r : Bytes) : (m :: ms).isPrefixOf (a :: r) = false := by
  simp [List.isPrefixOf, h.symm]

/-- **An ASCII text is read from its bytes.** -/
theorem decodeText_encodeText {t : Text} (h : Ascii t) : decodeText (encodeText t) = some t := by
  rw [← decodeUtf8_ascii h]
  cases t with
  | nil => rfl
  | cons a t =>
    have ha : ∀ {k : UInt8}, k.toNat = 0 ∨ 0x80 ≤ k.toNat → a.toUInt8 ≠ k := ascii_byte (h a List.mem_cons_self)
    have hrest : ∀ x ∈ encodeText t, x ≠ 0 := by
      intro x hx
      obtain ⟨c, hc, rfl⟩ := List.mem_map.1 hx
      exact ascii_byte (h c (List.mem_cons_of_mem _ hc)) (.inl rfl)
    have hcons : encodeText (a :: t) = a.toUInt8 :: encodeText t := rfl
    rw [hcons]
    generalize encodeText t = bs at *
    unfold decodeText
    rw [isPrefixOf_ascii (ha (.inl rfl)), isPrefixOf_ascii (ha (.inr (by decide))),
      isPrefixOf_ascii (ha (.inr (by decide))), isPrefixOf_ascii (ha (.inr (by decide))),
      isPrefixOf_ascii (ha (.inr (by decide)))]
    simp only [Bool.false_eq_true, if_false]
    split
    · rename_i heq
      obtain ⟨rfl, rfl⟩ := List.cons.inj heq
      rw [if_neg (ha (.inl rfl)), if_neg (hrest _ List.mem_cons_self)]
    · rename_i heq
      obtain ⟨rfl, rfl⟩ := List.cons.inj heq
      rw [if_neg (ha (.inl rfl)), if_neg (hrest _ List.mem_cons_self)]
    · rfl

variable {F : Type} [Floats F]

/-- `json.loads`, of bytes. -/
def loadsBytes (bs : Bytes) : Option (Value F) := (decodeText bs).bind loads

theorem ascii_of_blank {c : ℕ} (h : isBlank c = true) : 0 < c ∧ c < 0x80 := by
  simp only [isBlank, Bool.or_eq_true, decide_eq_true_eq] at h
  omega

theorem ascii_print {L : Layout} {v : Value F} (hv : v.Wf) {d : ℕ} {t : Text} (h : print L d v = some t) :
    Ascii t := by
  intro c hc
  rcases drawn_print hv h c hc with hc | ⟨e, hc | hc⟩
  · omega
  · exact ascii_of_blank (L.blank_gap e c hc)
  · exact ascii_of_blank (L.blank_sep e c hc)

/-- **What was written is read from its bytes**, whatever white space
stands behind it. -/
theorem loadsBytes_print {L : Layout} {v : Value F} (hv : v.Wf) {t g : Text} (h : print L 0 v = some t)
    (hg : ∀ c ∈ g, isBlank c = true) : loadsBytes (encodeText (t ++ g)) = some v := by
  have hascii : Ascii (t ++ g) := by
    intro c hc
    rcases List.mem_append.1 hc with hc | hc
    · exact ascii_print hv h c hc
    · exact ascii_of_blank (hg c hc)
  rw [loadsBytes, decodeText_encodeText hascii, Option.bind_some, loads_print hv h hg]

end PyJson

end ZkRuntime
