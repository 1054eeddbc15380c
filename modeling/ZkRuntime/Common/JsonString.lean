import ZkRuntime.Common.Utf8
/-!
# JSON string literals

A literal is read in two stages. The lexer splits the text after the
opening quote into pieces, checking the syntax as it goes: a byte standing
for itself, a two-character escape, or a `\uXXXX` code unit. The decoder
then joins the pieces into bytes, pairing surrogates and replacing the
ones left alone. The writer escapes what HTML or the syntax need escaped.

What is proved is that the reader inverts the writer
(`lexBody_escape`), that what is decoded from a text is a text
(`run_decode`), and that nothing the writer produces holds a surrogate.
-/

namespace ZkRuntime

namespace Json

/-- One piece of a string literal. -/
inductive Piece where
  /-- A byte standing for itself. -/
  | raw (b : UInt8)
  /-- A two-character escape, by the byte it names. -/
  | esc (b : UInt8)
  /-- `\uXXXX`, by its code unit. -/
  | code (u : ℕ)
  deriving DecidableEq, Repr

/-- The value of a hexadecimal digit of either case. -/
def hexVal (b : UInt8) : Option ℕ :=
  if 0x30 ≤ b.toNat ∧ b.toNat ≤ 0x39 then some (b.toNat - 0x30)
  else if 0x61 ≤ b.toNat ∧ b.toNat ≤ 0x66 then some (b.toNat - 0x57)
  else if 0x41 ≤ b.toNat ∧ b.toNat ≤ 0x46 then some (b.toNat - 0x37)
  else none

/-- Four hexadecimal digits. -/
def hex4 (a b c d : UInt8) : Option ℕ :=
  match hexVal a, hexVal b, hexVal c, hexVal d with
  | some w, some x, some y, some z => some (((w * 16 + x) * 16 + y) * 16 + z)
  | _, _, _, _ => none

/-- The byte a two-character escape names. -/
def simpleEscape (e : UInt8) : Option UInt8 :=
  if e = 0x22 ∨ e = 0x5C ∨ e = 0x2F then some e
  else if e = 0x62 then some 0x08
  else if e = 0x66 then some 0x0C
  else if e = 0x6E then some 0x0A
  else if e = 0x72 then some 0x0D
  else if e = 0x74 then some 0x09
  else none

/-- **The lexer**, from behind the opening quote: the pieces, and the text
behind the closing quote. -/
@[grind] def lexBody : Bytes → Option (List Piece × Bytes)
  | [] => none
  | c :: rest =>
    if c = 0x22 then some ([], rest)
    else if c = 0x5C then
      match rest with
      | [] => none
      | e :: rest' =>
        if e = 0x75 then
          match rest' with
          | h₁ :: h₂ :: h₃ :: h₄ :: rest'' =>
            match hex4 h₁ h₂ h₃ h₄ with
            | some u => (lexBody rest'').map fun p => (.code u :: p.1, p.2)
            | none => none
          | _ => none
        else
          match simpleEscape e with
          | some b => (lexBody rest').map fun p => (.esc b :: p.1, p.2)
          | none => none
    else if c.toNat < 0x20 then none
    else (lexBody rest).map fun p => (.raw c :: p.1, p.2)
termination_by structural bs => bs

/-- A high surrogate. -/
def isHigh (u : ℕ) : Bool := 0xD800 ≤ u && u ≤ 0xDBFF

/-- A low surrogate. -/
def isLow (u : ℕ) : Bool := 0xDC00 ≤ u && u ≤ 0xDFFF

/-- **The decoder.** A surrogate pair becomes its code point, a surrogate
on its own the replacement character. -/
@[grind] def decode : List Piece → Bytes
  | [] => []
  | .raw b :: ps => b :: decode ps
  | .esc b :: ps => b :: decode ps
  | .code u :: ps =>
    match ps with
    | .code v :: ps' =>
      if isHigh u && isLow v then
        Utf8.encodeRune (0x10000 + (u - 0xD800) * 0x400 + (v - 0xDC00)) ++ decode ps'
      else Utf8.encodeRune u ++ decode (.code v :: ps')
    | ps' => Utf8.encodeRune u ++ decode ps'
termination_by structural ps => ps

/-- No surrogate is left alone, so the decoder replaces nothing. -/
@[grind] def paired : List Piece → Bool
  | [] => true
  | .code u :: ps =>
    if isHigh u then
      match ps with
      | .code v :: ps' => isLow v && paired ps'
      | _ => false
    else !isLow u && paired ps
  | _ :: ps => paired ps
termination_by structural ps => ps

/-! ## The writer -/

/-- A hexadecimal digit, in lower case. -/
def hexDigit (n : ℕ) : UInt8 := if n < 10 then (0x30 + n).toUInt8 else (0x57 + n).toUInt8

/-- Control characters, and the three HTML ones. -/
def escapedByCode (b : UInt8) : Bool := b.toNat < 0x20 || b = 0x3C || b = 0x3E || b = 0x26

/-- One byte of a string, escaped if it has to be. -/
@[grind] def escapeByte (b : UInt8) : Bytes :=
  if b = 0x22 ∨ b = 0x5C then [0x5C, b]
  else if b = 0x08 then [0x5C, 0x62]
  else if b = 0x0C then [0x5C, 0x66]
  else if b = 0x0A then [0x5C, 0x6E]
  else if b = 0x0D then [0x5C, 0x72]
  else if b = 0x09 then [0x5C, 0x74]
  else if escapedByCode b then
    [0x5C, 0x75, 0x30, 0x30, hexDigit (b.toNat / 16), hexDigit (b.toNat % 16)]
  else [b]

/-- **The writer.** `U+2028` and `U+2029` are escaped as well, being line
breaks to a script. The replacement of ill-formed bytes is left out: what
is written here has been decoded from a text, and is one. -/
def escape : Bytes → Bytes
  | b₀ :: b₁ :: b₂ :: rest =>
    if b₀ = 0xE2 ∧ b₁ = 0x80 ∧ (b₂ = 0xA8 ∨ b₂ = 0xA9) then
      [0x5C, 0x75, 0x32, 0x30, 0x32, hexDigit (b₂.toNat - 0xA0)] ++ escape rest
    else escapeByte b₀ ++ escape (b₁ :: b₂ :: rest)
  | b :: rest => escapeByte b ++ escape rest
  | [] => []
termination_by structural bs => bs

/-- A string literal, quotes included. -/
def quote (s : Bytes) : Bytes := 0x22 :: (escape s ++ [0x22])

/-! ## The reader inverts the writer -/

/-- The bytes with a two-character escape of their own. -/
def hasSimple (b : UInt8) : Bool :=
  b = 0x22 || b = 0x5C || b = 0x08 || b = 0x0C || b = 0x0A || b = 0x0D || b = 0x09

/-- The piece a byte is written as. -/
def pieceOf (b : UInt8) : Piece :=
  if hasSimple b then .esc b
  else if escapedByCode b then .code b.toNat
  else .raw b

/-- A code unit that is no surrogate is decoded on its own. -/
theorem decode_code {u : ℕ} (hu : isHigh u = false) (ps : List Piece) :
    decode (.code u :: ps) = Utf8.encodeRune u ++ decode ps := by
  rw [decode.eq_def]
  simp only
  split
  · rw [hu]; rfl
  · rfl

theorem paired_code {u : ℕ} (hu : isHigh u = false) (ps : List Piece) :
    paired (.code u :: ps) = (!isLow u && paired ps) := by
  rw [paired.eq_def]
  simp [hu]

theorem hexVal_hexDigit : ∀ n, n < 16 → hexVal (hexDigit n) = some n := by decide

theorem hex4_of_lt {a b c d : ℕ} (ha : a < 16) (hb : b < 16) (hc : c < 16) (hd : d < 16) :
    hex4 (hexDigit a) (hexDigit b) (hexDigit c) (hexDigit d) =
      some (((a * 16 + b) * 16 + c) * 16 + d) := by
  simp [hex4, hexVal_hexDigit, ha, hb, hc, hd]

theorem lexBody_quote (rest : Bytes) : lexBody (0x22 :: rest) = some ([], rest) := by
  rw [lexBody.eq_def]
  simp

theorem lexBody_esc {e b : UInt8} (he : simpleEscape e = some b) (hu : e ≠ 0x75) (rest : Bytes) :
    lexBody (0x5C :: e :: rest) = (lexBody rest).map fun p => (.esc b :: p.1, p.2) := by
  rw [lexBody.eq_def]
  simp [he, hu]

theorem lexBody_code {a b c d : UInt8} {u : ℕ} (h : hex4 a b c d = some u) (rest : Bytes) :
    lexBody (0x5C :: 0x75 :: a :: b :: c :: d :: rest) =
      (lexBody rest).map fun p => (.code u :: p.1, p.2) := by
  rw [lexBody.eq_def]
  simp [h]

theorem lexBody_short {bs : Bytes} (h : ∀ a b c d rest, bs = a :: b :: c :: d :: rest → False) :
    lexBody (0x5C :: 0x75 :: bs) = none := by
  rw [lexBody.eq_def]
  simp only [if_neg (by decide : ¬ (0x5C : UInt8) = 0x22), if_true]

theorem lexBody_raw {b : UInt8} (h1 : b ≠ 0x22) (h2 : b ≠ 0x5C) (h3 : 0x20 ≤ b.toNat)
    (rest : Bytes) : lexBody (b :: rest) = (lexBody rest).map fun p => (.raw b :: p.1, p.2) := by
  rw [lexBody.eq_def]
  simp only [if_neg h1, if_neg h2, if_neg (Nat.not_lt.2 h3)]

/-- A byte is read back as the piece it was written as. -/
theorem lexBody_escapeByte (b : UInt8) (rest : Bytes) :
    lexBody (escapeByte b ++ rest) = (lexBody rest).map fun p => (pieceOf b :: p.1, p.2) := by
  have hlt : b.toNat < 256 := b.toNat_lt
  by_cases hs : hasSimple b = true
  · simp only [hasSimple, Bool.or_eq_true, decide_eq_true_eq] at hs
    rcases hs with (((((rfl | rfl) | rfl) | rfl) | rfl) | rfl) | rfl <;>
      exact lexBody_esc (by decide) (by decide) rest
  have hs' := hs
  simp only [hasSimple, Bool.or_eq_true, decide_eq_true_eq, not_or] at hs'
  obtain ⟨⟨⟨⟨⟨⟨h1, h2⟩, h3⟩, h4⟩, h5⟩, h6⟩, h7⟩ := hs'
  by_cases hc : escapedByCode b = true
  · have he : escapeByte b =
        [0x5C, 0x75, 0x30, 0x30, hexDigit (b.toNat / 16), hexDigit (b.toNat % 16)] := by
      simp [escapeByte, h1, h2, h3, h4, h5, h6, h7, hc]
    have hp : pieceOf b = .code b.toNat := by rw [pieceOf, if_neg hs, if_pos hc]
    have hhex := hex4_of_lt (a := 0) (b := 0) (c := b.toNat / 16) (d := b.toNat % 16)
      (by omega) (by omega) (by omega) (by omega)
    have hval : ((0 * 16 + 0) * 16 + b.toNat / 16) * 16 + b.toNat % 16 = b.toNat := by omega
    rw [hval] at hhex
    rw [he, hp]
    exact lexBody_code hhex rest
  · have he : escapeByte b = [b] := by
      simp [escapeByte, h1, h2, h3, h4, h5, h6, h7, hc]
    have hp : pieceOf b = .raw b := by rw [pieceOf, if_neg hs, if_neg hc]
    have hb : 0x20 ≤ b.toNat := by
      simp only [escapedByCode, Bool.or_eq_true, decide_eq_true_eq, not_or] at hc
      omega
    rw [he, hp]
    exact lexBody_raw h1 h2 hb rest

/-- And decoded back to itself. -/
theorem decode_pieceOf (b : UInt8) (ps : List Piece) : decode (pieceOf b :: ps) = b :: decode ps := by
  unfold pieceOf
  split_ifs with h1 h2
  · rfl
  · have hb : b.toNat < 0x40 := by
      simp only [escapedByCode, Bool.or_eq_true, decide_eq_true_eq] at h2
      rcases h2 with ((h | h) | h) | h
      · omega
      all_goals subst h; decide
    have henc : Utf8.encodeRune b.toNat = [b] := by
      rw [Utf8.encodeRune, if_pos (by omega)]
      simp
    have hhigh : isHigh b.toNat = false := by
      simp only [isHigh, Bool.and_eq_false_iff, decide_eq_false_iff_not]
      omega
    rw [decode_code hhigh, henc]
    rfl
  · rfl

theorem paired_pieceOf (b : UInt8) (ps : List Piece) : paired (pieceOf b :: ps) = paired ps := by
  have hlt : b.toNat < 256 := b.toNat_lt
  unfold pieceOf
  split_ifs with h1 h2
  · rfl
  · have hhigh : isHigh b.toNat = false := by
      simp only [isHigh, Bool.and_eq_false_iff, decide_eq_false_iff_not]
      omega
    have hlow : isLow b.toNat = false := by
      simp only [isLow, Bool.and_eq_false_iff, decide_eq_false_iff_not]
      omega
    rw [paired_code hhigh, hlow]
    rfl
  · rfl

/-- A line separator is read back as its code unit. -/
theorem decode_lineSeparator {b : UInt8} (hb : b = 0xA8 ∨ b = 0xA9) (ps : List Piece) :
    decode (.code (0x2020 + (b.toNat - 0xA0)) :: ps) = 0xE2 :: 0x80 :: b :: decode ps := by
  rcases hb with rfl | rfl
  · rw [decode_code (by decide)]; rfl
  · rw [decode_code (by decide)]; rfl

/-- **The reader inverts the writer**, whatever follows the literal, and
finds no surrogate in it. -/
theorem lexBody_escape (s rest : Bytes) :
    ∃ ps, lexBody (escape s ++ 0x22 :: rest) = some (ps, rest) ∧ decode ps = s ∧
      paired ps = true := by
  induction s using escape.induct with
  | case1 b₀ b₁ b₂ s h ih =>
    obtain ⟨ps, hlex, hdec, hpair⟩ := ih
    obtain ⟨rfl, rfl, hb⟩ := h
    have hcode : hex4 0x32 0x30 0x32 (hexDigit (b₂.toNat - 0xA0)) =
        some (0x2020 + (b₂.toNat - 0xA0)) := by
      rcases hb with rfl | rfl <;> decide +kernel
    refine ⟨.code (0x2020 + (b₂.toNat - 0xA0)) :: ps, ?_, ?_, ?_⟩
    · rw [escape, if_pos ⟨rfl, rfl, hb⟩]
      simp only [List.cons_append, List.nil_append]
      rw [lexBody_code hcode, hlex]
      rfl
    · rw [decode_lineSeparator hb, hdec]
    · have hu : isHigh (0x2020 + (b₂.toNat - 0xA0)) = false ∧
          isLow (0x2020 + (b₂.toNat - 0xA0)) = false := by
        rcases hb with rfl | rfl <;> decide +kernel
      rw [paired_code hu.1, hu.2, hpair]
      rfl
  | case2 b₀ b₁ b₂ s h ih =>
    obtain ⟨ps, hlex, hdec, hpair⟩ := ih
    refine ⟨pieceOf b₀ :: ps, ?_, by rw [decode_pieceOf, hdec], by rw [paired_pieceOf, hpair]⟩
    rw [escape, if_neg h, List.append_assoc, lexBody_escapeByte, hlex]
    rfl
  | case3 b s hshort ih =>
    obtain ⟨ps, hlex, hdec, hpair⟩ := ih
    refine ⟨pieceOf b :: ps, ?_, by rw [decode_pieceOf, hdec], by rw [paired_pieceOf, hpair]⟩
    rw [escape, List.append_assoc, lexBody_escapeByte, hlex]
    · rfl
    · exact hshort
  | case4 => exact ⟨[], lexBody_quote rest, rfl, rfl⟩

/-! ## What the lexer accepts -/

/-- **What the lexer accepts**: the text, its pieces, and the rest behind
the closing quote. -/
inductive Lexed : Bytes → List Piece → Bytes → Prop where
  | quote {rest : Bytes} : Lexed (0x22 :: rest) [] rest
  | code {a b c d : UInt8} {u : ℕ} {bs rest : Bytes} {ps : List Piece} :
      hex4 a b c d = some u → Lexed bs ps rest →
      Lexed (0x5C :: 0x75 :: a :: b :: c :: d :: bs) (.code u :: ps) rest
  | esc {e b : UInt8} {bs rest : Bytes} {ps : List Piece} :
      e ≠ 0x75 → simpleEscape e = some b → Lexed bs ps rest →
      Lexed (0x5C :: e :: bs) (.esc b :: ps) rest
  | raw {c : UInt8} {bs rest : Bytes} {ps : List Piece} :
      c ≠ 0x22 → c ≠ 0x5C → 0x20 ≤ c.toNat → Lexed bs ps rest →
      Lexed (c :: bs) (.raw c :: ps) rest

/-- One piece of what was read, and what was read behind it. -/
theorem of_lexBody_map {bs : Bytes} {p : Piece} {ps : List Piece} {rest : Bytes}
    (h : ((lexBody bs).map fun x => (p :: x.1, x.2)) = some (ps, rest)) :
    ∃ ps', ps = p :: ps' ∧ lexBody bs = some (ps', rest) := by
  obtain ⟨⟨ps', rest'⟩, hlex, heq⟩ := Option.map_eq_some_iff.1 h
  obtain ⟨rfl, rfl⟩ := Prod.mk.injEq .. ▸ heq
  exact ⟨ps', rfl, hlex⟩

theorem lexed_of_lexBody : ∀ (bs : Bytes) {ps : List Piece} {rest : Bytes},
    lexBody bs = some (ps, rest) → Lexed bs ps rest := by
  intro bs
  induction bs using lexBody.induct with
  | case1 => intro ps rest h; rw [lexBody.eq_def] at h; cases h
  | case2 bs =>
    intro ps rest h
    rw [lexBody_quote, Option.some.injEq, Prod.mk.injEq] at h
    obtain ⟨rfl, rfl⟩ := h
    exact .quote
  | case3 => intro ps rest h; rw [lexBody.eq_def] at h; simp at h
  | case4 a b c d bs u hhex _ ih =>
    intro ps rest h
    rw [lexBody_code hhex] at h
    obtain ⟨ps', rfl, hlex⟩ := of_lexBody_map h
    exact .code hhex (ih hlex)
  | case5 a b c d bs hhex _ =>
    intro ps rest h
    rw [lexBody.eq_def] at h
    simp [hhex] at h
  | case6 bs hshort _ =>
    intro ps rest h
    rw [lexBody_short hshort] at h
    cases h
  | case7 e bs hne b hesc _ ih =>
    intro ps rest h
    rw [lexBody_esc hesc hne] at h
    obtain ⟨ps', rfl, hlex⟩ := of_lexBody_map h
    exact .esc hne hesc (ih hlex)
  | case8 e bs hne hesc _ =>
    intro ps rest h
    rw [lexBody.eq_def] at h
    simp [hne, hesc] at h
  | case9 c bs h1 h2 h3 =>
    intro ps rest h
    rw [lexBody.eq_def] at h
    simp [h1, h2, h3] at h
  | case10 c bs h1 h2 h3 ih =>
    intro ps rest h
    rw [lexBody_raw h1 h2 (by omega)] at h
    obtain ⟨ps', rfl, hlex⟩ := of_lexBody_map h
    exact .raw h1 h2 (by omega) (ih hlex)

/-- What stands behind a literal does not change how it is read. -/
theorem Lexed.append {bs : Bytes} {ps : List Piece} {rest : Bytes} (h : Lexed bs ps rest)
    (t : Bytes) : Lexed (bs ++ t) ps (rest ++ t) := by
  induction h with
  | quote => exact .quote
  | code hhex _ ih => exact .code hhex ih
  | esc hne hesc _ ih => exact .esc hne hesc ih
  | raw h1 h2 h3 _ ih => exact .raw h1 h2 h3 ih

theorem Lexed.isSuffix {bs : Bytes} {ps : List Piece} {rest : Bytes} (h : Lexed bs ps rest) :
    rest <:+ bs := by
  induction h with
  | quote => exact List.suffix_cons _ _
  | code _ _ ih =>
    obtain ⟨t, rfl⟩ := ih
    exact ⟨_ :: _ :: _ :: _ :: _ :: _ :: t, rfl⟩
  | esc _ _ _ ih =>
    obtain ⟨t, rfl⟩ := ih
    exact ⟨_ :: _ :: t, rfl⟩
  | raw _ _ _ _ ih =>
    obtain ⟨t, rfl⟩ := ih
    exact ⟨_ :: t, rfl⟩

theorem Lexed.ne_nil {bs : Bytes} {ps : List Piece} {rest : Bytes} (h : Lexed bs ps rest) :
    bs ≠ [] := by
  cases h <;> simp

/-! ## What is decoded from a text is a text -/

open Utf8 in
/-- The pieces of a text read from `q`: raw bytes continue its characters,
and an escape stands between two. -/
inductive TextFrom : Pos → List Piece → Prop where
  | nil : TextFrom .start []
  | raw {q q' : Pos} {b : UInt8} {ps : List Piece} :
      q.step b = some q' → TextFrom q' ps → TextFrom q (.raw b :: ps)
  | esc {b : UInt8} {ps : List Piece} :
      b.toNat < 0x80 → TextFrom .start ps → TextFrom .start (.esc b :: ps)
  | code {u : ℕ} {ps : List Piece} : TextFrom .start ps → TextFrom .start (.code u :: ps)

theorem simpleEscape_ascii {e b : UInt8} (h : simpleEscape e = some b) : b.toNat < 0x80 := by
  unfold simpleEscape at h
  split_ifs at h with h1 <;> simp only [Option.some.injEq] at h <;> subst h
  · rcases h1 with rfl | rfl | rfl <;> decide
  all_goals decide

theorem simpleEscape_domain {e b : UInt8} (h : simpleEscape e = some b) : e.toNat < 0x80 := by
  unfold simpleEscape at h
  split_ifs at h with h1 h2 h3 h4 h5 h6
  · rcases h1 with rfl | rfl | rfl <;> decide
  all_goals subst_vars; decide

theorem hexVal_ascii {b : UInt8} {n : ℕ} (h : hexVal b = some n) : b.toNat < 0x80 := by
  unfold hexVal at h
  split_ifs at h <;> omega

theorem hex4_ascii {a b c d : UInt8} {u : ℕ} (h : hex4 a b c d = some u) :
    a.toNat < 0x80 ∧ b.toNat < 0x80 ∧ c.toNat < 0x80 ∧ d.toNat < 0x80 := by
  unfold hex4 at h
  split at h
  · rename_i ha hb hc hd
    exact ⟨hexVal_ascii ha, hexVal_ascii hb, hexVal_ascii hc, hexVal_ascii hd⟩
  · cases h

/-- Reading on past an ASCII byte. -/
theorem run_of_ascii_cons {q : Utf8.Pos} {b : UInt8} {bs : Bytes} (hb : b.toNat < 0x80)
    (h : q.run (b :: bs) = some .start) : q = .start ∧ Utf8.Pos.start.run bs = some .start := by
  cases hs : q.step b with
  | none => simp [Utf8.Pos.run, hs] at h
  | some q' =>
    obtain ⟨rfl, rfl⟩ := Utf8.step_ascii hb hs
    rw [Utf8.run_cons _ hs] at h
    exact ⟨rfl, h⟩

/-- A text behind an opening quote splits into pieces that make a text, and
the text behind the closing quote. -/
theorem Lexed.textFrom {bs : Bytes} {ps : List Piece} {rest : Bytes} (h : Lexed bs ps rest) :
    ∀ {q : Utf8.Pos}, q.run bs = some .start →
      TextFrom q ps ∧ Utf8.Pos.start.run rest = some .start := by
  induction h with
  | quote =>
    intro q hrun
    obtain ⟨rfl, hrest⟩ := run_of_ascii_cons (by decide) hrun
    exact ⟨.nil, hrest⟩
  | code hhex _ ih =>
    intro q hrun
    obtain ⟨ha, hb, hc, hd⟩ := hex4_ascii hhex
    obtain ⟨rfl, hrun⟩ := run_of_ascii_cons (by decide) hrun
    obtain ⟨-, hrun⟩ := run_of_ascii_cons (by decide) hrun
    obtain ⟨-, hrun⟩ := run_of_ascii_cons ha hrun
    obtain ⟨-, hrun⟩ := run_of_ascii_cons hb hrun
    obtain ⟨-, hrun⟩ := run_of_ascii_cons hc hrun
    obtain ⟨-, hrun⟩ := run_of_ascii_cons hd hrun
    obtain ⟨hps, hrest⟩ := ih hrun
    exact ⟨.code hps, hrest⟩
  | esc hne hesc _ ih =>
    intro q hrun
    obtain ⟨rfl, hrun⟩ := run_of_ascii_cons (by decide) hrun
    obtain ⟨-, hrun⟩ := run_of_ascii_cons (simpleEscape_domain hesc) hrun
    obtain ⟨hps, hrest⟩ := ih hrun
    exact ⟨.esc (simpleEscape_ascii hesc) hps, hrest⟩
  | @raw c bs rest ps h1 h2 h3 _ ih =>
    intro q hrun
    cases hs : q.step c with
    | none => simp [Utf8.Pos.run, hs] at hrun
    | some q' =>
      rw [Utf8.run_cons _ hs] at hrun
      obtain ⟨hps, hrest⟩ := ih hrun
      exact ⟨.raw hs hps, hrest⟩

/-- **What is decoded from a text is a text.** -/
theorem run_decode {q : Utf8.Pos} : ∀ {ps : List Piece}, TextFrom q ps →
    q.run (decode ps) = some .start := by
  intro ps
  induction ps using decode.induct generalizing q with
  | case1 => intro h; cases h; rfl
  | case2 b ps ih =>
    intro h
    cases h with
    | raw hs hps => rw [decode, Utf8.run_cons _ hs]; exact ih hps
  | case3 b ps ih =>
    intro h
    cases h with
    | esc hb hps => rw [decode, Utf8.run_cons _ (Utf8.start_step_ascii hb)]; exact ih hps
  | case4 u v ps huv ih =>
    intro h
    cases h with
    | code hps =>
      cases hps with
      | code hps =>
        rw [decode.eq_def]
        simp only [huv, if_true]
        exact Utf8.run_append_start (Utf8.run_encodeRune _) (ih hps)
  | case5 u v ps huv ih =>
    intro h
    cases h with
    | code hps =>
      rw [decode.eq_def]
      simp only [huv]
      exact Utf8.run_append_start (Utf8.run_encodeRune _) (ih hps)
  | case6 u ps hne ih =>
    intro h
    cases h with
    | code hps =>
      rw [decode]
      · exact Utf8.run_append_start (Utf8.run_encodeRune _) (ih hps)
      · exact hne

/-! ## What is written from a text is a text -/

/-- A byte from outside ASCII is written as it is, and one from inside it
as ASCII. -/
theorem escapeByte_eq_or (b : UInt8) :
    escapeByte b = [b] ∨ (b.toNat < 0x80 ∧ escapeByte b ≠ [] ∧
      ∀ c ∈ escapeByte b, c.toNat < 0x80) := by
  have hhex : ∀ n, n < 16 → (hexDigit n).toNat < 0x80 := by decide
  have hlt : b.toNat < 256 := b.toNat_lt
  by_cases hs : hasSimple b = true
  · simp only [hasSimple, Bool.or_eq_true, decide_eq_true_eq] at hs
    refine .inr ?_
    rcases hs with (((((rfl | rfl) | rfl) | rfl) | rfl) | rfl) | rfl <;> decide +kernel
  simp only [hasSimple, Bool.or_eq_true, decide_eq_true_eq, not_or] at hs
  obtain ⟨⟨⟨⟨⟨⟨h1, h2⟩, h3⟩, h4⟩, h5⟩, h6⟩, h7⟩ := hs
  by_cases hc : escapedByCode b = true
  · have he : escapeByte b =
        [0x5C, 0x75, 0x30, 0x30, hexDigit (b.toNat / 16), hexDigit (b.toNat % 16)] := by
      simp [escapeByte, h1, h2, h3, h4, h5, h6, h7, hc]
    have hb : b.toNat < 0x80 := by
      simp only [escapedByCode, Bool.or_eq_true, decide_eq_true_eq] at hc
      rcases hc with ((h | h) | h) | h
      · omega
      all_goals subst h; decide
    refine .inr ⟨hb, by rw [he]; simp, ?_⟩
    rw [he]
    simp [hhex, show b.toNat / 16 < 16 by omega, show b.toNat % 16 < 16 by omega]
  · exact .inl (by simp [escapeByte, h1, h2, h3, h4, h5, h6, h7, hc])

/-- Reading ASCII ends where it began, which is between characters. -/
theorem run_ascii_append (q : Utf8.Pos) {w : Bytes} (hne : w ≠ [])
    (hw : ∀ c ∈ w, c.toNat < 0x80) (bs : Bytes) :
    q.run (w ++ bs) = if q = .start then Utf8.Pos.start.run bs else none := by
  by_cases hq : q = .start
  · subst hq
    rw [if_pos rfl, Utf8.run_append, Utf8.run_of_ascii hw]
    rfl
  · rw [if_neg hq]
    cases w with
    | nil => exact absurd rfl hne
    | cons c w =>
      have hc : q.step c = none := by
        cases hs : q.step c with
        | none => rfl
        | some q' => exact absurd (Utf8.step_ascii (hw c (by simp)) hs).1 hq
      simp [Utf8.Pos.run, hc]

theorem run_escapeByte_append (q : Utf8.Pos) (b : UInt8) {as bs : Bytes}
    (h : ∀ q : Utf8.Pos, q.run as = q.run bs) : q.run (escapeByte b ++ as) = q.run (b :: bs) := by
  rcases escapeByte_eq_or b with he | ⟨hb, hne, hw⟩
  · rw [he]
    cases hs : q.step b with
    | none => simp [Utf8.Pos.run, hs]
    | some q' => rw [List.singleton_append, Utf8.run_cons _ hs, Utf8.run_cons _ hs, h]
  · rw [run_ascii_append q hne hw, h,
      ← run_ascii_append q (w := [b]) (by simp) (by simpa using hb), List.singleton_append]

/-- **The writer keeps a text a text.** -/
theorem run_escape (s : Bytes) : ∀ q : Utf8.Pos, q.run (escape s) = q.run s := by
  induction s using escape.induct with
  | case1 b₀ b₁ b₂ s h ih =>
    intro q
    obtain ⟨rfl, rfl, hb⟩ := h
    have hsep : ∀ (q : Utf8.Pos), q.run (0xE2 :: 0x80 :: b₂ :: s) =
        if q = .start then Utf8.Pos.start.run s else none := by
      intro q
      rcases hb with rfl | rfl <;> cases q <;> rfl
    rw [escape, if_pos ⟨rfl, rfl, hb⟩, hsep, ← ih]
    refine run_ascii_append q (by simp) ?_ _
    rcases hb with rfl | rfl <;> decide +kernel
  | case2 b₀ b₁ b₂ s h ih =>
    intro q
    rw [escape, if_neg h]
    exact run_escapeByte_append q b₀ ih
  | case3 b s hshort ih =>
    intro q
    rw [escape]
    · exact run_escapeByte_append q b ih
    · exact hshort
  | case4 => intro q; rfl

end Json

end ZkRuntime
