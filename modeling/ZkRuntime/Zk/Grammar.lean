import Mathlib.Data.List.TakeWhile
import ZkRuntime.Common.Unquote
import ZkRuntime.Zk.Payload
/-!
# The grammar of public payloads

What `ParsePreimagePublicPayload` is for: a JSON object of two members, each
a string. `PublicObject` is that language, said without the token stream;
`members_of_parse` reads it off an accepted payload and
`readMembers_of_publicObject` drives the stream through a word of it.
-/

namespace ZkRuntime

namespace Zk

open Json

/-- White space of JSON. -/
def Spaces (ws : Bytes) : Prop := ∀ b ∈ ws, isSpace b = true

/-- **A string literal**, with the pieces between its quotes. -/
def Literal (literal : Bytes) (ps : List Piece) : Prop :=
  ∃ body, literal = 0x22 :: body ∧ Lexed body ps []

/-- **A member**: a name and a string without unpaired surrogates, with the
white space around them. -/
inductive Member (name value : Bytes) : Bytes → Prop where
  | intro {ws₁ ws₂ ws₃ ws₄ key literal : Bytes} {kps ps : List Piece} :
      Spaces ws₁ → Spaces ws₂ → Spaces ws₃ → Spaces ws₄ →
      Literal key kps → decode kps = name →
      Literal literal ps → paired ps = true → decode ps = value →
      Member name value (ws₁ ++ (key ++ (ws₂ ++ 0x3A :: (ws₃ ++ (literal ++ ws₄)))))

/-- **One object of the two members**, in either order, and nothing else. -/
inductive PublicObject (ref dig : Bytes) : Bytes → Prop where
  | refFirst {ws₁ ws₂ m₁ m₂ : Bytes} :
      Spaces ws₁ → Spaces ws₂ → Member (ascii "witness_ref") ref m₁ → Member (ascii "digest") dig m₂ →
      PublicObject ref dig (ws₁ ++ 0x7B :: (m₁ ++ 0x2C :: (m₂ ++ 0x7D :: ws₂)))
  | digestFirst {ws₁ ws₂ m₁ m₂ : Bytes} :
      Spaces ws₁ → Spaces ws₂ → Member (ascii "digest") dig m₁ → Member (ascii "witness_ref") ref m₂ →
      PublicObject ref dig (ws₁ ++ 0x7B :: (m₁ ++ 0x2C :: (m₂ ++ 0x7D :: ws₂)))

/-- **A digest** `[+-]?[0-9]+`, and the integer it writes. -/
inductive Decimal : Bytes → ℤ → Prop where
  | unsigned {ds : Bytes} : ds ≠ [] → (∀ b ∈ ds, Bytes.isDigit b = true) →
      Decimal ds (Bytes.decimalValue ds)
  | plus {ds : Bytes} : ds ≠ [] → (∀ b ∈ ds, Bytes.isDigit b = true) →
      Decimal (0x2B :: ds) (Bytes.decimalValue ds)
  | minus {ds : Bytes} : ds ≠ [] → (∀ b ∈ ds, Bytes.isDigit b = true) →
      Decimal (0x2D :: ds) (-Bytes.decimalValue ds)

/-- `unicode.IsSpace`. -/
def isSpaceRune (c : ℕ) : Bool :=
  (0x09 ≤ c && c ≤ 0x0D) || c == 0x20 || c == 0x85 || c == 0xA0 || c == 0x1680 ||
    (0x2000 ≤ c && c ≤ 0x200A) || c == 0x2028 || c == 0x2029 || c == 0x202F || c == 0x205F || c == 0x3000

/-- **A character that is not white space** is in the text. -/
def HasVisible (s : Bytes) : Prop :=
  ∃ before enc after, s = before ++ (enc ++ after) ∧ Text before ∧ Quote.Encoded enc ∧
    isSpaceRune (Quote.runeValue enc) = false

/-! ## White space and literals -/

theorem exists_spaces (bs : Bytes) : ∃ ws, Spaces ws ∧ bs = ws ++ skipSpace bs :=
  ⟨bs.takeWhile isSpace, fun _ hb => List.mem_takeWhile_imp hb, (List.takeWhile_append_dropWhile).symm⟩

theorem skipSpace_append {ws : Bytes} (hws : Spaces ws) {c : UInt8} (hc : isSpace c = false) (bs : Bytes) :
    skipSpace (ws ++ c :: bs) = c :: bs := by
  rw [skipSpace, List.dropWhile_append_of_pos hws]
  exact skipSpace_cons hc bs

theorem skipSpace_eq_nil {ws : Bytes} : skipSpace ws = [] ↔ Spaces ws := List.dropWhile_eq_nil_iff

theorem Literal.skipSpace {literal : Bytes} {ps : List Piece} (h : Literal literal ps) {ws : Bytes}
    (hws : Spaces ws) (bs : Bytes) : Json.skipSpace (ws ++ (literal ++ bs)) = literal ++ bs := by
  obtain ⟨body, rfl, -⟩ := h
  exact skipSpace_append hws (by decide) _

/-- The lexer reads what its grammar describes. -/
theorem lexBody_of_lexed {bs : Bytes} {ps : List Piece} {rest : Bytes} (h : Lexed bs ps rest) :
    lexBody bs = some (ps, rest) := by
  induction h with
  | quote => exact lexBody_quote _
  | code hhex _ ih => rw [lexBody_code hhex, ih]; rfl
  | esc hne hesc _ ih => rw [lexBody_esc hesc hne, ih]; rfl
  | raw h1 h2 h3 _ ih => rw [lexBody_raw h1 h2 h3, ih]; rfl

/-- A literal ends at its closing quote. -/
theorem exists_body {bs : Bytes} {ps : List Piece} {rest : Bytes} (h : Lexed bs ps rest) :
    ∃ body, bs = body ++ rest ∧ Lexed body ps [] := by
  induction h with
  | @quote rest => exact ⟨[0x22], rfl, .quote⟩
  | code hhex _ ih =>
    obtain ⟨body, rfl, hbody⟩ := ih
    exact ⟨_ :: _ :: _ :: _ :: _ :: _ :: body, rfl, .code hhex hbody⟩
  | esc hne hesc _ ih =>
    obtain ⟨body, rfl, hbody⟩ := ih
    exact ⟨_ :: _ :: body, rfl, .esc hne hesc hbody⟩
  | raw h1 h2 h3 _ ih =>
    obtain ⟨body, rfl, hbody⟩ := ih
    exact ⟨_ :: body, rfl, .raw h1 h2 h3 hbody⟩

/-- A literal with anything behind it is read up to its closing quote. -/
theorem Literal.lex {literal : Bytes} {ps : List Piece} (h : Literal literal ps) (rest : Bytes) :
    ∃ body, literal ++ rest = 0x22 :: body ∧ lexBody body = some (ps, rest) := by
  obtain ⟨body, rfl, hbody⟩ := h
  exact ⟨body ++ rest, rfl, lexBody_of_lexed (hbody.append rest)⟩

/-! ## The token stream along a member -/

theorem stringToken_literal {ws literal : Bytes} {ps : List Piece} (hws : Spaces ws)
    (h : Literal literal ps) (rest : Bytes) :
    Decoder.stringToken (ws ++ (literal ++ rest)) = some (decode ps, ⟨rest, .objectColon⟩) := by
  obtain ⟨body, hbody, hlex⟩ := h.lex rest
  rw [Decoder.stringToken, h.skipSpace hws, hbody]
  simp [hlex]

theorem readValue_of_literal {ws literal : Bytes} {ps : List Piece} (hws : Spaces ws)
    (h : Literal literal ps) (rest : Bytes) :
    readValue (ws ++ (literal ++ rest)) = some (literal, rest) := by
  obtain ⟨body, hbody, hlex⟩ := h.lex rest
  have hscan : scanValue ((ws ++ (literal ++ rest)).length + 1) (ws ++ (literal ++ rest)) = some rest := by
    rw [scanValue, h.skipSpace hws, hbody]
    simp [hlex]
  rw [readValue, hscan, h.skipSpace hws]
  simp [List.length_append]

theorem readField_literal {ws₂ ws₃ literal : Bytes} {ps : List Piece} (hws₂ : Spaces ws₂) (hws₃ : Spaces ws₃)
    (h : Literal literal ps) (hp : paired ps = true) (rest : Bytes) :
    readField ⟨ws₂ ++ 0x3A :: (ws₃ ++ (literal ++ rest)), .objectColon⟩ =
      .ok (decode ps, ⟨rest, .objectComma⟩) := by
  have hraw : Decoder.decodeRaw ⟨ws₂ ++ 0x3A :: (ws₃ ++ (literal ++ rest)), .objectColon⟩ =
      some (literal, ⟨rest, .objectComma⟩) := by
    rw [Decoder.decodeRaw]
    simp only [skipSpace_append hws₂ (show isSpace 0x3A = false by decide)]
    rw [if_pos trivial, readValue_of_literal hws₃ h]
    rfl
  obtain ⟨body, rfl, hbody⟩ := h
  have hlex := lexBody_of_lexed hbody
  have hunquote : unquote (0x22 :: body) = some (decode ps) := by
    simp [unquote, hlex]
  have hescapes := validPublicStringEscapes_of_lexBody hlex
  rw [hp] at hescapes
  rw [readField, hraw]
  dsimp only
  rw [if_neg (by simp), hunquote]
  dsimp only
  rw [if_pos hescapes]

/-- **The stream reads a member**, wherever it may stand, and stops at what is
behind it and its white space. -/
theorem Member.read {name value m : Bytes} (h : Member name value m) (rest : Bytes) :
    ∃ d ws, Spaces ws ∧ readField d = .ok (value, ⟨ws ++ rest, .objectComma⟩) ∧
      Decoder.stringToken (m ++ rest) = some (name, d) ∧
      ∀ t, (⟨m ++ rest, t⟩ : Decoder).more = true := by
  obtain ⟨hws₁, hws₂, hws₃, hws₄, hkey, hname, hlit, hp, hvalue⟩ := h
  rename_i ws₁ ws₂ ws₃ ws₄ key literal kps ps
  refine ⟨⟨ws₂ ++ 0x3A :: (ws₃ ++ (literal ++ (ws₄ ++ rest))), .objectColon⟩, ws₄, hws₄, ?_, ?_, fun t => ?_⟩
  · rw [readField_literal hws₂ hws₃ hlit hp, hvalue]
  · have := stringToken_literal hws₁ hkey (ws₂ ++ 0x3A :: (ws₃ ++ (literal ++ (ws₄ ++ rest))))
    rw [hname] at this
    simpa only [List.append_assoc, List.cons_append] using this
  · obtain ⟨body, rfl, -⟩ := hkey
    simp only [Decoder.more, List.append_assoc, List.cons_append]
    rw [skipSpace_append hws₁ (by decide)]
    rfl

theorem more_comma {ws : Bytes} (hws : Spaces ws) (rest : Bytes) (t : TokenState) :
    (⟨ws ++ 0x2C :: rest, t⟩ : Decoder).more = true := by
  rw [Decoder.more, skipSpace_append hws (by decide)]
  rfl

theorem more_brace {ws : Bytes} (hws : Spaces ws) (rest : Bytes) (t : TokenState) :
    (⟨ws ++ 0x7D :: rest, t⟩ : Decoder).more = false := by
  rw [Decoder.more, skipSpace_append hws (by decide)]
  rfl

/-- **The loop reads the two members of a word of the grammar**, and stops in
front of the closing brace. -/
theorem readMembers_of_publicObject {ref dig raw : Bytes} (h : PublicObject ref dig raw) :
    ∃ d ws ws', openObject raw = some d ∧ Spaces ws ∧ Spaces ws' ∧
      readMembers 3 d {} = .ok (⟨some ref, some dig⟩, ⟨ws ++ 0x7D :: ws', .objectComma⟩) := by
  have hne : ascii "digest" ≠ ascii "witness_ref" := by decide +kernel
  have hopen : ∀ {ws₁ rest : Bytes}, Spaces ws₁ →
      openObject (ws₁ ++ 0x7B :: rest) = some ⟨rest, .objectStart⟩ := by
    intro ws₁ rest hws₁
    rw [openObject, skipSpace_append hws₁ (by decide)]
    simp
  cases h with
  | @refFirst ws₁ ws₂ m₁ m₂ hws₁ hws₂ h₁ h₂ =>
    obtain ⟨d₁, ws₃, hws₃, hfield₁, hkey₁, hmore₁⟩ := h₁.read (0x2C :: (m₂ ++ 0x7D :: ws₂))
    obtain ⟨d₂, ws₄, hws₄, hfield₂, hkey₂, -⟩ := h₂.read (0x7D :: ws₂)
    refine ⟨_, ws₄, ws₂, hopen hws₁, hws₄, hws₂, ?_⟩
    simp only [readMembers, hmore₁, Decoder.keyToken, hkey₁, hfield₁, more_comma hws₃,
      skipSpace_append hws₃ (show isSpace 0x2C = false by decide), hkey₂, hfield₂, more_brace hws₄,
      if_neg hne, Option.isSome_none, Bool.not_true, Bool.not_false, if_true, Bool.false_eq_true, if_false]
  | @digestFirst ws₁ ws₂ m₁ m₂ hws₁ hws₂ h₁ h₂ =>
    obtain ⟨d₁, ws₃, hws₃, hfield₁, hkey₁, hmore₁⟩ := h₁.read (0x2C :: (m₂ ++ 0x7D :: ws₂))
    obtain ⟨d₂, ws₄, hws₄, hfield₂, hkey₂, -⟩ := h₂.read (0x7D :: ws₂)
    refine ⟨_, ws₄, ws₂, hopen hws₁, hws₄, hws₂, ?_⟩
    simp only [readMembers, hmore₁, Decoder.keyToken, hkey₁, hfield₁, more_comma hws₃,
      skipSpace_append hws₃ (show isSpace 0x2C = false by decide), hkey₂, hfield₂, more_brace hws₄,
      if_neg hne, Option.isSome_none, Bool.not_true, Bool.not_false, if_true, Bool.false_eq_true, if_false]

/-! ## What the stream has read -/

theorem literal_of_stringToken {bs key : Bytes} {d : Decoder} (h : Decoder.stringToken bs = some (key, d)) :
    ∃ ws literal ps, Spaces ws ∧ Literal literal ps ∧ decode ps = key ∧
      bs = ws ++ (literal ++ d.input) ∧ d.tokenState = .objectColon := by
  obtain ⟨ws, hws, hbs⟩ := exists_spaces bs
  unfold Decoder.stringToken at h
  split at h
  · rename_i c rest heq
    split_ifs at h with hc
    subst hc
    obtain ⟨⟨ps, rest'⟩, hlex, hd⟩ := Option.map_eq_some_iff.1 h
    cases hd
    obtain ⟨body, rfl, hbody⟩ := exists_body (lexed_of_lexBody rest hlex)
    rw [heq] at hbs
    exact ⟨ws, 0x22 :: body, ps, hws, ⟨body, rfl, hbody⟩, rfl, hbs, rfl⟩
  · cases h

theorem literal_of_readField {d d' : Decoder} {s : Bytes} (h : readField d = .ok (s, d')) :
    ∃ ws₂ ws₃ literal ps, Spaces ws₂ ∧ Spaces ws₃ ∧ Literal literal ps ∧ paired ps = true ∧ decode ps = s ∧
      d.input = ws₂ ++ 0x3A :: (ws₃ ++ (literal ++ d'.input)) ∧ d'.tokenState = .objectComma := by
  obtain ⟨ws₂, hws₂, hinput⟩ := exists_spaces d.input
  unfold readField at h
  split at h
  · cases h
  rename_i value d'' hraw
  split at h
  · cases h
  rename_i hq
  split at h
  · cases h
  rename_i s' hun
  split_ifs at h with hesc
  cases h
  unfold Decoder.decodeRaw at hraw
  split at hraw
  · rename_i c rest hst heq
    split_ifs at hraw with hc
    subst hc
    obtain ⟨⟨value', rest'⟩, hval, hd⟩ := Option.map_eq_some_iff.1 hraw
    simp only [Prod.mk.injEq] at hd
    obtain ⟨rfl, rfl⟩ := hd
    obtain ⟨ws₃, hws₃, hrest⟩ := exists_spaces rest
    have happ := readValue_literal hval (by simpa using hq)
    unfold unquote at hun
    split at hun
    · rename_i c body
      split_ifs at hun with hc
      subst hc
      split at hun
      · rename_i ps hlex
        cases hun
        have hpaired := validPublicStringEscapes_of_lexBody hlex
        rw [hesc, Option.some.injEq] at hpaired
        refine ⟨ws₂, ws₃, 0x22 :: body, ps, hws₂, hws₃, ⟨body, rfl, lexed_of_lexBody body hlex⟩,
          hpaired.symm, rfl, ?_, rfl⟩
        rw [hinput, heq, hrest, happ]
      · cases hun
    · cases hun
  · cases hraw

/-- **One round of the loop**: it stops, or reads one of the two members that
it has not read before. -/
theorem readMembers_succ {n : ℕ} {d d' : Decoder} {m m' : Members}
    (h : readMembers (n + 1) d m = .ok (m', d')) :
    (d.more = false ∧ m' = m ∧ d' = d) ∨
    ∃ name d₁ s d₂, d.keyToken = some (name, d₁) ∧ readField d₁ = .ok (s, d₂) ∧
      ((name = ascii "witness_ref" ∧ m.witnessRef = none ∧
          readMembers n d₂ { m with witnessRef := some s } = .ok (m', d')) ∨
        (name = ascii "digest" ∧ m.digest = none ∧
          readMembers n d₂ { m with digest := some s } = .ok (m', d'))) := by
  rw [readMembers] at h
  split at h
  · rename_i hmore
    cases h
    exact .inl ⟨by simpa using hmore, rfl, rfl⟩
  split at h
  · cases h
  rename_i key d₁ hkey
  refine .inr ⟨key, d₁, ?_⟩
  split at h
  · rename_i hname
    split at h
    · cases h
    rename_i hnone
    split at h
    · cases h
    rename_i s d₂ hfield
    exact ⟨s, d₂, hkey, hfield, .inl ⟨hname, by simpa using hnone, h⟩⟩
  · split at h
    · rename_i hname
      split at h
      · cases h
      rename_i hnone
      split at h
      · cases h
      rename_i s d₂ hfield
      exact ⟨s, d₂, hkey, hfield, .inr ⟨hname, by simpa using hnone, h⟩⟩
    · cases h

/-- A member behind which `rest` follows. -/
theorem member_of_round {bs name s ws rest : Bytes} {d₁ d₂ : Decoder}
    (hkey : Decoder.stringToken bs = some (name, d₁)) (hfield : readField d₁ = .ok (s, d₂))
    (hws : Spaces ws) (hrest : d₂.input = ws ++ rest) : ∃ m, bs = m ++ rest ∧ Member name s m := by
  obtain ⟨ws₁, key, kps, hws₁, hlit, hname, hbs, -⟩ := literal_of_stringToken hkey
  obtain ⟨ws₂, ws₃, literal, ps, hws₂, hws₃, hlit', hp, hs, hinput, -⟩ := literal_of_readField hfield
  refine ⟨ws₁ ++ (key ++ (ws₂ ++ 0x3A :: (ws₃ ++ (literal ++ ws)))), ?_,
    .intro hws₁ hws₂ hws₃ hws hlit hname hlit' hp hs⟩
  rw [hbs, hinput, hrest]
  simp only [List.append_assoc, List.cons_append]

theorem comma_of_keyToken {d d₁ : Decoder} {name : Bytes} (ht : d.tokenState = .objectComma)
    (h : d.keyToken = some (name, d₁)) :
    ∃ ws rest, Spaces ws ∧ d.input = ws ++ 0x2C :: rest ∧ Decoder.stringToken rest = some (name, d₁) := by
  obtain ⟨ws, hws, hinput⟩ := exists_spaces d.input
  rw [Decoder.keyToken, ht] at h
  dsimp only at h
  split at h
  · rename_i c rest heq
    split_ifs at h with hc
    subst hc
    exact ⟨ws, rest, hws, heq ▸ hinput, h⟩
  · cases h

theorem brace_of_closeObject {d : Decoder} {rest : Bytes} (ht : d.tokenState = .objectComma)
    (h : d.closeObject = some rest) : ∃ ws, Spaces ws ∧ d.input = ws ++ 0x7D :: rest := by
  obtain ⟨ws, hws, hinput⟩ := exists_spaces d.input
  rw [Decoder.closeObject, ht] at h
  cases heq : skipSpace d.input with
  | nil => rw [heq] at h; cases h
  | cons c rest' =>
    rw [heq] at h hinput
    dsimp only at h
    split_ifs at h with hc
    cases h
    exact ⟨ws, hws, hc ▸ hinput⟩

theorem brace_of_openObject {raw : Bytes} {d : Decoder} (h : openObject raw = some d) :
    ∃ ws, Spaces ws ∧ raw = ws ++ 0x7B :: d.input ∧ d.tokenState = .objectStart := by
  obtain ⟨ws, hws, hraw⟩ := exists_spaces raw
  unfold openObject at h
  split at h
  · rename_i c rest heq
    split_ifs at h with hc
    cases h
    exact ⟨ws, hws, by rw [hraw, heq, hc], rfl⟩
  · cases h

/-- With both members read the loop stops. -/
theorem readMembers_full {n : ℕ} {d d' : Decoder} {m' : Members} {ref dig : Bytes}
    (h : readMembers (n + 1) d ⟨some ref, some dig⟩ = .ok (m', d')) : m' = ⟨some ref, some dig⟩ ∧ d' = d := by
  rcases readMembers_succ h with ⟨-, hm, hd⟩ | ⟨name, d₁, s, d₂, -, -, ⟨-, hnone, -⟩ | ⟨-, hnone, -⟩⟩
  · exact ⟨hm, hd⟩
  · cases hnone
  · cases hnone

/-- **What the loop has read is a word of the grammar.** -/
theorem publicObject_of_readMembers {raw ref dig rest : Bytes} {d d' : Decoder}
    (hopen : openObject raw = some d) (h : readMembers 3 d {} = .ok (⟨some ref, some dig⟩, d'))
    (hclose : d'.closeObject = some rest) (hrest : skipSpace rest = []) : PublicObject ref dig raw := by
  obtain ⟨ws₁, hws₁, rfl, hstart⟩ := brace_of_openObject hopen
  have hws₂ : Spaces rest := skipSpace_eq_nil.1 hrest
  -- the second round, whichever member the first one read
  have hround : ∀ {d₂ d₃ d₄ : Decoder} {name s : Bytes}, d₂.tokenState = .objectComma →
      d₂.keyToken = some (name, d₃) → readField d₃ = .ok (s, d₄) → d' = d₄ →
      ∃ ws m, Spaces ws ∧ d₂.input = ws ++ 0x2C :: (m ++ 0x7D :: rest) ∧ Member name s m := by
    intro d₂ d₃ d₄ name s ht hkey hfield hd'
    obtain ⟨ws, x, hws, hinput, htoken⟩ := comma_of_keyToken ht hkey
    obtain ⟨-, -, -, -, -, -, -, -, -, -, ht₄⟩ := literal_of_readField hfield
    rw [hd'] at hclose
    obtain ⟨ws', hws', hbrace⟩ := brace_of_closeObject ht₄ hclose
    obtain ⟨m, rfl, hm⟩ := member_of_round htoken hfield hws' hbrace
    exact ⟨ws, m, hws, hinput, hm⟩
  rcases readMembers_succ h with ⟨-, hm, -⟩ | ⟨name, d₁, s, d₂, hkey, hfield, hnext⟩
  · cases hm
  rw [Decoder.keyToken, hstart] at hkey
  obtain ⟨-, -, -, -, -, -, -, -, -, -, ht₂⟩ := literal_of_readField hfield
  rcases hnext with ⟨rfl, -, hnext⟩ | ⟨rfl, -, hnext⟩
  · rcases readMembers_succ hnext with ⟨-, hm, -⟩ | ⟨name', d₃, s', d₄, hkey', hfield', hlast⟩
    · cases hm
    rcases hlast with ⟨-, hnone, -⟩ | ⟨rfl, -, hlast⟩
    · cases hnone
    obtain ⟨hm, hd'⟩ := readMembers_full hlast
    cases hm
    obtain ⟨ws, m₂, hws, hinput, hm₂⟩ := hround ht₂ hkey' hfield' hd'
    obtain ⟨m₁, hm₁eq, hm₁⟩ := member_of_round hkey hfield hws hinput
    rw [hm₁eq]
    exact .refFirst hws₁ hws₂ hm₁ hm₂
  · rcases readMembers_succ hnext with ⟨-, hm, -⟩ | ⟨name', d₃, s', d₄, hkey', hfield', hlast⟩
    · cases hm
    rcases hlast with ⟨rfl, -, hlast⟩ | ⟨-, hnone, -⟩
    · obtain ⟨hm, hd'⟩ := readMembers_full hlast
      cases hm
      obtain ⟨ws, m₂, hws, hinput, hm₂⟩ := hround ht₂ hkey' hfield' hd'
      obtain ⟨m₁, hm₁eq, hm₁⟩ := member_of_round hkey hfield hws hinput
      rw [hm₁eq]
      exact .digestFirst hws₁ hws₂ hm₁ hm₂
    · cases hnone

/-! ## Digests -/

theorem decimal_iff {s : Bytes} {z : ℤ} :
    Decimal s z ↔ (unsignedDigits s ≠ [] ∧ (unsignedDigits s).all Bytes.isDigit = true) ∧ decimalInt s = z := by
  constructor
  · intro h
    cases h with
    | unsigned hne hdig =>
      cases s with
      | nil => exact absurd rfl hne
      | cons c ds =>
        obtain ⟨h1, h2⟩ := not_sign_of_isDigit (hdig c (by simp))
        have huns : unsignedDigits (c :: ds) = c :: ds := by simp [unsignedDigits, h1, h2]
        refine ⟨⟨by rw [huns]; simp, by rw [huns]; exact List.all_eq_true.2 hdig⟩, ?_⟩
        rw [decimalInt, if_neg (by simpa using h2), huns]
    | plus hne hdig => exact ⟨⟨hne, List.all_eq_true.2 hdig⟩, rfl⟩
    | minus hne hdig => exact ⟨⟨hne, List.all_eq_true.2 hdig⟩, rfl⟩
  · rintro ⟨⟨hne, hdig⟩, rfl⟩
    have hdig := List.all_eq_true.1 hdig
    cases s with
    | nil => exact absurd rfl hne
    | cons c ds =>
      by_cases hplus : c = 0x2B
      · subst hplus
        exact .plus hne hdig
      by_cases hminus : c = 0x2D
      · subst hminus
        exact .minus hne hdig
      have huns : unsignedDigits (c :: ds) = c :: ds := by simp [unsignedDigits, hplus, hminus]
      rw [huns] at hne hdig
      rw [decimalInt, if_neg (by simpa using hminus), huns]
      exact .unsigned hne hdig

/-- **The digest the parser takes** is one of the grammar, reduced. -/
theorem parseDigest_eq_some {s : Bytes} {x : FrElement} :
    parseDigest s = some x ↔ ∃ z, Decimal s z ∧ x = setBigInt z := by
  rw [parseDigest]
  constructor
  · intro h
    split_ifs at h with hd
    exact ⟨decimalInt s, decimal_iff.2 ⟨hd, rfl⟩, (Option.some.inj h).symm⟩
  · rintro ⟨z, hz, rfl⟩
    obtain ⟨hd, rfl⟩ := decimal_iff.1 hz
    rw [if_pos hd]

/-! ## White space in a reference -/

/-- `isSpaceRune` as arithmetic. -/
theorem isSpaceRune_iff {c : ℕ} : isSpaceRune c = true ↔
    (0x09 ≤ c ∧ c ≤ 0x0D) ∨ c = 0x20 ∨ c = 0x85 ∨ c = 0xA0 ∨ c = 0x1680 ∨ (0x2000 ≤ c ∧ c ≤ 0x200A) ∨
      c = 0x2028 ∨ c = 0x2029 ∨ c = 0x202F ∨ c = 0x205F ∨ c = 0x3000 := by
  simp only [isSpaceRune, Bool.or_eq_true, Bool.and_eq_true, decide_eq_true_eq, beq_iff_eq, or_assoc]

/-- The bytes white space may begin with. -/
theorem blank_cons_false {a : UInt8} (h1 : ¬ ((0x09 ≤ a.toNat ∧ a.toNat ≤ 0x0D) ∨ a = 0x20)) (h2 : a ≠ 0xC2)
    (h3 : a ≠ 0xE1 ∧ a ≠ 0xE2 ∧ a ≠ 0xE3) (bs : Bytes) : blank (a :: bs) = false := by
  obtain ⟨h3, h4, h5⟩ := h3
  rw [blank.eq_def]
  dsimp only
  rw [if_neg h1, if_neg h2]
  split
  · rw [if_neg]
    rintro (⟨h, -⟩ | ⟨h, -⟩ | ⟨h, -⟩ | ⟨h, -⟩)
    · exact h3 h
    · exact h4 h
    · exact h4 h
    · exact h5 h
  · rfl

theorem blank_ascii {a : UInt8} (h : (0x09 ≤ a.toNat ∧ a.toNat ≤ 0x0D) ∨ a = 0x20) (bs : Bytes) :
    blank (a :: bs) = blank bs := by
  rw [blank.eq_def]
  dsimp only
  rw [if_pos h]

theorem blank_latin {b : UInt8} (bs : Bytes) :
    blank (0xC2 :: b :: bs) = if b = 0x85 ∨ b = 0xA0 then blank bs else false := by
  rw [blank.eq_def]
  dsimp only
  rw [if_neg (by decide), if_pos rfl]

theorem blank_wide {a b c : UInt8} (ha : 0xE0 ≤ a.toNat) (bs : Bytes) :
    blank (a :: b :: c :: bs) =
      if (a = 0xE1 ∧ b = 0x9A ∧ c = 0x80) ∨
          (a = 0xE2 ∧ b = 0x80 ∧ ((0x80 ≤ c.toNat ∧ c.toNat ≤ 0x8A) ∨ c = 0xA8 ∨ c = 0xA9 ∨ c = 0xAF)) ∨
          (a = 0xE2 ∧ b = 0x81 ∧ c = 0x9F) ∨ (a = 0xE3 ∧ b = 0x80 ∧ c = 0x80)
      then blank bs else false := by
  have h1 : ¬ ((0x09 ≤ a.toNat ∧ a.toNat ≤ 0x0D) ∨ a = 0x20) := by
    rintro (h | rfl)
    · omega
    · exact absurd ha (by decide)
  have h2 : a ≠ 0xC2 := by
    rintro rfl
    exact absurd ha (by decide)
  rw [blank.eq_def]
  dsimp only
  rw [if_neg h1, if_neg h2]

/-- The white space of three bytes, by code point and by bytes. -/
theorem wide_space_iff {a b c : ℕ} (ha : 0xE0 ≤ a ∧ a ≤ 0xEF) (hb : 0x80 ≤ b ∧ b ≤ 0xBF)
    (hab : a = 0xE0 → 0xA0 ≤ b) (hc : 0x80 ≤ c ∧ c ≤ 0xBF) :
    isSpaceRune ((a % 16 * 64 + b % 64) * 64 + c % 64) = true ↔
      (a = 0xE1 ∧ b = 0x9A ∧ c = 0x80) ∨
        (a = 0xE2 ∧ b = 0x80 ∧ ((0x80 ≤ c ∧ c ≤ 0x8A) ∨ c = 0xA8 ∨ c = 0xA9 ∨ c = 0xAF)) ∨
        (a = 0xE2 ∧ b = 0x81 ∧ c = 0x9F) ∨ (a = 0xE3 ∧ b = 0x80 ∧ c = 0x80) := by
  obtain ⟨x, rfl⟩ := Nat.exists_eq_add_of_le ha.1
  obtain ⟨y, rfl⟩ := Nat.exists_eq_add_of_le hb.1
  obtain ⟨z, rfl⟩ := Nat.exists_eq_add_of_le hc.1
  have hx : (0xE0 + x) % 16 = x := by omega
  have hy : (0x80 + y) % 64 = y := by omega
  have hz : (0x80 + z) % 64 = z := by omega
  have hy' : y < 64 := by omega
  have hz' : z < 64 := by omega
  have hlow : 0x800 ≤ (x * 64 + y) * 64 + z := by
    rcases Nat.eq_zero_or_pos x with rfl | hpos
    · have := hab rfl
      omega
    · omega
  clear ha hb hab hc
  rw [hx, hy, hz, isSpaceRune_iff]
  constructor
  · rintro (h | h | h | h | h | h | h | h | h | h | h)
    · exact absurd hlow (by omega)
    · exact absurd hlow (by omega)
    · exact absurd hlow (by omega)
    · exact absurd hlow (by omega)
    · exact .inl ⟨by omega, by omega, by omega⟩
    · exact .inr (.inl ⟨by omega, by omega, .inl (by omega)⟩)
    · exact .inr (.inl ⟨by omega, by omega, .inr (.inl (by omega))⟩)
    · exact .inr (.inl ⟨by omega, by omega, .inr (.inr (.inl (by omega)))⟩)
    · exact .inr (.inl ⟨by omega, by omega, .inr (.inr (.inr (by omega)))⟩)
    · exact .inr (.inr (.inl ⟨by omega, by omega, by omega⟩))
    · exact .inr (.inr (.inr ⟨by omega, by omega, by omega⟩))
  · rintro (⟨h1, h2, h3⟩ | ⟨h1, h2, h3 | h3 | h3 | h3⟩ | ⟨h1, h2, h3⟩ | ⟨h1, h2, h3⟩)
    · exact .inr (.inr (.inr (.inr (.inl (by omega)))))
    · exact .inr (.inr (.inr (.inr (.inr (.inl (by omega))))))
    · exact .inr (.inr (.inr (.inr (.inr (.inr (.inl (by omega)))))))
    · exact .inr (.inr (.inr (.inr (.inr (.inr (.inr (.inl (by omega))))))))
    · exact .inr (.inr (.inr (.inr (.inr (.inr (.inr (.inr (.inl (by omega)))))))))
    · exact .inr (.inr (.inr (.inr (.inr (.inr (.inr (.inr (.inr (.inl (by omega))))))))))
    · exact .inr (.inr (.inr (.inr (.inr (.inr (.inr (.inr (.inr (.inr (by omega))))))))))

/-- **One character of `TrimSpace`.** -/
theorem blank_encoded {enc : Bytes} (h : Quote.Encoded enc) (rest : Bytes) :
    blank (enc ++ rest) = (isSpaceRune (Quote.runeValue enc) && blank rest) := by
  have heq : ∀ a b : UInt8, a = b ↔ a.toNat = b.toNat := fun a b => UInt8.toNat_inj.symm
  have hside : ∀ {p : Prop} [Decidable p] {q r : Bool}, (q = true ↔ p) → (if p then r else false) = (q && r) := by
    intro p _ q r hq
    by_cases hp : p
    · rw [if_pos hp, hq.2 hp, Bool.true_and]
    · rw [if_neg hp, Bool.eq_false_iff.2 (fun h => hp (hq.1 h)), Bool.false_and]
  cases h with
  | @one a ha =>
    simp only [List.cons_append, List.nil_append, Quote.runeValue]
    by_cases hs : (0x09 ≤ a.toNat ∧ a.toNat ≤ 0x0D) ∨ a = 0x20
    · have hrune : isSpaceRune a.toNat = true := by
        rw [isSpaceRune_iff]
        rw [heq] at hs
        exact hs.imp_right .inl
      rw [blank_ascii hs, hrune, Bool.true_and]
    · have hrune : isSpaceRune a.toNat = false := by
        rw [Bool.eq_false_iff, ne_eq, isSpaceRune_iff]
        rw [heq, show UInt8.toNat 0x20 = 0x20 from rfl] at hs
        omega
      rw [blank_cons_false hs (by rintro rfl; exact absurd ha (by decide)) ?_, hrune, Bool.false_and]
      refine ⟨?_, ?_, ?_⟩ <;> rintro rfl <;> exact absurd ha (by decide)
  | @two a b ha hb =>
    simp only [List.cons_append, List.nil_append, Quote.runeValue]
    by_cases hlat : a = 0xC2
    · subst hlat
      rw [blank_latin]
      refine hside ?_
      rw [isSpaceRune_iff, heq b, heq b, show UInt8.toNat 0xC2 = 0xC2 from rfl,
        show UInt8.toNat 0x85 = 0x85 from rfl, show UInt8.toNat 0xA0 = 0xA0 from rfl]
      omega
    · have hrune : isSpaceRune (a.toNat % 32 * 64 + b.toNat % 64) = false := by
        rw [Bool.eq_false_iff, ne_eq, isSpaceRune_iff]
        rw [heq, show UInt8.toNat 0xC2 = 0xC2 from rfl] at hlat
        omega
      rw [blank_cons_false ?_ hlat ?_, hrune, Bool.false_and]
      · rintro (h | rfl)
        · omega
        · exact absurd ha.1 (by decide)
      · refine ⟨?_, ?_, ?_⟩ <;> rintro rfl <;> exact absurd ha.2 (by decide)
  | @three a b c ha hb hab hc =>
    simp only [List.cons_append, List.nil_append, Quote.runeValue]
    rw [blank_wide ha.1]
    refine hside ?_
    simp only [heq a, heq b, heq c]
    exact wide_space_iff ha hb hab hc
  | @four a b c d ha hb hab hc hd =>
    simp only [List.cons_append, List.nil_append]
    have hrune : isSpaceRune (Quote.runeValue [a, b, c, d]) = false := by
      rw [Bool.eq_false_iff, ne_eq, isSpaceRune_iff, Quote.runeValue]
      omega
    rw [blank_cons_false ?_ ?_ ?_, hrune, Bool.false_and]
    · rintro (h | rfl)
      · omega
      · exact absurd ha.1 (by decide)
    · rintro rfl
      exact absurd ha.1 (by decide)
    · refine ⟨?_, ?_, ?_⟩ <;> rintro rfl <;> exact absurd ha.1 (by decide)

/-- A text that is not empty begins with a character, and a text follows. -/
theorem takeRune_of_run {l : Bytes} {q : Utf8.Pos} (hl : l ≠ []) (h : q.run l = some .start) :
    ∃ enc rest, Quote.takeRune q l = some (enc, rest) ∧ Text rest := by
  induction l generalizing q with
  | nil => exact absurd rfl hl
  | cons b bs ih =>
    cases hq : q.step b with
    | none => rw [Utf8.Pos.run, hq] at h; cases h
    | some q' =>
      rw [Utf8.run_cons bs hq] at h
      by_cases hstart : q' = .start
      · subst hstart
        exact ⟨[b], bs, by rw [Quote.takeRune, hq], h⟩
      · have hbs : bs ≠ [] := by
          rintro rfl
          exact hstart (Option.some.inj h)
        obtain ⟨enc, rest, hr, hrest⟩ := ih hbs h
        refine ⟨b :: enc, rest, ?_, hrest⟩
        rw [Quote.takeRune, hq]
        cases q' <;> first | exact absurd rfl hstart | simp [hr]

/-- A character is a text. -/
theorem run_of_takeRune {l enc rest : Bytes} {q : Utf8.Pos} (h : Quote.takeRune q l = some (enc, rest)) :
    q.run enc = some .start := by
  induction l generalizing q enc with
  | nil => cases h
  | cons b bs ih =>
    rw [Quote.takeRune] at h
    split at h
    · cases h
    · rename_i hq
      cases h
      rw [Utf8.run_cons [] hq]
      rfl
    · rename_i q' hne hq
      obtain ⟨⟨e, rest'⟩, he, heq⟩ := Option.map_eq_some_iff.1 h
      cases heq
      rw [Utf8.run_cons e hq]
      exact ih he

theorem exists_encoded {s : Bytes} (hne : s ≠ []) (h : Text s) :
    ∃ enc rest, s = enc ++ rest ∧ Quote.Encoded enc ∧ Text enc ∧ Text rest ∧ rest.length < s.length := by
  obtain ⟨enc, rest, hr, hrest⟩ := takeRune_of_run hne h
  have henc := Quote.encoded_of_takeRune hr
  have happ := (Quote.takeRune_append hr).1
  refine ⟨enc, rest, happ, henc, run_of_takeRune hr, hrest, ?_⟩
  have hpos : 0 < enc.length := by cases henc <;> simp
  rw [happ, List.length_append]
  omega

/-- **A text is not blank where it has a visible character.** -/
theorem blank_eq_false_iff {s : Bytes} (h : Text s) : blank s = false ↔ HasVisible s := by
  constructor
  · intro hblank
    induction hn : s.length using Nat.strong_induction_on generalizing s with
    | _ n ih =>
      have hne : s ≠ [] := by
        rintro rfl
        cases hblank
      obtain ⟨enc, rest, rfl, henc, htext, hrest, hlt⟩ := exists_encoded hne h
      rw [blank_encoded henc] at hblank
      by_cases hs : isSpaceRune (Quote.runeValue enc) = true
      · rw [hs, Bool.true_and] at hblank
        obtain ⟨before, enc', after, rfl, hbefore, henc', hvis⟩ := ih rest.length (by omega) hrest hblank rfl
        exact ⟨enc ++ before, enc', after, by rw [List.append_assoc],
          Utf8.run_append_start htext hbefore, henc', hvis⟩
      · exact ⟨[], enc, rest, rfl, rfl, henc, by simpa using hs⟩
  · rintro ⟨before, enc, after, rfl, hbefore, henc, hvis⟩
    clear h
    induction hn : before.length using Nat.strong_induction_on generalizing before with
    | _ n ih =>
      by_cases hne : before = []
      · subst hne
        rw [List.nil_append, blank_encoded henc, hvis, Bool.false_and]
      · obtain ⟨enc', rest, rfl, henc', -, hrest, hlt⟩ := exists_encoded hne hbefore
        rw [List.append_assoc, blank_encoded henc', ih rest.length (by omega) rest hrest rfl, Bool.and_false]

/-- **`ParsePreimagePublicPayload` accepts its grammar, and nothing else.** -/
theorem parse_iff_grammar (raw : Bytes) (v : ValidatedPreimagePayload) :
    parsePreimagePublicPayload raw = .ok v ↔
      raw.length ≤ maxPreimagePayloadBytes ∧ Utf8.validString raw = true ∧
      ∃ ref dig z, PublicObject ref dig raw ∧ HasVisible ref ∧ Decimal dig z ∧
        v.witnessRef = ref ∧ v.digest = setBigInt z ∧
        v.canonicalJSON = marshalPublic ref (Bytes.decimal (setBigInt z).val) ∧
        (marshalPublic ref (Bytes.decimal (setBigInt z).val)).length ≤ maxPreimagePayloadBytes := by
  constructor
  · intro h
    have htext := (accepted_of_parse h).1
    unfold parsePreimagePublicPayload at h
    split_ifs at h with hlen hvalid
    split at h
    · cases h
    rename_i d hopen
    split at h
    · cases h
    rename_i m d' hmem
    split at h
    · cases h
    rename_i rest hclose
    split_ifs at h with htrail
    split at h
    · cases h
    · cases h
    rename_i ref dig hr hdg
    split_ifs at h with hblank
    split at h
    · cases h
    rename_i x hx
    dsimp only at h
    split_ifs at h with hclen
    cases h
    obtain ⟨mr, md⟩ := m
    subst hr hdg
    obtain ⟨z, hz, rfl⟩ := parseDigest_eq_some.1 hx
    exact ⟨Nat.not_lt.1 hlen, by simpa using hvalid, ref, dig, z,
      publicObject_of_readMembers hopen hmem hclose (not_not.1 htrail),
      (blank_eq_false_iff htext).1 (by simpa using hblank), hz, rfl, rfl, rfl, Nat.not_lt.1 hclen⟩
  · rintro ⟨hlen, hvalid, ref, dig, z, hobj, hvis, hz, hv1, hv2, hv3, hclen⟩
    obtain ⟨d, ws, ws', hopen, hws, hws', hmem⟩ := readMembers_of_publicObject hobj
    have hraw : Text raw := Utf8.validString_iff.1 hvalid
    have href : Text ref := Text.of_readMembers 3 (hraw.of_openObject hopen) (by simp) hmem ref rfl
    have hclose : Decoder.closeObject ⟨ws ++ 0x7D :: ws', .objectComma⟩ = some ws' := by
      rw [Decoder.closeObject]
      simp only [skipSpace_append hws (show isSpace 0x7D = false by decide), if_true]
    have hdigest : parseDigest dig = some (setBigInt z) := parseDigest_eq_some.2 ⟨z, hz, rfl⟩
    have hblank : blank ref = false := (blank_eq_false_iff href).2 hvis
    obtain rfl : v = ⟨ref, setBigInt z, marshalPublic ref (Bytes.decimal (setBigInt z).val)⟩ := by
      obtain ⟨vr, vd, vc⟩ := v
      simp only at hv1 hv2 hv3
      rw [hv1, hv2, hv3]
    rw [parsePreimagePublicPayload, if_neg (by omega)]
    simp only [hvalid, hopen, hmem, hclose, skipSpace_eq_nil.2 hws', hblank, hdigest]
    simp [Nat.not_lt.2 hclen]

end Zk

end ZkRuntime
