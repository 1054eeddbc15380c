import ZkRuntime.Zk.Helpers.Escapes
import Mathlib.Data.Int.ModEq
/-!
# The canonical form of a public payload

Parsing what `json.Marshal` wrote gives back what it was given
(`parse_marshalPublic`), and whatever is accepted has been read from a
text and so is written as one (`accepted_of_parse`). Together: the
canonical form is a fixed point of the parser, and two payloads share it
exactly when they name the same witness and the same field element.
-/

namespace ZkRuntime

namespace Zk

open Json

/-! ## Parsing a canonical payload -/

theorem skipSpace_cons {b : UInt8} (h : isSpace b = false) (bs : Bytes) :
    skipSpace (b :: bs) = b :: bs := by
  simp [skipSpace, h]

/-- A key written by the encoder is read back. -/
theorem stringToken_quote (key rest : Bytes) :
    Decoder.stringToken (quote key ++ rest) = some (key, ⟨rest, .objectColon⟩) := by
  obtain ⟨ps, hlex, hdec, -⟩ := lexBody_escape key rest
  have hq : quote key ++ rest = 0x22 :: (escape key ++ 0x22 :: rest) := by
    simp [quote, List.append_assoc]
  rw [hq, Decoder.stringToken, skipSpace_cons (by decide)]
  simp [hlex, hdec]

/-- And so is a value. -/
theorem readValue_quote (s rest : Bytes) : readValue (quote s ++ rest) = some (quote s, rest) := by
  obtain ⟨ps, hlex, -, -⟩ := lexBody_escape s rest
  have hq : quote s ++ rest = 0x22 :: (escape s ++ 0x22 :: rest) := by
    simp [quote, List.append_assoc]
  have hskip : skipSpace (quote s ++ rest) = quote s ++ rest := by
    rw [hq, skipSpace_cons (by decide)]
  have hscan : scanValue ((quote s ++ rest).length + 1) (quote s ++ rest) = some rest := by
    rw [scanValue, hskip, hq]
    simp [hlex]
  rw [readValue, hscan, hskip]
  simp [List.length_append]

theorem unquote_quote (s : Bytes) : unquote (quote s) = some s := by
  obtain ⟨ps, hlex, hdec, -⟩ := lexBody_escape s []
  simp [unquote, quote, hlex, hdec]

theorem validPublicStringEscapes_quote (s : Bytes) :
    validPublicStringEscapes (quote s) = some true := by
  obtain ⟨ps, hlex, -, hpair⟩ := lexBody_escape s []
  rw [← hpair]
  exact validPublicStringEscapes_of_lexBody hlex

/-- A member's value written by the encoder passes every check on it. -/
theorem readField_quote (s rest : Bytes) :
    readField ⟨0x3A :: (quote s ++ rest), .objectColon⟩ = .ok (s, ⟨rest, .objectComma⟩) := by
  have hraw : Decoder.decodeRaw ⟨0x3A :: (quote s ++ rest), .objectColon⟩ =
      some (quote s, ⟨rest, .objectComma⟩) := by
    rw [Decoder.decodeRaw]
    simp [skipSpace_cons, isSpace, readValue_quote]
  have hhead : (quote s).head? = some 0x22 := rfl
  simp only [readField, hraw, hhead, unquote_quote, validPublicStringEscapes_quote]
  simp

theorem setBigInt_val (x : FrElement) : setBigInt (x.val : ℤ) = x := by
  apply Fin.ext
  have h : (x.val : ℤ) % (frModulus : ℤ) = x.val :=
    Int.emod_eq_of_lt (by omega) (by exact_mod_cast x.isLt)
  simp [setBigInt, h]

theorem not_sign_of_isDigit {b : UInt8} (h : Bytes.isDigit b = true) : b ≠ 0x2B ∧ b ≠ 0x2D := by
  simp only [Bytes.isDigit, Bool.and_eq_true, decide_eq_true_eq] at h
  constructor <;> rintro rfl <;> revert h <;> decide

/-- The canonical digest is a digest, and the same one. -/
theorem parseDigest_decimal (x : FrElement) : parseDigest (Bytes.decimal x.val) = some x := by
  have hdig : ∀ b ∈ Bytes.decimal x.val, Bytes.isDigit b = true :=
    fun b hb => Bytes.isDigit_of_mem_decimal hb
  cases hds : Bytes.decimal x.val with
  | nil => exact absurd hds (Bytes.decimal_ne_nil _)
  | cons b bs =>
    obtain ⟨h1, h2⟩ := not_sign_of_isDigit (hdig b (by simp [hds]))
    have huns : unsignedDigits (b :: bs) = b :: bs := by simp [unsignedDigits, h1, h2]
    have hall : (b :: bs).all Bytes.isDigit = true := by
      rw [List.all_eq_true]
      intro c hc
      exact hdig c (hds ▸ hc)
    have hint : decimalInt (b :: bs) = (x.val : ℤ) := by
      rw [decimalInt, if_neg (by simpa using h2), huns, ← hds, Bytes.decimalValue_decimal]
    rw [parseDigest, huns, if_pos ⟨by simp, hall⟩, hint, setBigInt_val]

theorem run_quote {s : Bytes} (h : Utf8.Pos.start.run s = some .start) :
    Utf8.Pos.start.run (quote s) = some .start := by
  rw [quote, Utf8.run_cons _ (Utf8.start_step_ascii (by decide))]
  exact Utf8.run_append_start (by rw [run_escape, h]) (Utf8.run_of_ascii (by decide +kernel))

/-- The canonical payload of a text is a text. -/
theorem run_marshalPublic {ref : Bytes} (h : Utf8.Pos.start.run ref = some .start) (n : ℕ) :
    Utf8.Pos.start.run (marshalPublic ref (Bytes.decimal n)) = some .start := by
  have hkey : ∀ s, Utf8.Pos.start.run (ascii s) = some .start →
      Utf8.Pos.start.run (quote (ascii s)) = some .start := fun s => run_quote
  have hdec : Utf8.Pos.start.run (Bytes.decimal n) = some .start := by
    refine Utf8.run_of_ascii fun b hb => ?_
    have := Bytes.isDigit_of_mem_decimal hb
    simp only [Bytes.isDigit, Bool.and_eq_true, decide_eq_true_eq] at this
    omega
  unfold marshalPublic
  rw [Utf8.run_cons _ (Utf8.start_step_ascii (by decide))]
  refine Utf8.run_append_start (hkey _ (by decide +kernel)) ?_
  rw [Utf8.run_cons _ (Utf8.start_step_ascii (by decide))]
  refine Utf8.run_append_start (run_quote h) ?_
  rw [Utf8.run_cons _ (Utf8.start_step_ascii (by decide))]
  refine Utf8.run_append_start (hkey _ (by decide +kernel)) ?_
  rw [Utf8.run_cons _ (Utf8.start_step_ascii (by decide))]
  exact Utf8.run_append_start (run_quote hdec) (Utf8.run_of_ascii (by decide +kernel))

theorem more_cons {b : UInt8} (h : isSpace b = false) (bs : Bytes) (t : TokenState) :
    (⟨b :: bs, t⟩ : Decoder).more = (b != 0x5D && b != 0x7D) := by
  simp [Decoder.more, skipSpace_cons h]

theorem more_quote (s rest : Bytes) (t : TokenState) :
    (⟨quote s ++ rest, t⟩ : Decoder).more = true := by
  rw [quote, List.cons_append, more_cons (by decide)]
  decide

theorem keyToken_start (key rest : Bytes) :
    (⟨quote key ++ rest, .objectStart⟩ : Decoder).keyToken = some (key, ⟨rest, .objectColon⟩) := by
  simp only [Decoder.keyToken, stringToken_quote]

theorem keyToken_comma (key rest : Bytes) :
    (⟨0x2C :: (quote key ++ rest), .objectComma⟩ : Decoder).keyToken =
      some (key, ⟨rest, .objectColon⟩) := by
  simp only [Decoder.keyToken, skipSpace_cons (b := 0x2C) (by decide), stringToken_quote, if_true]

/-- The members the encoder wrote are read back, both of them and no more. -/
theorem readMembers_marshalPublic (ref dig : Bytes) :
    readMembers 3 ⟨quote (ascii "witness_ref") ++ 0x3A :: (quote ref ++
      0x2C :: (quote (ascii "digest") ++ 0x3A :: (quote dig ++ [0x7D]))), .objectStart⟩ {} =
      .ok (⟨some ref, some dig⟩, ⟨[0x7D], .objectComma⟩) := by
  have hne : ascii "digest" ≠ ascii "witness_ref" := by decide
  have hcomma : ∀ rest t, (⟨0x2C :: rest, t⟩ : Decoder).more = true := by
    intro rest t
    rw [more_cons (by decide)]
    decide
  have hbrace : (⟨[0x7D], .objectComma⟩ : Decoder).more = false := by decide
  simp only [readMembers, more_quote, keyToken_start, readField_quote, hcomma, keyToken_comma,
    hbrace, if_neg hne, Option.isSome_none, Bool.not_true, Bool.not_false, if_true,
    Bool.false_eq_true, if_false]

/-- **Parsing a canonical payload gives back what it was made from.** -/
theorem parse_marshalPublic {ref : Bytes} {x : FrElement} (htext : Utf8.Pos.start.run ref = some .start)
    (hblank : blank ref = false)
    (hlen : (marshalPublic ref (Bytes.decimal x.val)).length ≤ maxPreimagePayloadBytes) :
    parsePreimagePublicPayload (marshalPublic ref (Bytes.decimal x.val)) =
      .ok ⟨ref, x, marshalPublic ref (Bytes.decimal x.val)⟩ := by
  have hvalid : Utf8.validString (marshalPublic ref (Bytes.decimal x.val)) = true :=
    Utf8.validString_iff.2 (run_marshalPublic htext _)
  have hopen : openObject (marshalPublic ref (Bytes.decimal x.val)) =
      some ⟨quote (ascii "witness_ref") ++ 0x3A :: (quote ref ++ 0x2C :: (quote (ascii "digest") ++
        0x3A :: (quote (Bytes.decimal x.val) ++ [0x7D]))), .objectStart⟩ := by
    rw [openObject, marshalPublic, skipSpace_cons (by decide)]
    simp
  have hclose : Decoder.closeObject ⟨[0x7D], .objectComma⟩ = some [] := by decide
  have hskip : skipSpace [] = [] := rfl
  rw [parsePreimagePublicPayload, if_neg (by omega)]
  simp only [hvalid, hopen, readMembers_marshalPublic, hclose, hskip, hblank, parseDigest_decimal]
  simp [Nat.not_lt.2 hlen]

/-! ## What is accepted has been read from a text -/

/-- A text, read from between characters. -/
def Text (bs : Bytes) : Prop := Utf8.Pos.start.run bs = some .start

theorem isSpace_ascii {b : UInt8} (h : isSpace b = true) : b.toNat < 0x80 := by
  simp only [isSpace, Bool.or_eq_true, decide_eq_true_eq] at h
  rcases h with ((rfl | rfl) | rfl) | rfl <;> decide

theorem Text.tail {b : UInt8} {bs : Bytes} (hb : b.toNat < 0x80) (h : Text (b :: bs)) : Text bs :=
  (run_of_ascii_cons hb h).2

theorem Text.skipSpace {bs : Bytes} (h : Text bs) : Text (skipSpace bs) := by
  induction bs with
  | nil => exact h
  | cons b bs ih =>
    cases hb : isSpace b with
    | true =>
      have hdrop : Json.skipSpace (b :: bs) = Json.skipSpace bs := by simp [Json.skipSpace, hb]
      rw [hdrop]
      exact ih (h.tail (isSpace_ascii hb))
    | false => rw [skipSpace_cons hb]; exact h

theorem Text.of_openObject {raw : Bytes} {d : Decoder} (hraw : Text raw)
    (h : openObject raw = some d) : Text d.input := by
  have hskip := hraw.skipSpace
  unfold openObject at h
  split at h
  · rename_i c rest heq
    split_ifs at h with hc
    subst hc
    obtain rfl := Option.some.inj h
    exact (heq ▸ hskip).tail (by decide)
  · cases h

theorem Text.of_stringToken {bs key : Bytes} {d : Decoder} (hbs : Text bs)
    (h : Decoder.stringToken bs = some (key, d)) : Text d.input := by
  have hskip := hbs.skipSpace
  unfold Decoder.stringToken at h
  split at h
  · rename_i c rest heq
    split_ifs at h with hc
    subst hc
    obtain ⟨⟨ps, rest'⟩, hlex, hd⟩ := Option.map_eq_some_iff.1 h
    simp only [Prod.mk.injEq] at hd
    obtain ⟨-, rfl⟩ := hd
    exact ((lexed_of_lexBody rest hlex).textFrom ((heq ▸ hskip).tail (by decide))).2
  · cases h

theorem Text.of_keyToken {d d' : Decoder} {key : Bytes} (hd : Text d.input)
    (h : d.keyToken = some (key, d')) : Text d'.input := by
  have hskip := hd.skipSpace
  unfold Decoder.keyToken at h
  split at h
  · exact hd.of_stringToken h
  · split at h
    · rename_i c rest heq
      split_ifs at h with hc
      subst hc
      exact ((heq ▸ hskip).tail (by decide)).of_stringToken h
    · cases h
  · cases h

/-- A value that begins with a quote is the literal the lexer reads there. -/
theorem readValue_literal {bs value rest : Bytes} (h : readValue bs = some (value, rest))
    (hq : value.head? = some 0x22) : skipSpace bs = value ++ rest := by
  obtain ⟨rest', hscan, heq⟩ := Option.map_eq_some_iff.1 h
  simp only [Prod.mk.injEq] at heq
  obtain ⟨rfl, rfl⟩ := heq
  rw [scanValue] at hscan
  cases hs : skipSpace bs with
  | nil => rw [hs] at hscan; cases hscan
  | cons c cs =>
    rw [hs] at hscan hq
    have hc : c = 0x22 := by
      cases hk : (c :: cs).length - rest'.length with
      | zero => rw [hk] at hq; cases hq
      | succ k => rw [hk] at hq; exact Option.some.inj hq
    subst hc
    simp only [if_true] at hscan
    obtain ⟨⟨ps, rest''⟩, hlex, rfl⟩ := Option.map_eq_some_iff.1 hscan
    obtain ⟨t, rfl⟩ := (lexed_of_lexBody cs hlex).isSuffix
    have hk : (0x22 :: (t ++ rest'')).length - rest''.length = t.length + 1 := by
      simp [List.length_append]; omega
    simp only [hk, List.take_succ_cons, List.take_left', List.cons_append]

/-- **A member's value is a text**, and so is what is left behind it. -/
theorem Text.of_readField {d d' : Decoder} {s : Bytes} (hd : Text d.input)
    (h : readField d = .ok (s, d')) : Text s ∧ Text d'.input := by
  have hskip := hd.skipSpace
  unfold readField at h
  split at h
  · cases h
  rename_i value d'' hraw
  split at h
  · cases h
  rename_i hq
  split at h
  · cases h
  rename_i s' hun
  split_ifs at h with hesc
  simp only [Except.ok.injEq, Prod.mk.injEq] at h
  obtain ⟨rfl, rfl⟩ := h
  unfold Decoder.decodeRaw at hraw
  split at hraw
  · rename_i c rest hst heq
    split_ifs at hraw with hc
    subst hc
    obtain ⟨⟨value', rest'⟩, hval, hd''⟩ := Option.map_eq_some_iff.1 hraw
    simp only [Prod.mk.injEq] at hd''
    obtain ⟨rfl, rfl⟩ := hd''
    have hrest : Text rest := (heq ▸ hskip).tail (by decide)
    have happ := readValue_literal hval (by simpa using hq)
    have htext := happ ▸ hrest.skipSpace
    -- the literal the value is, with what follows it
    unfold unquote at hun
    split at hun
    · rename_i c body
      split_ifs at hun with hc
      subst hc
      split at hun
      · rename_i ps hlex
        obtain rfl := Option.some.inj hun
        have hbody : Text (body ++ rest') := Text.tail (b := 0x22) (by decide) htext
        have hl := ((lexed_of_lexBody body hlex).append rest').textFrom hbody
        exact ⟨run_decode hl.1, hl.2⟩
      · cases hun
    · cases hun
  · cases hraw

/-- So the witness reference read from a text is a text. -/
theorem Text.of_readMembers : ∀ (n : ℕ) {d d' : Decoder} {m m' : Members}, Text d.input →
    (∀ ref, m.witnessRef = some ref → Text ref) → readMembers n d m = .ok (m', d') →
    ∀ ref, m'.witnessRef = some ref → Text ref := by
  intro n
  induction n with
  | zero => intro d d' m m' _ _ h; cases h
  | succ n ih =>
    intro d d' m m' hd hm h
    rw [readMembers] at h
    split at h
    · simp only [Except.ok.injEq, Prod.mk.injEq] at h
      obtain ⟨rfl, -⟩ := h
      exact hm
    split at h
    · cases h
    rename_i key d₁ hkey
    have hd₁ := hd.of_keyToken hkey
    split at h
    · split at h
      · cases h
      split at h
      · cases h
      rename_i s d₂ hfield
      obtain ⟨hs, hd₂⟩ := hd₁.of_readField hfield
      refine ih hd₂ ?_ h
      intro ref href
      obtain rfl := Option.some.inj href
      exact hs
    · split at h
      · split at h
        · cases h
        split at h
        · cases h
        rename_i s d₂ hfield
        exact ih (m := { m with digest := some s }) (hd₁.of_readField hfield).2 hm h
      · cases h

/-! ## The canonical form -/

/-- The two strings the parser reads from a payload. -/
def publicFields (raw : Bytes) : Option (Bytes × Bytes) :=
  match openObject raw with
  | none => none
  | some d =>
    match readMembers 3 d {} with
    | .ok (⟨some ref, some dig⟩, _) => some (ref, dig)
    | _ => none

/-- The integer the digest of a payload writes, before its reduction. -/
def digestInteger (raw : Bytes) : Option ℤ := (publicFields raw).map fun f => decimalInt f.2

/-- **What acceptance says**: where every part of the result comes from. -/
theorem accepted_of_parse {raw : Bytes} {v : ValidatedPreimagePayload}
    (h : parsePreimagePublicPayload raw = .ok v) :
    Text v.witnessRef ∧ blank v.witnessRef = false ∧
      (∃ z, digestInteger raw = some z ∧ v.digest = setBigInt z) ∧
      v.canonicalJSON = marshalPublic v.witnessRef (Bytes.decimal v.digest.val) ∧
      v.canonicalJSON.length ≤ maxPreimagePayloadBytes := by
  unfold parsePreimagePublicPayload at h
  split_ifs at h with hlen hvalid
  have hraw : Text raw := Utf8.validString_iff.1 (by simpa using hvalid)
  split at h
  · cases h
  rename_i d hopen
  split at h
  · cases h
  rename_i m d' hmem
  split at h
  · cases h
  rename_i rest hclose
  split_ifs at h with htrail
  split at h
  · cases h
  · cases h
  rename_i ref dig hr hdg
  split_ifs at h with hblank
  split at h
  · cases h
  rename_i x hx
  simp only at h
  split_ifs at h with hclen
  obtain rfl := Except.ok.inj h
  have hz : digestInteger raw = some (decimalInt dig) := by
    obtain ⟨mr, md⟩ := m
    simp only at hr hdg
    subst hr hdg
    simp [digestInteger, publicFields, hopen, hmem]
  refine ⟨Text.of_readMembers 3 (hraw.of_openObject hopen) (by simp) hmem ref hr,
    by simpa using hblank, ⟨_, hz, ?_⟩, rfl, Nat.not_lt.1 hclen⟩
  unfold parseDigest at hx
  split_ifs at hx
  exact (Option.some.inj hx).symm

/-- **The canonical form is a fixed point of the parser.** -/
theorem parse_canonicalJSON {raw : Bytes} {v : ValidatedPreimagePayload}
    (h : parsePreimagePublicPayload raw = .ok v) :
    parsePreimagePublicPayload v.canonicalJSON = .ok v := by
  obtain ⟨htext, hblank, -, hcanon, hlen⟩ := accepted_of_parse h
  rw [hcanon] at hlen ⊢
  rw [parse_marshalPublic htext hblank hlen, ← hcanon]

/-- The canonical form determines the payload it is of. -/
theorem canonicalJSON_inj {raw₁ raw₂ : Bytes} {v₁ v₂ : ValidatedPreimagePayload}
    (h₁ : parsePreimagePublicPayload raw₁ = .ok v₁) (h₂ : parsePreimagePublicPayload raw₂ = .ok v₂) :
    v₁.canonicalJSON = v₂.canonicalJSON ↔ v₁.witnessRef = v₂.witnessRef ∧ v₁.digest = v₂.digest := by
  constructor
  · intro h
    have := (parse_canonicalJSON h₁).symm.trans (h ▸ parse_canonicalJSON h₂)
    obtain rfl := Except.ok.inj this
    exact ⟨rfl, rfl⟩
  · rintro ⟨hr, hd⟩
    rw [(accepted_of_parse h₁).2.2.2.1, (accepted_of_parse h₂).2.2.2.1, hr, hd]

/-- Two integers are one field element when they are congruent. -/
theorem setBigInt_eq_iff {y z : ℤ} : setBigInt y = setBigInt z ↔ y ≡ z [ZMOD frModulus] := by
  have hy : 0 ≤ y % (frModulus : ℤ) := Int.emod_nonneg _ (by decide)
  have hz : 0 ≤ z % (frModulus : ℤ) := Int.emod_nonneg _ (by decide)
  rw [Fin.ext_iff, Int.ModEq]
  simp only [setBigInt]
  omega

/-- **Canonicalization of public payloads.** The canonical form of an
accepted payload is accepted, with the same witness reference, digest and
canonical form; and two accepted payloads have one canonical form exactly
when their witness references are equal and the integers their digests
write are congruent modulo the order of the field. -/
theorem canonicalization (raw : Bytes) (v : ValidatedPreimagePayload)
    (h : parsePreimagePublicPayload raw = .ok v) :
    (∃ w, parsePreimagePublicPayload v.canonicalJSON = .ok w ∧ w.witnessRef = v.witnessRef ∧
      w.digest = v.digest ∧ w.canonicalJSON = v.canonicalJSON) ∧
    ∀ (raw' : Bytes) (v' : ValidatedPreimagePayload),
      parsePreimagePublicPayload raw' = .ok v' →
      ∃ z z', digestInteger raw = some z ∧ digestInteger raw' = some z' ∧
        (v.canonicalJSON = v'.canonicalJSON ↔
          v.witnessRef = v'.witnessRef ∧ z ≡ z' [ZMOD frModulus]) := by
  refine ⟨⟨v, parse_canonicalJSON h, rfl, rfl, rfl⟩, fun raw' v' h' => ?_⟩
  obtain ⟨-, -, ⟨z, hz, hd⟩, -, -⟩ := accepted_of_parse h
  obtain ⟨-, -, ⟨z', hz', hd'⟩, -, -⟩ := accepted_of_parse h'
  refine ⟨z, z', hz, hz', ?_⟩
  rw [canonicalJSON_inj h h', hd, hd', setBigInt_eq_iff]

/-- A legacy spelling: signed, padded, its members in the other order and
the reference escaped. -/
def legacySpelling : Bytes :=
  ascii " \x7b \"digest\" : \"+0042\", \"witness_ref\" : \"r\\u0065f<\" \x7d "

/-- Its canonical form. -/
def canonicalSpelling : Bytes :=
  ascii "\x7b\"witness_ref\":\"ref\\u003c\",\"digest\":\"42\"\x7d"

theorem parse_legacySpelling : parsePreimagePublicPayload legacySpelling =
    .ok ⟨ascii "ref<", ⟨42, by decide⟩, canonicalSpelling⟩ := by
  decide +kernel

/-- The canonical form parses to itself. -/
theorem parse_canonicalSpelling : parsePreimagePublicPayload canonicalSpelling =
    .ok ⟨ascii "ref<", ⟨42, by decide⟩, canonicalSpelling⟩ := by
  decide +kernel

theorem canonicalization_legacySpelling :
    (∃ w, parsePreimagePublicPayload canonicalSpelling = .ok w ∧ w.witnessRef = ascii "ref<" ∧
      w.digest = ⟨42, by decide⟩ ∧ w.canonicalJSON = canonicalSpelling) ∧
    ∃ z z', digestInteger legacySpelling = some z ∧ digestInteger canonicalSpelling = some z' ∧
      z ≡ z' [ZMOD frModulus] := by
  obtain ⟨h1, h2⟩ := canonicalization legacySpelling _ parse_legacySpelling
  obtain ⟨z, z', hz, hz', hiff⟩ := h2 canonicalSpelling _ parse_canonicalSpelling
  exact ⟨h1, z, z', hz, hz', (hiff.1 rfl).2⟩

end Zk

end ZkRuntime
