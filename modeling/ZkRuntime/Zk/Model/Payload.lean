import ZkRuntime.Common.JsonToken
import Mathlib.Data.Int.Notation
/-!
# The public payload of a preimage task

`internal/zk/preimage_payload.go`: the parser of the public JSON a client
submits, and the canonical form every later stage works with. The parser
drives a token stream by hand, so that it can refuse unknown and repeated
members, and checks the size of both the incoming text and the canonical
one.
-/

namespace ZkRuntime

namespace Zk

open Json

/-- `MaxPreimagePayloadBytes`. -/
def maxPreimagePayloadBytes : ℕ := 4 * 1024

/-- The order of the BN254 scalar field. -/
def frModulus : ℕ :=
  21888242871839275222246405745257275088548364400416034343698204186575808495617

/-- `fr.Element`, by its value in `[0, r)`. -/
abbrev FrElement := Fin frModulus

/-- `fr.Element.SetBigInt`: reduction into `[0, r)`. -/
def setBigInt (z : ℤ) : FrElement :=
  ⟨(z % frModulus).toNat, by
    have h1 : 0 ≤ z % (frModulus : ℤ) := Int.emod_nonneg _ (by decide)
    have h2 : z % (frModulus : ℤ) < frModulus := Int.emod_lt_of_pos _ (by decide)
    omega⟩

/-- The reasons `invalidPreimagePayload` is called with. -/
inductive PayloadError where
  | tooLarge
  | encoding
  | notObject
  | malformed
  | unknownField
  | duplicateField
  | notString
  | invalidString
  | trailing
  | missingWitnessRef
  | missingDigest
  | emptyWitnessRef
  | digestFormat
  | canonicalTooLarge
  deriving DecidableEq, Repr

/-- The fixed diagnostic a reason carries. No part of the input is in it. -/
def PayloadError.reason : PayloadError → String
  | .tooLarge => "payload too large"
  | .encoding => "invalid JSON encoding"
  | .notObject => "expected one JSON object"
  | .malformed => "malformed JSON"
  | .unknownField => "unknown public payload field"
  | .duplicateField => "duplicate public payload field"
  | .notString => "public payload fields must be strings"
  | .invalidString => "invalid public payload string"
  | .trailing => "trailing JSON data"
  | .missingWitnessRef => "missing witness_ref"
  | .missingDigest => "missing digest"
  | .emptyWitnessRef => "empty witness_ref"
  | .digestFormat => "invalid digest format"
  | .canonicalTooLarge => "canonical payload too large"

/-- `ValidatedPreimagePayload`. -/
structure ValidatedPreimagePayload where
  witnessRef : Bytes
  digest : FrElement
  canonicalJSON : Bytes
  deriving DecidableEq

/-! ## Unpaired surrogates -/

/-- `strconv.ParseUint(s, 16, 16)`, whose error is ignored. -/
def parseUint16 (s : Bytes) : ℕ :=
  match s with
  | [a, b, c, d] => (hex4 a b c d).getD 0
  | _ => 0

/-- `raw[lo:hi]`, or nothing where the bounds are out of range. -/
def slice (raw : Bytes) (lo hi : ℕ) : Option Bytes :=
  if hi ≤ raw.length then some ((raw.take hi).drop lo) else none

/-- The loop of `validPublicStringEscapes` from index `i`. Nothing is
returned where an index is out of range, and where the fuel runs out. -/
def validEscapesFrom (raw : Bytes) : ℕ → ℕ → Option Bool
  | 0, _ => none
  | n + 1, i =>
    if i < raw.length - 1 then
      match raw[i]? with
      | none => none
      | some c =>
        if c ≠ 0x5C then validEscapesFrom raw n (i + 1)
        else
          match raw[i + 1]? with
          | none => none
          | some e =>
            if e ≠ 0x75 then validEscapesFrom raw n (i + 2)
            else
              match slice raw (i + 2) (i + 6) with
              | none => none
              | some h =>
                let code := parseUint16 h
                -- the source has advanced its index to `i + 5`, the last hexadecimal digit
                if isHigh code then
                  if raw.length ≤ i + 12 then some false
                  else if raw[i + 6]? ≠ some 0x5C ∨ raw[i + 7]? ≠ some 0x75 then some false
                  else
                    match slice raw (i + 8) (i + 12) with
                    | none => none
                    | some l =>
                      let low := parseUint16 l
                      if low < 0xDC00 ∨ 0xDFFF < low then some false
                      else validEscapesFrom raw n (i + 12)
                else if isLow code then some false
                else validEscapesFrom raw n (i + 6)
    else some true

/-- `validPublicStringEscapes`: no `\u` escape of the literal is a
surrogate on its own. -/
def validPublicStringEscapes (raw : Bytes) : Option Bool := validEscapesFrom raw raw.length 1

/-! ## The fields -/

/-- The members read so far. The two bits of the source's `seen` are
whether each is there. -/
structure Members where
  witnessRef : Option Bytes := none
  digest : Option Bytes := none

/-- One member's value: a JSON string without unpaired surrogates. -/
def readField (d : Decoder) : Except PayloadError (Bytes × Decoder) :=
  match d.decodeRaw with
  | none => .error .malformed
  | some (value, d') =>
    if value.head? ≠ some 0x22 then .error .notString
    else
      match unquote value with
      | none => .error .invalidString
      | some s =>
        if validPublicStringEscapes value = some true then .ok (s, d') else .error .invalidString

/-- `for decoder.More()`. A third member repeats one of the two or is
unknown, so three rounds are as many as are ever taken. -/
def readMembers : ℕ → Decoder → Members → Except PayloadError (Members × Decoder)
  | 0, _, _ => .error .duplicateField
  | n + 1, d, m =>
    if !d.more then .ok (m, d)
    else
      match d.keyToken with
      | none => .error .malformed
      | some (key, d) =>
        if key = ascii "witness_ref" then
          if m.witnessRef.isSome then .error .duplicateField
          else
            match readField d with
            | .error e => .error e
            | .ok (s, d) => readMembers n d { m with witnessRef := some s }
        else if key = ascii "digest" then
          if m.digest.isSome then .error .duplicateField
          else
            match readField d with
            | .error e => .error e
            | .ok (s, d) => readMembers n d { m with digest := some s }
        else .error .unknownField

/-- `strings.TrimSpace(s) == ""`: every character is Unicode white space. -/
def blank : Bytes → Bool
  | [] => true
  | b₀ :: bs =>
    if (0x09 ≤ b₀.toNat ∧ b₀.toNat ≤ 0x0D) ∨ b₀ = 0x20 then blank bs
    else if b₀ = 0xC2 then
      -- U+0085, U+00A0
      match bs with
      | b₁ :: bs' => if b₁ = 0x85 ∨ b₁ = 0xA0 then blank bs' else false
      | [] => false
    else
      match bs with
      | b₁ :: b₂ :: bs' =>
        -- U+1680, U+2000 to U+200A, U+2028, U+2029, U+202F, U+205F, U+3000
        if (b₀ = 0xE1 ∧ b₁ = 0x9A ∧ b₂ = 0x80) ∨
            (b₀ = 0xE2 ∧ b₁ = 0x80 ∧ ((0x80 ≤ b₂.toNat ∧ b₂.toNat ≤ 0x8A) ∨ b₂ = 0xA8 ∨
              b₂ = 0xA9 ∨ b₂ = 0xAF)) ∨
            (b₀ = 0xE2 ∧ b₁ = 0x81 ∧ b₂ = 0x9F) ∨ (b₀ = 0xE3 ∧ b₁ = 0x80 ∧ b₂ = 0x80)
        then blank bs'
        else false
      | _ => false
termination_by structural bs => bs

/-- The digest without its sign. -/
def unsignedDigits (s : Bytes) : Bytes :=
  match s with
  | c :: ds => if c = 0x2B ∨ c = 0x2D then ds else c :: ds
  | [] => []

/-- `big.Int.SetString(s, 10)` on a string whose digits have been checked. -/
def decimalInt (s : Bytes) : ℤ :=
  if s.head? = some 0x2D then -(Bytes.decimalValue (unsignedDigits s) : ℤ)
  else Bytes.decimalValue (unsignedDigits s)

/-- The digest, in the formats earlier releases took: a sign, leading
zeros, and values outside the field are all accepted. -/
def parseDigest (s : Bytes) : Option FrElement :=
  if unsignedDigits s ≠ [] ∧ (unsignedDigits s).all Bytes.isDigit then some (setBigInt (decimalInt s))
  else none

/-- `json.Marshal` of the public payload. -/
def marshalPublic (witnessRef digest : Bytes) : Bytes :=
  0x7B :: (quote (ascii "witness_ref") ++ 0x3A :: (quote witnessRef ++
    0x2C :: (quote (ascii "digest") ++ 0x3A :: (quote digest ++ [0x7D]))))

/-- **`ParsePreimagePublicPayload`.** -/
def parsePreimagePublicPayload (raw : Bytes) : Except PayloadError ValidatedPreimagePayload :=
  if maxPreimagePayloadBytes < raw.length then .error .tooLarge
  else if !Utf8.validString raw then .error .encoding
  else
    match openObject raw with
    | none => .error .notObject
    | some d =>
      match readMembers 3 d {} with
      | .error e => .error e
      | .ok (m, d) =>
        match d.closeObject with
        | none => .error .malformed
        | some rest =>
          if skipSpace rest ≠ [] then .error .trailing
          else
            match m.witnessRef, m.digest with
            | none, _ => .error .missingWitnessRef
            | some _, none => .error .missingDigest
            | some ref, some dig =>
              if blank ref then .error .emptyWitnessRef
              else
                match parseDigest dig with
                | none => .error .digestFormat
                | some digest =>
                  let encoded := marshalPublic ref (Bytes.decimal digest.val)
                  if maxPreimagePayloadBytes < encoded.length then .error .canonicalTooLarge
                  else .ok ⟨ref, digest, encoded⟩

end Zk

end ZkRuntime
