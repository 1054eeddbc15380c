import ZkRuntime.Common.JsonString
/-!
# The JSON token stream

The part of a streaming decoder that reads one object: the scanner that
finds the end of a value, and the tokens of an object with their state
machine. Every function takes the text still unread and returns what is
left of it.
-/

namespace ZkRuntime

namespace Json

/-- The four bytes JSON counts as white space. -/
def isSpace (b : UInt8) : Bool := b = 0x20 || b = 0x09 || b = 0x0D || b = 0x0A

/-- The text from its first byte that is not white space. -/
def skipSpace (bs : Bytes) : Bytes := bs.dropWhile isSpace

/-! ## Values -/

/-- One digit or more. -/
def scanDigits : Bytes → Option Bytes
  | b :: bs => if Bytes.isDigit b then some (bs.dropWhile Bytes.isDigit) else none
  | [] => none

/-- The integer part of a number: `0`, or digits that do not begin with one. -/
def scanInteger : Bytes → Option Bytes
  | b :: bs =>
    if b = 0x30 then some bs
    else if Bytes.isDigit b then some (bs.dropWhile Bytes.isDigit)
    else none
  | [] => none

/-- A fraction, if there is one. -/
def scanFraction : Bytes → Option Bytes
  | b :: bs => if b = 0x2E then scanDigits bs else some (b :: bs)
  | [] => some []

/-- An exponent, if there is one. -/
def scanExponent : Bytes → Option Bytes
  | b :: bs =>
    if b = 0x65 ∨ b = 0x45 then
      match bs with
      | s :: bs' => if s = 0x2B ∨ s = 0x2D then scanDigits bs' else scanDigits (s :: bs')
      | [] => none
    else some (b :: bs)
  | [] => some []

/-- A number. -/
def scanNumber (bs : Bytes) : Option Bytes :=
  let unsigned := match bs with
    | b :: bs' => if b = 0x2D then bs' else b :: bs'
    | [] => []
  (scanInteger unsigned).bind fun bs => (scanFraction bs).bind scanExponent

/-- A fixed word. -/
def scanWord (w bs : Bytes) : Option Bytes := if w.isPrefixOf bs then some (bs.drop w.length) else none

mutual

/-- The text behind the value that begins here. The fuel bounds the nesting. -/
def scanValue : ℕ → Bytes → Option Bytes
  | 0, _ => none
  | n + 1, bs =>
    match skipSpace bs with
    | [] => none
    | c :: rest =>
      if c = 0x22 then (lexBody rest).map fun p => p.2
      else if c = 0x7B then
        match skipSpace rest with
        | d :: rest' => if d = 0x7D then some rest' else scanMembers n (d :: rest')
        | [] => none
      else if c = 0x5B then
        match skipSpace rest with
        | d :: rest' => if d = 0x5D then some rest' else scanElements n (d :: rest')
        | [] => none
      else if c = 0x74 then scanWord (ascii "true") (c :: rest)
      else if c = 0x66 then scanWord (ascii "false") (c :: rest)
      else if c = 0x6E then scanWord (ascii "null") (c :: rest)
      else scanNumber (c :: rest)

/-- The members of an object, to its closing brace. -/
def scanMembers : ℕ → Bytes → Option Bytes
  | 0, _ => none
  | n + 1, bs =>
    match skipSpace bs with
    | q :: rest =>
      if q = 0x22 then
        (lexBody rest).bind fun p =>
          match skipSpace p.2 with
          | c :: rest' =>
            if c = 0x3A then
              (scanValue n rest').bind fun rest'' =>
                match skipSpace rest'' with
                | d :: rest''' =>
                  if d = 0x7D then some rest'''
                  else if d = 0x2C then scanMembers n rest'''
                  else none
                | [] => none
            else none
          | [] => none
      else none
    | [] => none

/-- The elements of an array, to its closing bracket. -/
def scanElements : ℕ → Bytes → Option Bytes
  | 0, _ => none
  | n + 1, bs =>
    (scanValue n bs).bind fun rest =>
      match skipSpace rest with
      | d :: rest' =>
        if d = 0x5D then some rest'
        else if d = 0x2C then scanElements n rest'
        else none
      | [] => none

end

/-- `Decoder.readValue`: the bytes of the next value, without the white
space before it, and the text behind it. -/
def readValue (bs : Bytes) : Option (Bytes × Bytes) :=
  (scanValue (bs.length + 1) bs).map fun rest =>
    ((skipSpace bs).take ((skipSpace bs).length - rest.length), rest)

/-! ## The tokens of an object -/

/-- Where the stream stands: what the decoder will accept next. -/
inductive TokenState where
  /-- Behind the opening brace. -/
  | objectStart
  /-- Behind a key. -/
  | objectColon
  /-- Behind a member's value. -/
  | objectComma
  deriving DecidableEq, Repr

/-- A decoder inside an object. -/
structure Decoder where
  input : Bytes
  tokenState : TokenState

/-- The first `Token`, where the root is an object. -/
def openObject (raw : Bytes) : Option Decoder :=
  match skipSpace raw with
  | c :: rest => if c = 0x7B then some ⟨rest, .objectStart⟩ else none
  | [] => none

namespace Decoder

/-- `More`: another token is to come before a closing one. -/
def more (d : Decoder) : Bool :=
  match skipSpace d.input with
  | c :: _ => c != 0x5D && c != 0x7D
  | [] => false

/-- A string token where a key is allowed. -/
def stringToken (bs : Bytes) : Option (Bytes × Decoder) :=
  match skipSpace bs with
  | c :: rest =>
    if c = 0x22 then (lexBody rest).map fun p => (decode p.1, ⟨p.2, .objectColon⟩) else none
  | [] => none

/-- `Token`, inside an object and not at its end: a key, after the comma
that separates it from the member before it. Whatever else stands there is
an error. -/
def keyToken (d : Decoder) : Option (Bytes × Decoder) :=
  match d.tokenState with
  | .objectStart => stringToken d.input
  | .objectComma =>
    match skipSpace d.input with
    | c :: rest => if c = 0x2C then stringToken rest else none
    | [] => none
  | .objectColon => none

/-- `Decode` into a raw message, behind a key: the colon, then any value. -/
def decodeRaw (d : Decoder) : Option (Bytes × Decoder) :=
  match d.tokenState, skipSpace d.input with
  | .objectColon, c :: rest =>
    if c = 0x3A then (readValue rest).map fun p => (p.1, ⟨p.2, .objectComma⟩) else none
  | _, _ => none

/-- `Token`, at the end of an object: the closing brace. -/
def closeObject (d : Decoder) : Option Bytes :=
  match d.tokenState, skipSpace d.input with
  | .objectColon, _ => none
  | _, c :: rest => if c = 0x7D then some rest else none
  | _, [] => none

end Decoder

/-- `json.Unmarshal` of a string literal. -/
def unquote (literal : Bytes) : Option Bytes :=
  match literal with
  | c :: body =>
    if c = 0x22 then
      match lexBody body with
      | some (ps, []) => some (decode ps)
      | _ => none
    else none
  | [] => none

end Json

end ZkRuntime
