import ZkRuntime.Common.JsonValue
/-!
# JSON texts

The writer and the reader of a dynamically typed language. The writer
escapes everything outside printable ASCII, so what it writes is ASCII; it
lays a value out on one line or indented, by a `Layout`. It refuses an
integer of too many digits and a number that is not finite. The reader
keeps integers apart from floating point numbers, joins escaped surrogate
pairs, and refuses a key used twice in one object.
-/

namespace ZkRuntime

namespace PyJson

/-! ### Characters -/

/-- Is the character a decimal digit? -/
def isDigit (c : ℕ) : Bool := 0x30 ≤ c && c ≤ 0x39

/-- Is the character white space between tokens? -/
def isBlank (c : ℕ) : Bool := c = 0x20 || c = 0x09 || c = 0x0A || c = 0x0D

/-- What follows the white space a text starts with. -/
def skipBlank (t : Text) : Text := t.dropWhile isBlank

/-- A hexadecimal digit, in lower case. -/
def hexChar (n : ℕ) : ℕ := if n < 10 then 0x30 + n else 0x57 + n

/-- The value of a hexadecimal digit of either case. -/
def hexValue (c : ℕ) : Option ℕ :=
  if 0x30 ≤ c ∧ c ≤ 0x39 then some (c - 0x30)
  else if 0x61 ≤ c ∧ c ≤ 0x66 then some (c - 0x57)
  else if 0x41 ≤ c ∧ c ≤ 0x46 then some (c - 0x37)
  else none

/-- The code unit four hexadecimal digits name. -/
def hexUnit (a b c d : ℕ) : Option ℕ :=
  match hexValue a, hexValue b, hexValue c, hexValue d with
  | some w, some x, some y, some z => some (((w * 16 + x) * 16 + y) * 16 + z)
  | _, _, _, _ => none

/-! ### Writing -/

/-- `\uXXXX`, of a code unit. -/
def unitEscape (u : ℕ) : Text :=
  [0x5C, 0x75, hexChar (u / 4096), hexChar (u / 256 % 16), hexChar (u / 16 % 16), hexChar (u % 16)]

/-- One character of a string literal. -/
def escapeChar (c : ℕ) : Text :=
  if c = 0x22 then [0x5C, 0x22]
  else if c = 0x5C then [0x5C, 0x5C]
  else if c = 0x0A then [0x5C, 0x6E]
  else if c = 0x0D then [0x5C, 0x72]
  else if c = 0x09 then [0x5C, 0x74]
  else if c = 0x0C then [0x5C, 0x66]
  else if c = 0x08 then [0x5C, 0x62]
  else if 0x20 ≤ c ∧ c ≤ 0x7E then [c]
  else if c < 0x10000 then unitEscape c
  else unitEscape (0xD800 + (c - 0x10000) / 0x400) ++ unitEscape (0xDC00 + (c - 0x10000) % 0x400)

/-- The inside of a string literal. -/
def escape : Text → Text
  | [] => []
  | c :: s => escapeChar c ++ escape s

/-- A string literal. -/
def quoted (s : Text) : Text := 0x22 :: (escape s ++ [0x22])

/-- The decimal digits of a number. -/
def digits (n : ℕ) : Text := (Nat.toDigits 10 n).map Char.toNat

/-- The value of decimal digits. -/
def digitsValue (ds : Text) : ℕ := ds.foldl (fun n c => 10 * n + (c - 0x30)) 0

/-- The most digits an integer is read or written with. -/
def maxDigits : ℕ := 4300

/-- An integer, where it has not too many digits. -/
def intText (n : ℤ) : Option Text :=
  if (digits n.natAbs).length ≤ maxDigits then
    some (if n < 0 then 0x2D :: digits n.natAbs else digits n.natAbs)
  else none

/-- **Where white space stands**: a text behind every opening and before
every closing bracket, and one behind every comma, each by the depth. -/
structure Layout where
  gap : ℕ → Text
  sep : ℕ → Text
  /-- It is white space. -/
  blank_gap : ∀ d, ∀ c ∈ gap d, isBlank c = true
  blank_sep : ∀ d, ∀ c ∈ sep d, isBlank c = true

/-- All on one line. -/
def oneLine : Layout where
  gap _ := []
  sep _ := [0x20]
  blank_gap := by simp
  blank_sep := by simp [isBlank]

/-- A line for each item and member, two columns further in with each
depth. -/
def indented : Layout where
  gap d := 0x0A :: List.replicate (2 * d) 0x20
  sep d := 0x0A :: List.replicate (2 * d) 0x20
  blank_gap := by
    intro d c hc
    rcases List.mem_cons.1 hc with rfl | hc
    · rfl
    · rw [List.eq_of_mem_replicate hc]; rfl
  blank_sep := by
    intro d c hc
    rcases List.mem_cons.1 hc with rfl | hc
    · rfl
    · rw [List.eq_of_mem_replicate hc]; rfl

/-- An integer part: a zero, or digits of which the first is none. -/
def Whole (n : Text) : Prop := n = [0x30] ∨ ∃ c ds, n = c :: ds ∧ c ≠ 0x30 ∧ ∀ x ∈ n, isDigit x = true

/-- A numeral with a fraction or an exponent, or both. -/
def FloatToken (t : Text) : Prop :=
  ∃ s n f e, t = s ++ n ++ f ++ e ∧ (s = [] ∨ s = [0x2D]) ∧
    Whole n ∧
    (f = [] ∨ ∃ ds, f = 0x2E :: ds ∧ ds ≠ [] ∧ ∀ x ∈ ds, isDigit x = true) ∧
    (e = [] ∨ ∃ m g ds, e = m :: (g ++ ds) ∧ (m = 0x65 ∨ m = 0x45) ∧ (g = [] ∨ g = [0x2B] ∨ g = [0x2D]) ∧
      ds ≠ [] ∧ ∀ x ∈ ds, isDigit x = true) ∧
    (f ≠ [] ∨ e ≠ [])

/-- **The floating point numbers of a language**: the numeral a finite one
is written as, and the number a numeral stands for. A number written and
read again is the same number. -/
class Floats (F : Type) where
  repr : F → Option Text
  read : Text → F
  floatToken_of_repr {x : F} {t : Text} : repr x = some t → FloatToken t
  read_repr {x : F} {t : Text} : repr x = some t → read t = x

variable {F : Type} [Floats F]

mutual

/-- **The text of a value**, laid out from a depth on. -/
def print (L : Layout) : ℕ → Value F → Option Text
  | _, .null => some (text "null")
  | _, .bool b => some (text (if b then "true" else "false"))
  | _, .int n => intText n
  | _, .float x => Floats.repr x
  | _, .str s => some (quoted s)
  | _, .arr [] => some (text "[]")
  | d, .arr (v :: vs) => do
    let head ← print L (d + 1) v
    let tail ← printItems L (d + 1) vs
    some (0x5B :: (L.gap (d + 1) ++ head ++ tail ++ L.gap d ++ [0x5D]))
  | _, .obj [] => some [0x7B, 0x7D]
  | d, .obj ((k, v) :: ms) => do
    let head ← print L (d + 1) v
    let tail ← printMembers L (d + 1) ms
    some (0x7B :: (L.gap (d + 1) ++ quoted k ++ [0x3A, 0x20] ++ head ++ tail ++ L.gap d ++ [0x7D]))
termination_by structural _ v => v

/-- The items of an array behind its first one. -/
def printItems (L : Layout) : ℕ → List (Value F) → Option Text
  | _, [] => some []
  | d, v :: vs => do
    let head ← print L d v
    let tail ← printItems L d vs
    some (0x2C :: (L.sep d ++ head ++ tail))
termination_by structural _ vs => vs

/-- The members of an object behind its first one. -/
def printMembers (L : Layout) : ℕ → List (Text × Value F) → Option Text
  | _, [] => some []
  | d, (k, v) :: ms => do
    let head ← print L d v
    let tail ← printMembers L d ms
    some (0x2C :: (L.sep d ++ quoted k ++ [0x3A, 0x20] ++ head ++ tail))
termination_by structural _ ms => ms

end

/-- `json.dumps`: the text of a value on one line. -/
def dumps (v : Value F) : Option Text := print oneLine 0 v

/-! ### Reading -/

/-- The character a two-character escape names. -/
def escapedChar (e : ℕ) : Option ℕ :=
  if e = 0x22 ∨ e = 0x5C ∨ e = 0x2F then some e
  else if e = 0x62 then some 0x08
  else if e = 0x66 then some 0x0C
  else if e = 0x6E then some 0x0A
  else if e = 0x72 then some 0x0D
  else if e = 0x74 then some 0x09
  else none

/-- A second half escaped right here, and the text behind it. -/
def readLow : Text → Option (ℕ × Text)
  | 0x5C :: 0x75 :: a :: b :: c :: d :: r =>
    match hexUnit a b c d with
    | some u => if isLowUnit u then some (u, r) else none
    | none => none
  | _ => none

/-- **A string literal**, from behind its opening quote: the string, and
the text behind the closing quote. -/
def readString : ℕ → Text → Option (Text × Text)
  | 0, _ => none
  | _ + 1, [] => none
  | n + 1, c :: rest =>
    if c = 0x22 then some ([], rest)
    else if c = 0x5C then
      match rest with
      | 0x75 :: w :: x :: y :: z :: r =>
        match hexUnit w x y z with
        | none => none
        | some u =>
          -- An escaped second half is joined to an escaped first half only.
          match (if isHighUnit u then readLow r else none) with
          | some p => (readString n p.2).map fun q =>
              ((0x10000 + (u - 0xD800) * 0x400 + (p.1 - 0xDC00)) :: q.1, q.2)
          | none => (readString n r).map fun q => (u :: q.1, q.2)
      | e :: r =>
        match escapedChar e with
        | some b => (readString n r).map fun q => (b :: q.1, q.2)
        | none => none
      | [] => none
    else if c < 0x20 then none
    else (readString n rest).map fun q => (c :: q.1, q.2)

/-- The integer part of a numeral, without its sign. -/
def readNat : Text → Option (Text × Text)
  | [] => none
  | c :: r =>
    if c = 0x30 then some ([0x30], r)
    else if isDigit c then some (c :: r.takeWhile isDigit, r.dropWhile isDigit)
    else none

/-- The fraction of a numeral, if it has one. -/
def readFraction : Text → Text × Text
  | 0x2E :: d :: r =>
    if isDigit d then (0x2E :: d :: r.takeWhile isDigit, r.dropWhile isDigit) else ([], 0x2E :: d :: r)
  | r => ([], r)

/-- Its exponent behind the sign. -/
def readPower (m : ℕ) (g : Text) : Text → Option (Text × Text)
  | d :: r => if isDigit d then some (m :: (g ++ d :: r.takeWhile isDigit), r.dropWhile isDigit) else none
  | [] => none

/-- The exponent of a numeral, if it has one. -/
def readExponent : Text → Text × Text
  | [] => ([], [])
  | m :: r =>
    if m = 0x65 ∨ m = 0x45 then
      match r with
      | 0x2B :: r' => (readPower m [0x2B] r').getD ([], m :: r)
      | 0x2D :: r' => (readPower m [0x2D] r').getD ([], m :: r)
      | r' => (readPower m [] r').getD ([], m :: r)
    else ([], m :: r)

/-- A numeral behind its sign: an integer, unless it has a fraction or an
exponent. -/
def readUnsigned (negative : Bool) (t : Text) : Option (Value F × Text) :=
  match readNat t with
  | none => none
  | some (n, r) =>
    let f := readFraction r
    let e := readExponent f.2
    if f.1 = [] ∧ e.1 = [] then
      if n.length ≤ maxDigits then
        some (.int (if negative then -(digitsValue n : ℤ) else digitsValue n), r)
      else none
    else some (.float (Floats.read ((if negative then [0x2D] else []) ++ n ++ f.1 ++ e.1)), e.2)

/-- A number. -/
def readNumber : Text → Option (Value F × Text)
  | 0x2D :: r => readUnsigned true r
  | r => readUnsigned false r

/-- A word spelt out. -/
def readWord (w : Text) (v : Value F) (t : Text) : Option (Value F × Text) :=
  if w.isPrefixOf t then some (v, t.drop w.length) else none

/-- The dictionary of a list of pairs, which names no key twice. -/
def pairs : List (Text × Value F) → List (Text × Value F) → Option (List (Text × Value F))
  | acc, [] => some acc
  | acc, (k, v) :: ms => if (lookup k acc).isSome then none else pairs (insert k v acc) ms

mutual

/-- **A value**, from its first character, and the text behind it. -/
def readValue : ℕ → Text → Option (Value F × Text)
  | 0, _ => none
  | _ + 1, [] => none
  | n + 1, c :: rest =>
    if c = 0x22 then (readString n rest).map fun p => (.str p.1, p.2)
    else if c = 0x7B then
      match skipBlank rest with
      | 0x7D :: r => some (.obj [], r)
      | 0x22 :: r => (readMembers n r).bind fun p => (pairs [] p.1).map fun ms => (.obj ms, p.2)
      | _ => none
    else if c = 0x5B then
      match skipBlank rest with
      | 0x5D :: r => some (.arr [], r)
      | r => (readItems n r).map fun p => (.arr p.1, p.2)
    else if c = 0x6E then readWord (text "ull") .null rest
    else if c = 0x74 then readWord (text "rue") (.bool true) rest
    else if c = 0x66 then readWord (text "alse") (.bool false) rest
    else readNumber (c :: rest)

/-- The items of an array, from its first one, and the text behind the
closing bracket. -/
def readItems : ℕ → Text → Option (List (Value F) × Text)
  | 0, _ => none
  | n + 1, t =>
    match readValue n t with
    | none => none
    | some (v, r) =>
      match skipBlank r with
      | 0x5D :: r' => some ([v], r')
      | 0x2C :: r' => (readItems n (skipBlank r')).map fun p => (v :: p.1, p.2)
      | _ => none

/-- The members of an object, from behind the quote of its first key, and
the text behind the closing bracket. -/
def readMembers : ℕ → Text → Option (List (Text × Value F) × Text)
  | 0, _ => none
  | n + 1, t =>
    match readString n t with
    | none => none
    | some (k, r) =>
      match skipBlank r with
      | 0x3A :: r1 =>
        match readValue n (skipBlank r1) with
        | none => none
        | some (v, r2) =>
          match skipBlank r2 with
          | 0x7D :: r3 => some ([(k, v)], r3)
          | 0x2C :: r3 =>
            match skipBlank r3 with
            | 0x22 :: r4 => (readMembers n r4).map fun p => ((k, v) :: p.1, p.2)
            | _ => none
          | _ => none
      | _ => none

end

/-- `json.loads`: the value of a text, which holds nothing else. -/
def loads (t : Text) : Option (Value F) :=
  match readValue (2 * t.length + 1) (skipBlank t) with
  | some (v, r) => if skipBlank r = [] then some v else none
  | none => none

end PyJson

end ZkRuntime
