import ZkRuntime.Common.JsonString
/-!
# Quoted strings

The `%q` of a string: `strconv.Quote`. Which characters are printable is
the Unicode table of the language and a parameter here.
-/

namespace ZkRuntime

namespace Quote

/-- The first character of a text and what is behind it. -/
@[grind] def takeRune (q : Utf8.Pos) : Bytes → Option (Bytes × Bytes)
  | [] => none
  | b :: bs =>
    match q.step b with
    | none => none
    | some .start => some ([b], bs)
    | some q' => (takeRune q' bs).map fun p => (b :: p.1, p.2)

/-- The code point of an encoded character. -/
@[grind] def runeValue : Bytes → ℕ
  | [a] => a.toNat
  | [a, b] => a.toNat % 32 * 64 + b.toNat % 64
  | [a, b, c] => (a.toNat % 16 * 64 + b.toNat % 64) * 64 + c.toNat % 64
  | [a, b, c, d] => ((a.toNat % 8 * 64 + b.toNat % 64) * 64 + c.toNat % 64) * 64 + d.toNat % 64
  | _ => 0

/-- A number in `n` hexadecimal digits. -/
def hex : ℕ → ℕ → Bytes
  | 0, _ => []
  | n + 1, v => hex n (v / 16) ++ [Json.hexDigit (v % 16)]

/-- One character, `c` its code point and `enc` its encoding. -/
@[grind] def escapeRune (isPrint : ℕ → Bool) (c : ℕ) (enc : Bytes) : Bytes :=
  if c = 0x22 ∨ c = 0x5C then 0x5C :: enc
  else if isPrint c then enc
  else if c = 0x07 then ascii "\\a"
  else if c = 0x08 then ascii "\\b"
  else if c = 0x0C then ascii "\\f"
  else if c = 0x0A then ascii "\\n"
  else if c = 0x0D then ascii "\\r"
  else if c = 0x09 then ascii "\\t"
  else if c = 0x0B then ascii "\\v"
  else if c < 0x20 ∨ c = 0x7F then ascii "\\x" ++ hex 2 c
  else if c < 0x10000 then ascii "\\u" ++ hex 4 c
  else ascii "\\U" ++ hex 8 c

/-- The characters in turn; a byte that begins none is escaped on its own. -/
def escapeFrom (isPrint : ℕ → Bool) : ℕ → Bytes → Bytes
  | 0, _ => []
  | _ + 1, [] => []
  | n + 1, b :: bs =>
    match takeRune .start (b :: bs) with
    | some (enc, rest) => escapeRune isPrint (runeValue enc) enc ++ escapeFrom isPrint n rest
    | none => ascii "\\x" ++ hex 2 b.toNat ++ escapeFrom isPrint n bs

/-- `%q`. -/
def quoted (isPrint : ℕ → Bool) (s : Bytes) : Bytes :=
  0x22 :: (escapeFrom isPrint s.length s ++ [0x22])

end Quote

end ZkRuntime
