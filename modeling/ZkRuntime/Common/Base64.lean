import ZkRuntime.Common.Bytes
/-!
# Base64

`EncodeToString` and `DecodeString` of `base64.StdEncoding`: the standard
alphabet, padded. Decoding ignores carriage returns and line feeds wherever
they stand and does not check the unused bits of the last character.
-/

namespace ZkRuntime

namespace Base64

/-- The six bits a character of the alphabet stands for. -/
def sextet (b : UInt8) : Option ℕ :=
  if 0x41 ≤ b.toNat ∧ b.toNat ≤ 0x5A then some (b.toNat - 0x41)
  else if 0x61 ≤ b.toNat ∧ b.toNat ≤ 0x7A then some (b.toNat - 0x47)
  else if 0x30 ≤ b.toNat ∧ b.toNat ≤ 0x39 then some (b.toNat + 4)
  else if b = 0x2B then some 62
  else if b = 0x2F then some 63
  else none

/-- Four characters at a time. Padding may only end the text. -/
def decodeQuanta : Bytes → Option Bytes
  | [] => some []
  | a :: b :: c :: d :: rest =>
    match sextet a, sextet b with
    | some w, some x =>
      if c = 0x3D then
        if d = 0x3D ∧ rest = [] then some [(w * 4 + x / 16).toUInt8] else none
      else
        match sextet c with
        | some y =>
          if d = 0x3D then
            if rest = [] then some [(w * 4 + x / 16).toUInt8, (x % 16 * 16 + y / 4).toUInt8]
            else none
          else
            match sextet d with
            | some z =>
              (decodeQuanta rest).map fun bs =>
                (w * 4 + x / 16).toUInt8 :: (x % 16 * 16 + y / 4).toUInt8 ::
                  (y % 4 * 64 + z).toUInt8 :: bs
            | none => none
        | none => none
    | _, _ => none
  | _ => none

/-- `DecodeString`. -/
def decodeString (s : Bytes) : Option Bytes :=
  decodeQuanta (s.filter fun b => b != 0x0A && b != 0x0D)

example : decodeString (ascii "cHJv\nb2Y=") = some (ascii "proof") := by decide +kernel

/-! ## Encoding -/

/-- The character of the alphabet for six bits. -/
def character (n : ℕ) : UInt8 :=
  if n < 26 then (n + 0x41).toUInt8
  else if n < 52 then (n + 0x47).toUInt8
  else if n < 62 then (n - 4).toUInt8
  else if n = 62 then 0x2B
  else 0x2F

/-- `EncodeToString`. -/
def encodeToString : Bytes → Bytes
  | [] => []
  | [a] => [character (a.toNat / 4), character (a.toNat % 4 * 16), 0x3D, 0x3D]
  | [a, b] =>
    [character (a.toNat / 4), character (a.toNat % 4 * 16 + b.toNat / 16),
      character (b.toNat % 16 * 4), 0x3D]
  | a :: b :: c :: rest =>
    character (a.toNat / 4) :: character (a.toNat % 4 * 16 + b.toNat / 16) ::
      character (b.toNat % 16 * 4 + c.toNat / 64) :: character (c.toNat % 64) ::
        encodeToString rest

theorem sextet_character {n : ℕ} (h : n < 64) : sextet (character n) = some n := by
  have hall : ∀ n < 64, sextet (character n) = some n := by decide
  exact hall n h

/-- A character of the alphabet is not padding, and not ignored. -/
theorem character_ne {n : ℕ} (h : n < 64) :
    character n ≠ 0x3D ∧ character n ≠ 0x0A ∧ character n ≠ 0x0D := by
  have hall : ∀ n < 64, character n ≠ 0x3D ∧ character n ≠ 0x0A ∧ character n ≠ 0x0D := by decide
  exact hall n h

theorem toUInt8_toNat (a : UInt8) : a.toNat.toUInt8 = a := UInt8.ofNat_toNat

/-- What is encoded is not ignored. -/
theorem encodeToString_clean (bs : Bytes) :
    (encodeToString bs).filter (fun b => b != 0x0A && b != 0x0D) = encodeToString bs := by
  rw [List.filter_eq_self]
  have hkeep : ∀ n < 64, (character n != 0x0A && character n != 0x0D) = true := by
    intro n hn
    have := character_ne hn
    simp [this]
  fun_induction encodeToString bs with
  | case1 => simp
  | case2 a =>
    have ha := a.toNat_lt
    intro x hx
    simp only [List.mem_cons, List.not_mem_nil, or_false] at hx
    rcases hx with rfl | rfl | rfl | rfl
    · exact hkeep _ (by omega)
    · exact hkeep _ (by omega)
    · rfl
    · rfl
  | case3 a b =>
    have ha := a.toNat_lt
    have hb := b.toNat_lt
    intro x hx
    simp only [List.mem_cons, List.not_mem_nil, or_false] at hx
    rcases hx with rfl | rfl | rfl | rfl
    · exact hkeep _ (by omega)
    · exact hkeep _ (by omega)
    · exact hkeep _ (by omega)
    · rfl
  | case4 a b c rest ih =>
    have ha := a.toNat_lt
    have hb := b.toNat_lt
    have hc := c.toNat_lt
    intro x hx
    simp only [List.mem_cons] at hx
    rcases hx with rfl | rfl | rfl | rfl | hx
    · exact hkeep _ (by omega)
    · exact hkeep _ (by omega)
    · exact hkeep _ (by omega)
    · exact hkeep _ (by omega)
    · exact ih x hx

theorem decodeQuanta_encodeToString (bs : Bytes) : decodeQuanta (encodeToString bs) = some bs := by
  fun_induction encodeToString bs with
  | case1 => rfl
  | case2 a =>
    have ha := a.toNat_lt
    rw [decodeQuanta, sextet_character (by omega), sextet_character (by omega)]
    have h : a.toNat / 4 * 4 + a.toNat % 4 * 16 / 16 = a.toNat := by omega
    dsimp only
    rw [if_pos rfl, if_pos ⟨rfl, rfl⟩, h, toUInt8_toNat]
  | case3 a b =>
    have ha := a.toNat_lt
    have hb := b.toNat_lt
    rw [decodeQuanta, sextet_character (by omega), sextet_character (by omega),
      sextet_character (by omega)]
    have h1 : a.toNat / 4 * 4 + (a.toNat % 4 * 16 + b.toNat / 16) / 16 = a.toNat := by omega
    have h2 : (a.toNat % 4 * 16 + b.toNat / 16) % 16 * 16 + b.toNat % 16 * 4 / 4 = b.toNat := by
      omega
    dsimp only
    rw [if_neg (character_ne (by omega)).1, if_pos rfl, if_pos rfl, h1, h2, toUInt8_toNat,
      toUInt8_toNat]
  | case4 a b c rest ih =>
    have ha := a.toNat_lt
    have hb := b.toNat_lt
    have hc := c.toNat_lt
    rw [decodeQuanta, sextet_character (by omega), sextet_character (by omega),
      sextet_character (by omega), sextet_character (by omega), ih]
    have h1 : a.toNat / 4 * 4 + (a.toNat % 4 * 16 + b.toNat / 16) / 16 = a.toNat := by omega
    have h2 : (a.toNat % 4 * 16 + b.toNat / 16) % 16 * 16 +
        (b.toNat % 16 * 4 + c.toNat / 64) / 4 = b.toNat := by omega
    have h3 : (b.toNat % 16 * 4 + c.toNat / 64) % 4 * 64 + c.toNat % 64 = c.toNat := by omega
    dsimp only
    rw [if_neg (character_ne (by omega)).1, if_neg (character_ne (by omega)).1, h1, h2, h3,
      toUInt8_toNat, toUInt8_toNat, toUInt8_toNat]
    rfl

/-- **Decoding what was encoded.** -/
theorem decodeString_encodeToString (bs : Bytes) : decodeString (encodeToString bs) = some bs := by
  rw [decodeString, encodeToString_clean, decodeQuanta_encodeToString]

end Base64

end ZkRuntime
