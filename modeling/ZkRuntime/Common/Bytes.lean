import Mathlib.Data.List.Basic
import Mathlib.Data.Nat.Notation
/-!
# Byte strings

Strings are sequences of bytes, with no promise that they are text. This
file has the byte-level vocabulary the parsers share: ASCII constants,
digits, and the decimal writing of a natural number with its reading.
-/

namespace ZkRuntime

/-- A string, as the bytes it is made of. -/
abbrev Bytes := List UInt8

/-- The bytes of an ASCII constant. -/
def ascii (s : String) : Bytes := s.toList.map fun c => c.toNat.toUInt8

/-- A literal by its characters: evaluating one takes the kernel long. -/
theorem ascii_ofList (l : List Char) : ascii (String.ofList l) = l.map fun c => c.toNat.toUInt8 := by
  rw [ascii, String.toList_ofList]

namespace Bytes

/-- `'0' ≤ b ≤ '9'`. -/
def isDigit (b : UInt8) : Bool := 0x30 ≤ b.toNat && b.toNat ≤ 0x39

/-- The number a digit string writes in base ten. -/
def decimalValue (ds : Bytes) : ℕ := ds.foldl (fun n b => 10 * n + (b.toNat - 0x30)) 0

/-- A number written in base ten, without leading zeros. -/
def decimal (n : ℕ) : Bytes := (Nat.toDigits 10 n).map fun c => c.toNat.toUInt8

/-- A digit character is one byte. -/
theorem toNat_ofChar_of_isDigit {c : Char} (h : c.isDigit = true) :
    c.toNat.toUInt8.toNat = c.toNat ∧ 0x30 ≤ c.toNat ∧ c.toNat ≤ 0x39 := by
  have hc : 0x30 ≤ c.toNat ∧ c.toNat ≤ 0x39 := by
    simp only [Char.isDigit, Bool.and_eq_true, decide_eq_true_eq] at h
    exact ⟨h.1, h.2⟩
  refine ⟨?_, hc⟩
  simp only [Nat.toUInt8, UInt8.toNat_ofNat']
  omega

theorem isDigit_of_mem_decimal {n : ℕ} {b : UInt8} (h : b ∈ decimal n) : isDigit b = true := by
  obtain ⟨c, hc, rfl⟩ := List.mem_map.1 h
  obtain ⟨h1, h2⟩ := toNat_ofChar_of_isDigit (Nat.isDigit_of_mem_toDigits (by omega) (by omega) hc)
  simp only [isDigit, h1, Bool.and_eq_true, decide_eq_true_eq]
  exact h2

theorem decimal_ne_nil (n : ℕ) : decimal n ≠ [] := by
  simp [decimal]

/-- **Reading back what was written.** -/
theorem decimalValue_decimal (n : ℕ) : decimalValue (decimal n) = n := by
  have hfold : ∀ (cs : List Char) (k : ℕ), (∀ c ∈ cs, c.isDigit = true) →
      (cs.map fun c => c.toNat.toUInt8).foldl (fun n b => 10 * n + (b.toNat - 0x30)) k =
        Nat.ofDigitChars 10 cs k := by
    intro cs
    induction cs with
    | nil => intro k _; simp [Nat.ofDigitChars_nil]
    | cons c cs ih =>
      intro k h
      have hc := toNat_ofChar_of_isDigit (h c (by simp))
      simp only [List.map_cons, List.foldl_cons, Nat.ofDigitChars_cons, hc.1]
      exact ih _ fun c' hc' => h c' (by simp [hc'])
  rw [decimalValue, decimal, hfold _ _ fun c hc => Nat.isDigit_of_mem_toDigits (by omega) (by omega) hc]
  exact Nat.ofDigitChars_ten_toDigits

end Bytes

end ZkRuntime
