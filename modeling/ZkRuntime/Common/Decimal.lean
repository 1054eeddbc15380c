import Mathlib.Algebra.Group.Nat.Defs
import Mathlib.Data.List.Induction
import ZkRuntime.Common.Bytes
/-!
# Decimal writing

A number has one decimal writing without leading zeros: what `decimal`
writes has none, and digits without any are what `decimal` writes of their
value (`decimal_decimalValue`).
-/

namespace ZkRuntime

namespace Bytes

theorem isDigit_iff {b : UInt8} : isDigit b = true ↔ 0x30 ≤ b.toNat ∧ b.toNat ≤ 0x39 := by
  rw [isDigit, Bool.and_eq_true, decide_eq_true_eq, decide_eq_true_eq]

theorem decimal_digit : ∀ d < 10, decimal d = [(0x30 + d).toUInt8] := by decide

theorem decimal_of_isDigit {b : UInt8} (h : isDigit b = true) : decimal (b.toNat - 0x30) = [b] := by
  rw [isDigit_iff] at h
  rw [decimal_digit _ (by omega), show 0x30 + (b.toNat - 0x30) = b.toNat by omega, Nat.toUInt8, UInt8.ofNat_toNat]

/-- The last digit of a number is written last. -/
theorem decimal_append {n d : ℕ} (hn : 0 < n) (hd : d < 10) : decimal (10 * n + d) = decimal n ++ decimal d := by
  rw [decimal, ← Nat.toDigits_append_toDigits (by omega) hn hd, List.map_append]
  rfl

theorem decimalValue_append (s : Bytes) (b : UInt8) :
    decimalValue (s ++ [b]) = 10 * decimalValue s + (b.toNat - 0x30) := by
  rw [decimalValue, List.foldl_append]
  rfl

/-- **No number but zero begins with one.** The induction is on the number,
a digit at a time from the right. -/
theorem head?_decimal {n : ℕ} (hn : 0 < n) : (decimal n).head? ≠ some 0x30 := by
  induction n using Nat.strongRecOn with
  | ind n ih =>
    by_cases hlt : n < 10
    · intro h
      rw [decimal_digit n hlt, List.head?_cons, Option.some.injEq] at h
      have hval := congrArg UInt8.toNat h
      rw [Nat.toUInt8, UInt8.toNat_ofNat'] at hval
      have hzero : (0x30 : UInt8).toNat = 0x30 := rfl
      omega
    · have hsplit : n = 10 * (n / 10) + n % 10 := by omega
      have hhead := ih (n / 10) (by omega) (by omega)
      rw [hsplit, decimal_append (by omega) (by omega), List.head?_append]
      cases hd : (decimal (n / 10)).head? with
      | none => exact absurd (List.head?_eq_none_iff.1 hd) (decimal_ne_nil _)
      | some b =>
        rw [hd] at hhead
        exact hhead

theorem length_decimal_le {n k : ℕ} (hk : 0 < k) : (decimal n).length ≤ k ↔ n < 10 ^ k := by
  rw [decimal, List.length_map, Nat.length_toDigits_le_iff (by omega) hk]

/-- **Digits without leading zeros are the writing of their value.** -/
theorem decimal_decimalValue {s : Bytes} (hne : s ≠ []) (hs : ∀ b ∈ s, isDigit b = true)
    (hzero : s.head? = some 0x30 → s.length = 1) : decimal (decimalValue s) = s := by
  induction s using List.reverseRecOn with
  | nil => exact absurd rfl hne
  | append_singleton s b ih =>
    have hb := hs b (by simp)
    by_cases hnil : s = []
    · subst hnil
      rw [List.nil_append, show decimalValue [b] = b.toNat - 0x30 from Nat.zero_add _, decimal_of_isDigit hb]
    · -- with a digit in front of the last, the first is no zero
      have hhead : s.head? ≠ some 0x30 := by
        intro h
        have hlen := hzero (by rw [List.head?_append, h]; rfl)
        rw [List.length_append, List.length_singleton] at hlen
        have := List.length_pos_iff.2 hnil
        omega
      have hdec := ih hnil (fun x hx => hs x (by simp [hx])) (fun h => absurd h hhead)
      have hpos : 0 < decimalValue s := by
        rw [Nat.pos_iff_ne_zero]
        intro h
        rw [h] at hdec
        rw [← hdec] at hhead
        exact hhead rfl
      have hdigit := isDigit_iff.1 hb
      rw [decimalValue_append, decimal_append hpos (by omega), hdec, decimal_of_isDigit hb]

end Bytes

end ZkRuntime
