import ZkRuntime.Zk.Model.Payload
/-!
# Helpers — the surrogate check

`validPublicStringEscapes` walks a literal by index. On a literal the
lexer accepts, every index it reads is in range and its answer is whether
the pieces of the literal are paired.
-/

namespace ZkRuntime

namespace Zk

open Json

theorem getElem?_shift (pre s : Bytes) (k : ℕ) : (pre ++ s)[pre.length + k]? = s[k]? := by
  rw [List.getElem?_append_right (by omega)]
  congr 1
  omega

theorem slice_shift (pre s : Bytes) (lo hi : ℕ) :
    slice (pre ++ s) (pre.length + lo) (pre.length + hi) = slice s lo hi := by
  unfold slice
  rw [List.length_append, List.take_length_add_append, List.drop_append]
  simp only [Nat.add_le_add_iff_left, List.drop_eq_nil_of_le (Nat.le_add_right pre.length lo),
    List.nil_append, Nat.add_sub_cancel_left]

/-- A `\u` escape behind another one is what the bound of the source's
check leaves room for. -/
theorem lexed_behind_high {s : Bytes} {ps : List Piece} {u : ℕ} (hu : isHigh u = true)
    (hlex : Lexed s ps []) :
    (∃ a b c d v s' ps', s = 0x5C :: 0x75 :: a :: b :: c :: d :: s' ∧ hex4 a b c d = some v ∧
      ps = .code v :: ps' ∧ Lexed s' ps' [] ∧ 6 < s.length) ∨
    (paired (.code u :: ps) = false ∧
      (s[0]? ≠ some 0x5C ∨ s[1]? ≠ some 0x75)) := by
  cases hlex with
  | quote => exact .inr ⟨by rw [paired.eq_def]; simp [hu], .inl (by simp)⟩
  | @code a b c d v s' _ ps' hhex hs' =>
    have := List.length_pos_iff.2 hs'.ne_nil
    exact .inl ⟨a, b, c, d, v, s', ps', rfl, hhex, rfl, hs', by simp; omega⟩
  | esc hne _ _ => exact .inr ⟨by rw [paired.eq_def]; simp [hu], .inr (by simpa using hne)⟩
  | raw _ h2 _ _ => exact .inr ⟨by rw [paired.eq_def]; simp [hu], .inl (by simpa using h2)⟩

theorem not_isLow_iff {v : ℕ} : isLow v = false ↔ v < 0xDC00 ∨ 0xDFFF < v := by
  simp only [isLow, Bool.and_eq_false_iff, decide_eq_false_iff_not]
  omega

/-- **The walk answers for the pieces still ahead of it.** The induction is
on the fuel; a pair is consumed in one round, as the source does. -/
theorem validEscapesFrom_eq : ∀ (n : ℕ) (pre s : Bytes) (ps : List Piece), Lexed s ps [] →
    s.length ≤ n → validEscapesFrom (pre ++ s) n pre.length = some (paired ps) := by
  intro n
  induction n with
  | zero =>
    intro pre s ps h hn
    exact absurd (List.length_eq_zero_iff.1 (Nat.le_zero.1 hn)) h.ne_nil
  | succ n ih =>
    intro pre s ps h hn
    have hnext : ∀ (w s' : Bytes) (ps' : List Piece), s = w ++ s' → 0 < w.length →
        Lexed s' ps' [] →
        validEscapesFrom (pre ++ s) n (pre.length + w.length) = some (paired ps') := by
      intro w s' ps' hs hw h'
      have := ih (pre ++ w) s' ps' h' (by rw [hs, List.length_append] at hn; omega)
      rw [List.length_append, List.append_assoc, ← hs] at this
      exact this
    have hget := getElem?_shift pre s
    have hslice := slice_shift pre s
    have hin : 1 < s.length → pre.length < (pre ++ s).length - 1 := by
      intro hlt; rw [List.length_append]; omega
    cases h with
    | quote =>
      simp [validEscapesFrom, paired]
    | @raw c s' _ ps' h1 h2 h3 h' =>
      have hlen := List.length_pos_iff.2 h'.ne_nil
      have h0 : (pre ++ c :: s')[pre.length]? = some c := hget 0
      rw [validEscapesFrom, if_pos (hin (by simp; omega))]
      simp only [h0, if_pos h2]
      exact hnext [c] s' ps' rfl (by simp) h'
    | @esc e b s' _ ps' hne hesc h' =>
      have h0 : (pre ++ 0x5C :: e :: s')[pre.length]? = some 0x5C := hget 0
      have h1 : (pre ++ 0x5C :: e :: s')[pre.length + 1]? = some e := hget 1
      rw [validEscapesFrom, if_pos (hin (by simp))]
      simp only [h0, h1, if_pos hne]
      exact hnext [0x5C, e] s' ps' rfl (by simp) h'
    | @code a b c d u s' _ ps' hhex h' =>
      have h0 : (pre ++ 0x5C :: 0x75 :: a :: b :: c :: d :: s')[pre.length]? = some 0x5C := hget 0
      have h1 : (pre ++ 0x5C :: 0x75 :: a :: b :: c :: d :: s')[pre.length + 1]? = some 0x75 :=
        hget 1
      have hsl : slice (pre ++ 0x5C :: 0x75 :: a :: b :: c :: d :: s') (pre.length + 2)
          (pre.length + 6) = some [a, b, c, d] := by
        rw [hslice]; simp [slice]
      have hcode : parseUint16 [a, b, c, d] = u := by simp [parseUint16, hhex]
      rw [validEscapesFrom, if_pos (hin (by simp))]
      simp only [h0, h1, hsl, hcode, ne_eq, not_true_eq_false, if_false]
      by_cases hu : isHigh u = true
      · rw [if_pos hu]
        rcases lexed_behind_high hu h' with
          ⟨a', b', c', d', v, s'', ps'', rfl, hhex', rfl, h'', hlen⟩ | ⟨hfalse, hnot⟩
        · have hroom : ¬ (pre ++ 0x5C :: 0x75 :: a :: b :: c :: d ::
              0x5C :: 0x75 :: a' :: b' :: c' :: d' :: s'').length ≤ pre.length + 12 := by
            simp only [List.length_append, List.length_cons] at hlen ⊢
            omega
          have h6 := hget 6
          have h7 := hget 7
          have hsl' : slice (pre ++ 0x5C :: 0x75 :: a :: b :: c :: d ::
              0x5C :: 0x75 :: a' :: b' :: c' :: d' :: s'') (pre.length + 8) (pre.length + 12) =
                some [a', b', c', d'] := by
            rw [hslice]; simp [slice]
          have hlow : parseUint16 [a', b', c', d'] = v := by simp [parseUint16, hhex']
          have hpair : paired (.code u :: .code v :: ps'') = (isLow v && paired ps'') := by
            rw [paired.eq_def]; simp [hu]
          have hrest := hnext [0x5C, 0x75, a, b, c, d, 0x5C, 0x75, a', b', c', d'] s'' ps'' rfl
            (by simp) h''
          rw [if_neg hroom, if_neg (by rw [h6, h7]; simp), hsl', hpair]
          simp only [hlow]
          cases hv : isLow v with
          | false => rw [if_pos (not_isLow_iff.1 hv)]; rfl
          | true =>
            rw [if_neg fun hn => by rw [← not_isLow_iff, hv] at hn; cases hn]
            exact hrest
        · have h6 := hget 6
          have h7 := hget 7
          rw [hfalse]
          split_ifs with hroom hbad
          · rfl
          · rfl
          · rw [h6, h7] at hbad
            simp only [List.getElem?_cons_succ] at hbad
            exact absurd hnot hbad
      · rw [if_neg hu, paired_code (Bool.not_eq_true _ ▸ hu)]
        cases hl : isLow u with
        | true => rfl
        | false => exact hnext [0x5C, 0x75, a, b, c, d] s' ps' rfl (by simp) h'

/-- **`validPublicStringEscapes` never indexes out of range on a literal,
and answers whether its surrogates are paired.** -/
theorem validPublicStringEscapes_of_lexBody {body : Bytes} {ps : List Piece}
    (h : lexBody body = some (ps, [])) :
    validPublicStringEscapes (0x22 :: body) = some (paired ps) :=
  validEscapesFrom_eq _ [0x22] body ps (lexed_of_lexBody body h) (by simp)

end Zk

end ZkRuntime
