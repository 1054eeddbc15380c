import ZkRuntime.Zk.Grammar
/-!
# What a literal is decoded to

`json.Unmarshal` writes `U+FFFD` for a surrogate that is no half of a pair,
and for bytes that are no character. `unquoteBytes` is its reading of a
literal with those two places marked; on a literal in UTF-8 it writes what
`decode` does (`unquoteFrom_of_lexed`), and marks a place just where
`validPublicStringEscapes` answers false.
-/

namespace ZkRuntime

namespace Zk

open Json

/-- `getu4`: a `\uXXXX` escape, and what is behind it. -/
def getu4 : Bytes → Option (ℕ × Bytes)
  | e₀ :: e₁ :: a :: b :: c :: d :: rest =>
    if e₀ = 0x5C ∧ e₁ = 0x75 then (hex4 a b c d).map fun u => (u, rest) else none
  | _ => none

/-- One round of `unquoteBytes`: what it writes, nothing standing for the
replacement character, and what it has yet to read. -/
def unquoteStep : Bytes → Option (Option Bytes × Bytes)
  | [] => none
  | c :: rest =>
    if c = 0x5C then
      match getu4 (c :: rest) with
      | some (u, rest') =>
        if Utf8.isSurrogate u then
          match getu4 rest' with
          | some (v, rest'') =>
            if isHigh u && isLow v then
              some (some (Utf8.encodeRune (0x10000 + (u - 0xD800) * 0x400 + (v - 0xDC00))), rest'')
            else some (none, rest')
          | none => some (none, rest')
        else some (some (Utf8.encodeRune u), rest')
      | none =>
        match rest with
        | e :: rest' => (simpleEscape e).map fun b => (some [b], rest')
        | [] => none
    else if c = 0x22 ∨ c.toNat < 0x20 then none
    else if c.toNat < 0x80 then some (some [c], rest)
    else
      match Quote.takeRune .start (c :: rest) with
      | some (enc, rest') => some (some enc, rest')
      | none => some (none, rest)

/-- The loop of `unquoteBytes`, up to the closing quote. -/
def unquoteFrom : ℕ → Bytes → Option (List (Option Bytes))
  | 0, _ => none
  | n + 1, s =>
    if s = [0x22] then some []
    else
      match unquoteStep s with
      | some (w, s') => (unquoteFrom n s').map (w :: ·)
      | none => none

/-- `unquoteBytes`. -/
def unquoteBytes : Bytes → Option (List (Option Bytes))
  | 0x22 :: body => unquoteFrom body.length body
  | _ => none

/-- **The pieces of one character**: a surrogate is only ever half of a
pair. -/
inductive Character : List Piece → Prop
  | raw (b : UInt8) : Character [.raw b]
  | esc (b : UInt8) : Character [.esc b]
  | unit {u : ℕ} : Utf8.isSurrogate u = false → Character [.code u]
  | pair {u v : ℕ} : isHigh u = true → isLow v = true → Character [.code u, .code v]

theorem isSurrogate_eq (u : ℕ) : Utf8.isSurrogate u = (isHigh u || isLow u) := by
  rw [Bool.eq_iff_iff]
  simp only [Utf8.isSurrogate, isHigh, isLow, Bool.or_eq_true, Bool.and_eq_true, decide_eq_true_eq]
  omega

/-- A surrogate has no encoding. -/
theorem encodeRune_surrogate {u : ℕ} (h : Utf8.isSurrogate u = true) : Utf8.encodeRune u = Utf8.runeError := by
  have hrange := h
  simp only [Utf8.isSurrogate, Bool.and_eq_true, decide_eq_true_eq] at hrange
  rw [Utf8.encodeRune, if_neg (by omega), if_neg (by omega), if_pos (by rw [h, Bool.true_or])]

theorem paired_pair {u v : ℕ} (hu : isHigh u = true) (ps : List Piece) :
    paired (.code u :: .code v :: ps) = (isLow v && paired ps) := by
  rw [paired.eq_def]
  simp [hu]

/-- **`paired` is said of the characters.** -/
theorem paired_iff {ps : List Piece} :
    paired ps = true ↔ ∃ gs : List (List Piece), ps = gs.flatten ∧ ∀ g ∈ gs, Character g := by
  constructor
  · intro h
    induction ps using paired.induct with
    | case1 => exact ⟨[], rfl, by simp⟩
    | case2 u hu v ps ih =>
      rw [paired_pair hu, Bool.and_eq_true] at h
      obtain ⟨gs, rfl, hgs⟩ := ih h.2
      exact ⟨[.code u, .code v] :: gs, rfl, List.forall_mem_cons.2 ⟨.pair hu h.1, hgs⟩⟩
    | case3 u hu ps hne =>
      rw [paired, if_pos hu] at h
      · cases h
      · exact hne
    | case4 u ps hu ih =>
      have hhigh := Bool.not_eq_true _ ▸ hu
      rw [paired_code hhigh, Bool.and_eq_true, Bool.not_eq_true'] at h
      obtain ⟨gs, rfl, hgs⟩ := ih h.2
      refine ⟨[.code u] :: gs, rfl, List.forall_mem_cons.2 ⟨.unit ?_, hgs⟩⟩
      rw [isSurrogate_eq, hhigh, h.1, Bool.or_false]
    | case5 p ps hne ih =>
      cases p with
      | code u => exact absurd rfl (hne u)
      | raw b =>
        obtain ⟨gs, rfl, hgs⟩ := ih h
        exact ⟨[.raw b] :: gs, rfl, List.forall_mem_cons.2 ⟨.raw b, hgs⟩⟩
      | esc b =>
        obtain ⟨gs, rfl, hgs⟩ := ih h
        exact ⟨[.esc b] :: gs, rfl, List.forall_mem_cons.2 ⟨.esc b, hgs⟩⟩
  · rintro ⟨gs, rfl, hgs⟩
    induction gs with
    | nil => rfl
    | cons g gs ih =>
      obtain ⟨hg, htail⟩ := List.forall_mem_cons.1 hgs
      rw [List.flatten_cons]
      cases hg with
      | raw b => exact ih htail
      | esc b => exact ih htail
      | @unit u hu =>
        rw [isSurrogate_eq, Bool.or_eq_false_iff] at hu
        rw [List.singleton_append, paired_code hu.1, hu.2, ih htail]
        rfl
      | pair hu hv =>
        rw [List.cons_append, List.singleton_append, paired_pair hu, hv, ih htail]
        rfl

/-! ## On a literal in UTF-8 -/

section

open Quote

variable {s rest : Bytes} {ps : List Piece}

theorem takeRune_step {q q' : Utf8.Pos} {b : UInt8} {bs enc s' : Bytes} (hq : q' ≠ .start)
    (hstep : q.step b = some q') (h : takeRune q' bs = some (enc, s')) :
    takeRune q (b :: bs) = some (b :: enc, s') := by
  have hmap : takeRune q (b :: bs) = (takeRune q' bs).map fun p => (b :: p.1, p.2) := by
    rw [takeRune, hstep]
    cases q' with
    | start => exact absurd rfl hq
    | _ => rfl
  rw [hmap, h, Option.map_some]

/-- **A character at the front of a literal**: its bytes stand for
themselves, and the literal goes on behind them. -/
def Leads (q : Utf8.Pos) (s : Bytes) (ps : List Piece) (rest : Bytes) : Prop :=
  ∃ enc s' ps', takeRune q s = some (enc, s') ∧ ps = enc.map .raw ++ ps' ∧ Lexed s' ps' rest ∧
    Utf8.Pos.start.run s' = some .start

theorem leads_cons {q : Utf8.Pos} {c : UInt8} {bs : Bytes} (h : Lexed bs ps rest)
    (hrun : q.run (c :: bs) = some .start)
    (hnext : ∀ q' : Utf8.Pos, q' ≠ .start → q'.run bs = some .start → Leads q' bs ps rest) :
    Leads q (c :: bs) (.raw c :: ps) rest := by
  cases hstep : q.step c with
  | none =>
    rw [Utf8.Pos.run, hstep] at hrun
    cases hrun
  | some q' =>
    rw [Utf8.run_cons _ hstep] at hrun
    by_cases hq : q' = .start
    · subst hq
      exact ⟨[c], bs, ps, by rw [takeRune, hstep], rfl, h, hrun⟩
    · obtain ⟨enc, s', ps', htake, rfl, hlex, hrun'⟩ := hnext q' hq hrun
      exact ⟨c :: enc, s', ps', takeRune_step hq hstep htake, rfl, hlex, hrun'⟩

/-- Inside a character nothing is escaped. -/
theorem leads_of_ne_start (h : Lexed s ps rest) {q : Utf8.Pos} (hq : q ≠ .start) (hrun : q.run s = some .start) :
    Leads q s ps rest := by
  induction h generalizing q with
  | quote => exact absurd (run_of_ascii_cons (by decide) hrun).1 hq
  | code hhex _ ih => exact absurd (run_of_ascii_cons (by decide) hrun).1 hq
  | esc hne hesc _ ih => exact absurd (run_of_ascii_cons (by decide) hrun).1 hq
  | raw h1 h2 h3 hlex ih => exact leads_cons hlex hrun fun q' hq' hrun' => ih hq' hrun'

theorem decode_raw (enc : Bytes) (ps : List Piece) : decode (enc.map .raw ++ ps) = enc ++ decode ps := by
  induction enc with
  | nil => rfl
  | cons b enc ih => rw [List.map_cons, List.cons_append, decode, ih, List.cons_append]

theorem paired_raw (enc : Bytes) (ps : List Piece) : paired (enc.map .raw ++ ps) = paired ps := by
  induction enc with
  | nil => rfl
  | cons b enc ih => exact ih

/-- **What one round is for**: it writes what the first character decodes
to, and marks a surrogate that is on its own. -/
structure Reads (s : Bytes) (ps : List Piece) (w : Option Bytes) (s' : Bytes) (ps' : List Piece) : Prop where
  step : unquoteStep s = some (w, s')
  lexed : Lexed s' ps' []
  text : Utf8.Pos.start.run s' = some .start
  shorter : s'.length < s.length
  decoded : decode ps = w.getD Utf8.runeError ++ decode ps'
  paired : paired ps = (w.isSome && paired ps')

theorem getu4_code {a b c d : UInt8} {u : ℕ} (h : hex4 a b c d = some u) (bs : Bytes) :
    getu4 (0x5C :: 0x75 :: a :: b :: c :: d :: bs) = some (u, bs) := by
  rw [getu4, if_pos ⟨rfl, rfl⟩, h, Option.map_some]

theorem getu4_inv {v : ℕ} {s' : Bytes} (h : getu4 s = some (v, s')) :
    ∃ a b c d, s = 0x5C :: 0x75 :: a :: b :: c :: d :: s' ∧ hex4 a b c d = some v := by
  unfold getu4 at h
  split at h
  · split_ifs at h with he
    obtain ⟨rfl, rfl⟩ := he
    obtain ⟨u, hu, heq⟩ := Option.map_eq_some_iff.1 h
    cases heq
    exact ⟨_, _, _, _, rfl, hu⟩
  · cases h

theorem getu4_eq_some {v : ℕ} {s' : Bytes} (h : Lexed s ps rest) (hget : getu4 s = some (v, s')) :
    ∃ ps', ps = .code v :: ps' ∧ Lexed s' ps' rest := by
  obtain ⟨a, b, c, d, rfl, hhex⟩ := getu4_inv hget
  cases h with
  | code hhex' hlex =>
    rw [hhex, Option.some.injEq] at hhex'
    subst hhex'
    exact ⟨_, rfl, hlex⟩
  | esc hne _ _ => exact absurd rfl hne
  | raw _ hne _ _ => exact absurd rfl hne

theorem getu4_eq_none (h : Lexed s ps rest) (hget : getu4 s = none) : ∀ v ps', ps ≠ .code v :: ps' := by
  rintro v ps' rfl
  cases h with
  | code hhex _ =>
    rw [getu4_code hhex] at hget
    cases hget

/-- A high surrogate that no low one follows. -/
theorem decode_lone {u : ℕ} (hs : Utf8.isSurrogate u = true)
    (hno : ∀ v ps', ps = .code v :: ps' → (isHigh u && isLow v) = false) :
    decode (.code u :: ps) = Utf8.runeError ++ decode ps ∧ paired (.code u :: ps) = false := by
  rw [← encodeRune_surrogate hs]
  by_cases hhigh : isHigh u = true
  · rw [decode.eq_def, paired.eq_def]
    dsimp only
    rw [if_pos hhigh]
    split
    · rename_i v ps'
      have hlow := hno v ps' rfl
      rw [hlow, if_neg Bool.false_ne_true]
      rw [hhigh, Bool.true_and] at hlow
      rw [hlow, Bool.false_and]
      exact ⟨rfl, rfl⟩
    · exact ⟨rfl, rfl⟩
  · have hhigh' := Bool.not_eq_true _ ▸ hhigh
    rw [isSurrogate_eq, hhigh', Bool.false_or] at hs
    rw [decode_code hhigh', paired_code hhigh', hs]
    exact ⟨rfl, rfl⟩

theorem decode_pair {u v : ℕ} (hu : isHigh u = true) (hv : isLow v = true) (ps : List Piece) :
    decode (.code u :: .code v :: ps) =
      Utf8.encodeRune (0x10000 + (u - 0xD800) * 0x400 + (v - 0xDC00)) ++ decode ps := by
  rw [decode.eq_def]
  dsimp only
  rw [hu, hv, Bool.true_and, if_pos rfl]

/-- A code unit and what is done about it. -/
theorem reads_code {a b c d : UInt8} {u : ℕ} {bs : Bytes} (hhex : hex4 a b c d = some u) (hlex : Lexed bs ps [])
    (hrun : Utf8.Pos.start.run bs = some .start) :
    ∃ w s' ps', Reads (0x5C :: 0x75 :: a :: b :: c :: d :: bs) (.code u :: ps) w s' ps' := by
  have hstep : unquoteStep (0x5C :: 0x75 :: a :: b :: c :: d :: bs) =
      if Utf8.isSurrogate u then
        match getu4 bs with
        | some (v, rest'') =>
          if isHigh u && isLow v then
            some (some (Utf8.encodeRune (0x10000 + (u - 0xD800) * 0x400 + (v - 0xDC00))), rest'')
          else some (none, bs)
        | none => some (none, bs)
      else some (some (Utf8.encodeRune u), bs) := by
    rw [unquoteStep, if_pos rfl, getu4_code hhex]
  have hshort : bs.length < (0x5C :: 0x75 :: a :: b :: c :: d :: bs : Bytes).length := by
    simp only [List.length_cons]
    omega
  by_cases hs : Utf8.isSurrogate u = true
  · rw [if_pos hs] at hstep
    cases hget : getu4 bs with
    | none =>
      rw [hget] at hstep
      have hlone := decode_lone hs fun v ps' h => absurd h (getu4_eq_none hlex hget v ps')
      exact ⟨none, bs, ps, hstep, hlex, hrun, hshort, hlone.1, hlone.2⟩
    | some p =>
      obtain ⟨v, bs'⟩ := p
      rw [hget] at hstep
      dsimp only at hstep
      obtain ⟨ps', rfl, hlex'⟩ := getu4_eq_some hlex hget
      cases hpair : isHigh u && isLow v with
      | false =>
        rw [hpair, if_neg Bool.false_ne_true] at hstep
        have hlone : decode (.code u :: .code v :: ps') = Utf8.runeError ++ decode (.code v :: ps') ∧
            paired (.code u :: .code v :: ps') = false := by
          refine decode_lone hs ?_
          rintro v' ps'' heq
          cases heq
          exact hpair
        exact ⟨none, bs, _, hstep, hlex, hrun, hshort, hlone.1, hlone.2⟩
      | true =>
        rw [hpair, if_pos rfl] at hstep
        rw [Bool.and_eq_true] at hpair
        obtain ⟨x, y, z, w, rfl, hhex'⟩ := getu4_inv hget
        obtain ⟨hx, hy, hz, hw⟩ := hex4_ascii hhex'
        -- The second escape is read past as well, all of it in ASCII.
        have h1 := (run_of_ascii_cons (by decide) hrun).2
        have h2 := (run_of_ascii_cons (by decide) h1).2
        have h3 := (run_of_ascii_cons hx h2).2
        have h4 := (run_of_ascii_cons hy h3).2
        have h5 := (run_of_ascii_cons hz h4).2
        refine ⟨_, bs', ps', hstep, hlex', (run_of_ascii_cons hw h5).2, ?_, ?_, ?_⟩
        · simp only [List.length_cons]
          omega
        · rw [decode_pair hpair.1 hpair.2, Option.getD_some]
        · rw [paired_pair hpair.1, hpair.2]
          rfl
  · rw [if_neg hs] at hstep
    rw [Bool.not_eq_true] at hs
    have hunit := hs
    rw [isSurrogate_eq, Bool.or_eq_false_iff] at hunit
    refine ⟨_, bs, ps, hstep, hlex, hrun, hshort, decode_code hunit.1 ps, ?_⟩
    rw [paired_code hunit.1, hunit.2]
    rfl

/-- **A round reads one character**, wherever the literal does not end. -/
theorem exists_reads (h : Lexed s ps []) (hne : s ≠ [0x22]) (hrun : Utf8.Pos.start.run s = some .start) :
    ∃ w s' ps', Reads s ps w s' ps' := by
  cases h with
  | quote => exact absurd rfl hne
  | code hhex hlex =>
    obtain ⟨ha, hb, hc, hd⟩ := hex4_ascii hhex
    have h1 := (run_of_ascii_cons (by decide) hrun).2
    have h2 := (run_of_ascii_cons (by decide) h1).2
    have h3 := (run_of_ascii_cons ha h2).2
    have h4 := (run_of_ascii_cons hb h3).2
    have h5 := (run_of_ascii_cons hc h4).2
    exact reads_code hhex hlex (run_of_ascii_cons hd h5).2
  | @esc e b bs _ ps he hesc hlex =>
    have h1 := (run_of_ascii_cons (by decide) hrun).2
    have h2 := (run_of_ascii_cons (simpleEscape_domain hesc) h1).2
    have hget : getu4 (0x5C :: e :: bs) = none := by
      cases hget : getu4 (0x5C :: e :: bs) with
      | none => rfl
      | some p =>
        obtain ⟨a, b', c, d, heq, -⟩ := getu4_inv hget
        exact absurd (List.head_eq_of_cons_eq (List.tail_eq_of_cons_eq heq)) he
    have hlen : bs.length < (0x5C :: e :: bs : Bytes).length := by
      simp only [List.length_cons]
      omega
    refine ⟨some [b], bs, ps, ?_, hlex, h2, hlen, rfl, rfl⟩
    rw [unquoteStep, if_pos rfl, hget]
    dsimp only
    rw [hesc, Option.map_some]
  | @raw c bs _ ps h1 h2 h3 hlex =>
    have hno : ¬ (c = 0x22 ∨ c.toNat < 0x20) := not_or.2 ⟨h1, by omega⟩
    by_cases hc : c.toNat < 0x80
    · refine ⟨some [c], bs, ps, ?_, hlex, (run_of_ascii_cons hc hrun).2, by simp, rfl, rfl⟩
      rw [unquoteStep.eq_def]
      dsimp only
      rw [if_neg h2, if_neg hno, if_pos hc]
    · obtain ⟨enc, s', ps', htake, hps, hlex', hrun'⟩ :=
        leads_cons hlex hrun fun q hq hrun' => leads_of_ne_start hlex hq hrun'
      have hlen : s'.length < (c :: bs).length := by
        obtain ⟨heq, -⟩ := takeRune_append htake
        have hpos : enc ≠ [] := by
          rintro rfl
          cases encoded_of_takeRune htake
        rw [heq, List.length_append]
        have := List.length_pos_iff.2 hpos
        omega
      refine ⟨some enc, s', ps', ?_, hlex', hrun', hlen, ?_, ?_⟩
      · rw [unquoteStep.eq_def]
        dsimp only
        rw [if_neg h2, if_neg hno, if_neg hc, htake]
      · rw [hps, decode_raw]
        rfl
      · rw [hps, paired_raw]
        rfl

/-- **Read to its end, a literal is what `decode` makes of it**, and every
place marked is a surrogate on its own. The induction is on the fuel. -/
theorem unquoteFrom_of_lexed (n : ℕ) (h : Lexed s ps []) (hrun : Utf8.Pos.start.run s = some .start)
    (hn : s.length ≤ n) :
    ∃ ws, unquoteFrom n s = some ws ∧ decode ps = ws.flatMap (·.getD Utf8.runeError) ∧
      paired ps = ws.all Option.isSome := by
  induction n generalizing s ps with
  | zero => exact absurd (List.length_eq_zero_iff.1 (Nat.le_zero.1 hn)) h.ne_nil
  | succ n ih =>
    by_cases hend : s = [0x22]
    · subst hend
      cases h with
      | quote => exact ⟨[], by rw [unquoteFrom, if_pos rfl], rfl, rfl⟩
      | raw hne _ _ _ => exact absurd rfl hne
    · obtain ⟨w, s', ps', hread⟩ := exists_reads h hend hrun
      obtain ⟨ws, hws, hdecode, hpaired⟩ := ih hread.lexed hread.text (by have := hread.shorter; omega)
      refine ⟨w :: ws, ?_, ?_, ?_⟩
      · rw [unquoteFrom, if_neg hend, hread.step]
        dsimp only
        rw [hws, Option.map_some]
      · rw [hread.decoded, hdecode, List.flatMap_cons]
      · rw [hread.paired, hpaired, List.all_cons]

/-- **The surrogate check is decoding without loss.** On a JSON string in
UTF-8 it answers, with every index in range; and it answers true just where
the `\u` escapes fall into characters, which is where `json.Unmarshal` puts
`U+FFFD` in no place. -/
theorem validPublicStringEscapes_iff {raw : Bytes} {ps : List Piece} (h : Literal raw ps)
    (hutf8 : Utf8.validString raw = true) :
    ∃ answer ws, validPublicStringEscapes raw = some answer ∧ unquoteBytes raw = some ws ∧
      (answer = true ↔ ∃ gs : List (List Piece), ps = gs.flatten ∧ ∀ g ∈ gs, Character g) ∧
      (answer = true ↔ none ∉ ws) := by
  obtain ⟨body, rfl, hlex⟩ := h
  obtain ⟨-, hrun⟩ := run_of_ascii_cons (by decide) (Utf8.validString_iff.1 hutf8)
  obtain ⟨ws, hws, -, hpaired⟩ := unquoteFrom_of_lexed body.length hlex hrun le_rfl
  refine ⟨paired ps, ws, validPublicStringEscapes_of_lexBody (lexBody_of_lexed hlex), hws, paired_iff, ?_⟩
  rw [hpaired, List.all_eq_true]
  constructor
  · intro hall hnone
    exact absurd (hall none hnone) Bool.false_ne_true
  · intro hno w hw
    cases w with
    | none => exact absurd hw hno
    | some _ => rfl

/-- A pair of surrogates. -/
theorem validPublicStringEscapes_pair :
    ∃ answer ws, validPublicStringEscapes (ascii "\"\\ud83d\\ude00\"") = some answer ∧
      unquoteBytes (ascii "\"\\ud83d\\ude00\"") = some ws ∧
      (answer = true ↔ ∃ gs : List (List Piece),
        [.code 0xD83D, .code 0xDE00] = gs.flatten ∧ ∀ g ∈ gs, Character g) ∧
      (answer = true ↔ none ∉ ws) := by
  have hliteral : Literal (ascii "\"\\ud83d\\ude00\"") [.code 0xD83D, .code 0xDE00] := by
    refine ⟨ascii "\\ud83d\\ude00\"", by decide +kernel, ?_⟩
    exact lexed_of_lexBody _ (by decide +kernel)
  exact validPublicStringEscapes_iff hliteral (by decide +kernel)

end

end Zk

end ZkRuntime
