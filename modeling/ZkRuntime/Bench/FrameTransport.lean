import ZkRuntime.Bench.Model.Link
/-!
# Frames over a byte stream

What `read` returns depends on the bytes that are left, in the buffer and
in the stream, and not on how the stream is cut into blocks. Values that
were sent as frames come back in order with nothing left over.
-/

namespace ZkRuntime

namespace Bench

namespace Events

open PyJson

variable {F : Type} [Floats F]

/-! ## The frame a stream starts with -/

namespace Link

theorem frameLength_append {b : Bytes} (h : newline ∈ b) (u : Bytes) : frameLength (b ++ u) = frameLength b := by
  rw [frameLength, frameLength, if_pos h, if_pos (List.mem_append_left _ h), List.idxOf_append_of_mem h]

theorem length_le_frameLength {b : Bytes} (h : newline ∉ b) (u : Bytes) : b.length ≤ frameLength (b ++ u) := by
  unfold frameLength
  split
  · rw [List.idxOf_append_of_notMem h]
    omega
  · rw [List.length_append]
    omega

end Link

open Link

/-- **What a `read` comes to**, of all the bytes that are left. -/
def outcome (left : Bytes) : Checked (Value F) :=
  if maxMessage < frameLength left then .error (.interface "channel frame bound")
  else if newline ∈ left then
    match decode (left.take (left.idxOf newline)) with
    | some value => .ok value
    | none => .error (.interface "invalid channel JSON")
  else .error (.interface "channel closed")

/-- A request of at least one byte, that the buffer has room for. -/
def Fits (q : ℤ) : Prop := 1 ≤ q ∧ q ≤ maxMessage + 1

/-- **What the loop of `read` leaves.** -/
structure Filled (l : Link) (s : Stream) (r : Checked Unit) (l' : Link) (s' : Stream) : Prop where
  deadline : l'.deadline = l.deadline
  /-- Nothing is lost, and nothing changes places. -/
  kept : l'.buffer ++ s'.unread = l.buffer ++ s.unread
  bounded : l'.buffer.length ≤ maxMessage + 1
  requests : ∀ q ∈ s'.requests, q ∈ s.requests ∨ Fits q
  ended : r = .ok () ∧ newline ∈ l'.buffer ∨
    r = .error (.interface "channel frame bound") ∧ maxMessage < frameLength l'.buffer ∨
    r = .error (.interface "channel closed") ∧ newline ∉ l'.buffer ∧ l'.buffer.length ≤ maxMessage ∧ s'.unread = []

variable {size : ℕ → ℕ} {time : ℕ → ℤ}

theorem stream_clock (s : Stream) :
    (stream size time).clock s = (time s.looks, { s with looks := s.looks + 1 }) := rfl

/-- A block of a stream, and what it leaves. -/
theorem exists_recv {n : ℤ} (hn : 1 ≤ n) (s : Stream) : ∃ block unread,
    (stream size time).recv n s = (.ok block, { s with unread := unread, requests := s.requests ++ [n] }) ∧
      block ++ unread = s.unread ∧ (block.length : ℤ) ≤ n ∧ (block = [] → s.unread = []) := by
  refine ⟨_, _, rfl, ?_, ?_, ?_⟩
  · rw [List.length_take]
    rcases Nat.le_total (min n.toNat (max 1 (size s.requests.length))) s.unread.length with h | h
    · rw [Nat.min_eq_left h, List.take_append_drop]
    · rw [Nat.min_eq_right h, List.take_of_length_le h, List.drop_length, List.append_nil]
  · rw [List.length_take]
    omega
  · intro hnil
    rcases List.take_eq_nil_iff.1 hnil with h | h
    · omega
    · exact h

theorem budget_stream {l : Link} (htime : ∀ i, time i < l.deadline) (s : Stream) :
    l.budget (stream size time) s = (.ok (), { s with looks := s.looks + 1 }) := by
  have hlt := htime s.looks
  rw [Link.budget, stream_clock]
  dsimp only
  rw [if_pos (by omega)]

/-- **A frame is filled** in finitely many reads: each brings a byte, or the
stream ends. -/
theorem fill_stream : ∀ (n : ℕ) (l : Link) (s : Stream), (∀ i, time i < l.deadline) →
    l.buffer.length ≤ maxMessage + 1 → (newline ∉ l.buffer → l.buffer.length ≤ maxMessage) →
    maxMessage + 1 - l.buffer.length < n →
    ∃ r l' s', fill (stream size time) n l s = some (r, l', s') ∧ Filled l s r l' s' := by
  intro n
  induction n with
  | zero =>
    intro l s _ _ _ hn
    omega
  | succ n ih =>
    intro l s htime hlen hopen hn
    rw [fill]
    by_cases hnl : newline ∈ l.buffer
    · rw [if_pos hnl]
      exact ⟨_, _, _, rfl, rfl, rfl, hlen, fun q hq => .inl hq, .inl ⟨rfl, hnl⟩⟩
    · rw [if_neg hnl]
      have hroom := hopen hnl
      have hroom' : (1 : ℤ) ≤ maxMessage + 1 - l.buffer.length := by omega
      obtain ⟨block, unread, hrecv, hkept, hblock, hend⟩ :=
        @exists_recv size time _ hroom' { s with looks := s.looks + 1 }
      rw [budget_stream htime]
      dsimp only
      rw [hrecv]
      dsimp only at hkept hend ⊢
      have hrequests : ∀ q ∈ s.requests ++ [(maxMessage : ℤ) + 1 - l.buffer.length], q ∈ s.requests ∨ Fits q := by
        intro q hq
        rcases List.mem_append.1 hq with hq | hq
        · exact .inl hq
        · rw [List.mem_singleton.1 hq]
          exact .inr ⟨by omega, by omega⟩
      have hlength : (l.buffer ++ block).length ≤ maxMessage + 1 := by
        rw [List.length_append]
        omega
      by_cases hempty : block = []
      · -- only a stream at its end has no block
        rw [if_pos hempty]
        have hnil : unread = [] := by
          rw [hend hempty, List.append_eq_nil_iff] at hkept
          exact hkept.2
        exact ⟨_, _, _, rfl, rfl, by rw [hnil, hend hempty], hlen, hrequests, .inr (.inr ⟨rfl, hnl, hroom, hnil⟩)⟩
      · rw [if_neg hempty]
        have hpos : 0 < block.length := List.length_pos_iff.2 hempty
        by_cases hfit : frameLength (l.buffer ++ block) ≤ maxMessage
        · rw [if_pos hfit]
          have hshort : newline ∉ l.buffer ++ block → (l.buffer ++ block).length ≤ maxMessage := by
            intro hno
            rw [frameLength, if_neg hno] at hfit
            exact hfit
          obtain ⟨r, l', s', hfill, hf⟩ := ih { l with buffer := l.buffer ++ block }
            { s with unread := unread, looks := s.looks + 1, requests := s.requests ++ [(maxMessage : ℤ) + 1 - l.buffer.length] }
            htime hlength hshort (by dsimp only; rw [List.length_append]; omega)
          refine ⟨r, l', s', hfill, hf.deadline, ?_, hf.bounded, ?_, hf.ended⟩
          · rw [hf.kept, List.append_assoc, hkept]
          · intro q hq
            rcases hf.requests q hq with hq | hq
            · exact hrequests q hq
            · exact .inr hq
        · rw [if_neg hfit]
          refine ⟨_, _, _, rfl, rfl, ?_, hlength, hrequests, .inr (.inl ⟨rfl, Nat.lt_of_not_le hfit⟩)⟩
          rw [List.append_assoc, hkept]

/-- **What `read` leaves**, and what it returns. -/
theorem read_stream {l : Link} (htime : ∀ i, time i < l.deadline) (hbuf : l.buffer.length ≤ maxMessage)
    {fuel : ℕ} (hfuel : maxMessage + 2 ≤ fuel) (s : Stream) : ∃ l' s',
    l.read (F := F) (stream size time) fuel s = some (outcome (l.buffer ++ s.unread), l', s') ∧
      l'.deadline = l.deadline ∧ l'.buffer.length ≤ maxMessage + 1 ∧
      (∀ q ∈ s'.requests, q ∈ s.requests ∨ Fits q) ∧
      (newline ∈ l.buffer ++ s.unread → frameLength (l.buffer ++ s.unread) ≤ maxMessage →
        l'.buffer.length ≤ maxMessage ∧
          l'.buffer ++ s'.unread = (l.buffer ++ s.unread).drop (frameLength (l.buffer ++ s.unread))) := by
  obtain ⟨r, l', s', hfill, hf⟩ := fill_stream fuel l s htime (by omega) (fun _ => hbuf) (by omega)
  have hkept := hf.kept
  rw [Link.read, hfill]
  rcases hf.ended with ⟨rfl, hnl⟩ | ⟨rfl, hlong⟩ | ⟨rfl, hnl, hshort, hend⟩
  · -- a line is there
    have hidx : l'.buffer.idxOf newline < l'.buffer.length := List.idxOf_lt_length_of_mem hnl
    have hnl' : newline ∈ l.buffer ++ s.unread := by
      rw [← hkept]
      exact List.mem_append_left _ hnl
    have hlen : frameLength (l.buffer ++ s.unread) = l'.buffer.idxOf newline + 1 := by
      rw [← hkept, frameLength_append hnl, frameLength, if_pos hnl]
    have hraw : (l'.buffer.take (l'.buffer.idxOf newline)).length = l'.buffer.idxOf newline := by
      rw [List.length_take]
      omega
    have htake : (l.buffer ++ s.unread).take ((l.buffer ++ s.unread).idxOf newline) =
        l'.buffer.take (l'.buffer.idxOf newline) := by
      rw [← hkept, List.idxOf_append_of_mem hnl, List.take_append_of_le_length hidx.le]
    have hbound := hf.bounded
    have hdrop : (l'.buffer.drop (l'.buffer.idxOf newline + 1)).length ≤ maxMessage := by
      rw [List.length_drop]
      omega
    have hrest : l'.buffer.drop (l'.buffer.idxOf newline + 1) ++ s'.unread =
        (l.buffer ++ s.unread).drop (frameLength (l.buffer ++ s.unread)) := by
      rw [hlen, ← hkept, List.drop_append_of_le_length (by omega)]
    dsimp only
    rw [hraw]
    by_cases hfit : l'.buffer.idxOf newline + 1 ≤ maxMessage
    · rw [if_pos hfit, outcome, if_neg (by omega), if_pos hnl', htake]
      cases decode (F := F) (l'.buffer.take (l'.buffer.idxOf newline)) with
      | none => exact ⟨_, _, rfl, hf.deadline, by dsimp only; omega, hf.requests, fun _ _ => ⟨hdrop, hrest⟩⟩
      | some v => exact ⟨_, _, rfl, hf.deadline, by dsimp only; omega, hf.requests, fun _ _ => ⟨hdrop, hrest⟩⟩
    · rw [if_neg hfit, outcome, if_pos (by omega)]
      exact ⟨_, _, rfl, hf.deadline, by dsimp only; omega, hf.requests, fun _ h => by omega⟩
  · have hlong' : maxMessage < frameLength (l.buffer ++ s.unread) := by
      rw [← hkept]
      by_cases hnl : newline ∈ l'.buffer
      · rwa [frameLength_append hnl]
      · rw [frameLength, if_neg hnl] at hlong
        exact hlong.trans_le (length_le_frameLength hnl _)
    rw [outcome, if_pos hlong']
    exact ⟨_, _, rfl, hf.deadline, hf.bounded, hf.requests, fun _ h => by omega⟩
  · rw [hend, List.append_nil] at hkept
    rw [← hkept, outcome, frameLength, if_neg hnl, if_neg (by omega), if_neg hnl]
    exact ⟨_, _, rfl, hf.deadline, hf.bounded, hf.requests, fun h => absurd h hnl⟩

/-! ## Frames -/

theorem newline_notMem_encodeText {t : Text} (ht : Printable t) : newline ∉ encodeText t := by
  intro h
  obtain ⟨c, hc, hcn⟩ := List.mem_map.1 h
  have hrange := ht c hc
  have htoNat := toNat_toUInt8_of_ascii (c := c) ⟨by omega, by omega⟩
  rw [hcn] at htoNat
  have : newline.toNat = 10 := rfl
  omega

theorem decode_encodeText {v : Value F} (hv : v.Wf) {t : Text} (h : dumps v = some t) :
    decode (encodeText t) = some v := by
  have hprintable : Printable t := printable_print hv h
  have hplain : (t.any fun c => isHighUnit c || isLowUnit c) = false := by
    rw [List.any_eq_false]
    intro c hc
    have := hprintable c hc
    simp only [isHighUnit, isLowUnit, Bool.or_eq_true, Bool.and_eq_true, decide_eq_true_eq]
    omega
  rw [decode, decodeUtf8_ascii (ascii_print hv h), Option.bind_some, hplain]
  have hloads := loads_print hv h (g := []) (by simp)
  rw [List.append_nil] at hloads
  exact hloads

/-- **The frame of a value**, in front of anything else. -/
theorem outcome_encode {v : Value F} (hv : v.Wf) {e : Bytes} (he : encode v = some e) (hlen : e.length ≤ maxMessage)
    (rest : Bytes) : outcome (e ++ rest) = .ok v ∧ newline ∈ e ++ rest ∧ frameLength (e ++ rest) = e.length := by
  obtain ⟨t, ht, rfl⟩ := Option.map_eq_some_iff.1 he
  have hno := newline_notMem_encodeText (printable_print hv ht)
  have hline : encodeText (t ++ [0x0A]) = encodeText t ++ [newline] := List.map_append
  rw [hline] at hlen ⊢
  have hmem : newline ∈ encodeText t ++ [newline] := by simp
  have hidx : (encodeText t ++ [newline] ++ rest).idxOf newline = (encodeText t).length := by
    rw [List.append_assoc, List.idxOf_append_of_notMem hno]
    simp
  have hframe : frameLength (encodeText t ++ [newline] ++ rest) = (encodeText t ++ [newline]).length := by
    rw [frameLength, if_pos (List.mem_append_left _ hmem), hidx, List.length_append]
    rfl
  refine ⟨?_, List.mem_append_left _ hmem, hframe⟩
  rw [outcome, hframe, if_neg (by omega), if_pos (List.mem_append_left _ hmem), hidx, List.append_assoc,
    List.take_left, decode_encodeText hv ht]

/-- What a list of values is sent as. -/
def encoded (vs : List (Value F)) : Bytes := (vs.filterMap encode).flatten

/-- A value whose frame is short enough. -/
def Sendable (v : Value F) : Prop := v.Wf ∧ ∃ e, encode v = some e ∧ e.length ≤ maxMessage

theorem encoded_cons {v : Value F} {e : Bytes} (he : encode v = some e) (vs : List (Value F)) :
    encoded (v :: vs) = e ++ encoded vs := by
  rw [encoded, List.filterMap_cons_some he, List.flatten_cons]
  rfl

theorem frames_stream {l : Link} (htime : ∀ i, time i < l.deadline) : ∀ {vs : List (Value F)},
    (∀ v ∈ vs, Sendable v) → ∀ s : Stream, ∃ s', l.frames (stream size time) vs s = (.ok (), s') ∧
      s'.unread = s.unread ++ encoded vs := by
  intro vs
  induction vs with
  | nil =>
    intro _ s
    exact ⟨s, rfl, (List.append_nil _).symm⟩
  | cons v vs ih =>
    intro hvs s
    obtain ⟨-, e, he, hlen⟩ := hvs v List.mem_cons_self
    obtain ⟨s', hs', hunread⟩ := ih (fun w hw => hvs w (List.mem_cons_of_mem _ hw))
      { s with unread := s.unread ++ e, looks := s.looks + 1 }
    refine ⟨s', ?_, ?_⟩
    · rw [Link.frames, Link.frame, he]
      dsimp only
      rw [if_pos hlen, budget_stream htime]
      exact hs'
    · rw [hunread, encoded_cons he, List.append_assoc]

theorem reads_stream {fuel : ℕ} (hfuel : maxMessage + 2 ≤ fuel) (rest : Bytes) : ∀ {vs : List (Value F)},
    (∀ v ∈ vs, Sendable v) → ∀ {l : Link} {s : Stream}, (∀ i, time i < l.deadline) →
      l.buffer.length ≤ maxMessage → l.buffer ++ s.unread = encoded vs ++ rest →
      ∃ l' s', reads (stream size time) fuel vs.length l s = some (vs.map .ok, l', s') ∧
        l'.deadline = l.deadline ∧ l'.buffer.length ≤ maxMessage ∧ l'.buffer ++ s'.unread = rest ∧
        ∀ q ∈ s'.requests, q ∈ s.requests ∨ Fits q := by
  intro vs
  induction vs with
  | nil =>
    intro _ l s _ hbuf hleft
    exact ⟨l, s, rfl, rfl, hbuf, hleft, fun q hq => .inl hq⟩
  | cons v vs ih =>
    intro hvs l s htime hbuf hleft
    obtain ⟨hv, e, he, hlen⟩ := hvs v List.mem_cons_self
    rw [encoded_cons he, List.append_assoc] at hleft
    obtain ⟨hout, hnl, hframe⟩ := outcome_encode hv he hlen (encoded vs ++ rest)
    obtain ⟨l₁, s₁, hread, hdead, -, hreq, hnext⟩ := @read_stream F _ size time _ htime hbuf _ hfuel s
    rw [hleft, hout] at hread
    obtain ⟨hbuf₁, hleft₁⟩ := hnext (hleft ▸ hnl) (by rw [hleft, hframe]; exact hlen)
    rw [hleft, hframe, List.drop_left] at hleft₁
    obtain ⟨l', s', hreads, hdead', hbuf', hleft', hreq'⟩ := ih (fun w hw => hvs w (List.mem_cons_of_mem _ hw))
      (hdead ▸ htime) hbuf₁ hleft₁
    refine ⟨l', s', ?_, hdead'.trans hdead, hbuf', hleft', ?_⟩
    · rw [List.length_cons, Link.reads, hread]
      dsimp only
      rw [hreads]
      rfl
    · intro q hq
      rcases hreq' q hq with hq | hq
      · exact hreq q hq
      · exact .inr hq

/-- **The channel is a queue of values.** What was framed is what is written
to the stream; and from a stream that has those frames next, in the buffer
and behind it, successive calls of `read` return the values in order,
however the stream is cut. What comes behind them decides the next `read`
in the same way: a frame that is too long is refused. Every request is of
one byte at least, and of no more than the buffer has room for. -/
theorem transport (size : ℕ → ℕ) (time : ℕ → ℤ) {fuel : ℕ} (hfuel : maxMessage + 2 ≤ fuel)
    {vs : List (Value F)} (hvs : ∀ v ∈ vs, Sendable v) {l : Link} (htime : ∀ i, time i < l.deadline) (s : Stream) :
    (∃ s', l.frames (stream size time) vs s = (.ok (), s') ∧ s'.unread = s.unread ++ encoded vs) ∧
    ∀ rest, l.buffer.length ≤ maxMessage → l.buffer ++ s.unread = encoded vs ++ rest →
      ∃ l' s' l'' s'',
        reads (stream size time) fuel vs.length l s = some (vs.map .ok, l', s') ∧
        l'.buffer ++ s'.unread = rest ∧ l'.buffer.length ≤ maxMessage ∧
        l'.read (F := F) (stream size time) fuel s' = some (outcome rest, l'', s'') ∧
        l''.buffer.length ≤ maxMessage + 1 ∧ ∀ q ∈ s''.requests, q ∈ s.requests ∨ 1 ≤ q ∧ q ≤ maxMessage + 1 := by
  refine ⟨frames_stream htime hvs s, fun rest hbuf hleft => ?_⟩
  obtain ⟨l', s', hreads, hdead, hbuf', hleft', hreq⟩ := reads_stream hfuel rest hvs htime hbuf hleft
  obtain ⟨l'', s'', hread, -, hbound, hreq', -⟩ := @read_stream F _ size time _ (hdead ▸ htime) hbuf' _ hfuel s'
  rw [hleft'] at hread
  refine ⟨l', s', l'', s'', hreads, hleft', hbuf', hread, hbound, fun q hq => ?_⟩
  rcases hreq' q hq with hq | hq
  · exact hreq q hq
  · exact .inr hq

/-- Floating point numbers none of which is finite. -/
instance nonFinite : Floats Unit where
  repr _ := none
  read _ := ()
  floatToken_of_repr := nofun
  read_repr := nofun

/-- Two values in blocks of two bytes, with too long a frame behind them. -/
theorem transport_pieces : ∃ l' s' l'' s'',
    reads (stream (fun _ => 2) fun _ => 0) 2050 2 ⟨1, []⟩
        ⟨encoded [(.int 7 : Value Unit), .null] ++ List.replicate 2049 0x78, 0, []⟩ =
      some ([.ok (.int 7 : Value Unit), .ok (.null)], l', s') ∧
    l'.read (F := Unit) (stream (fun _ => 2) fun _ => 0) 2050 s' =
      some (.error (.interface "channel frame bound"), l'', s'') := by
  have hvs : ∀ v ∈ [(.int 7 : Value Unit), .null], Sendable v := by
    intro v hv
    rcases List.mem_cons.1 hv with rfl | hv
    · exact ⟨.int 7, [0x37, 0x0A], by rfl, by decide⟩
    · rw [List.mem_singleton.1 hv]
      exact ⟨.null, [0x6E, 0x75, 0x6C, 0x6C, 0x0A], by rfl, by decide⟩
  have hlong : outcome (F := Unit) (List.replicate 2049 0x78) = .error (.interface "channel frame bound") := by
    have hno : newline ∉ List.replicate 2049 (0x78 : UInt8) := by
      intro h
      cases List.eq_of_mem_replicate h
    rw [outcome, frameLength, if_neg hno, List.length_replicate, if_pos (by decide)]
  obtain ⟨l', s', l'', s'', hreads, -, -, hread, -⟩ :=
    (@transport Unit _ (fun _ => 2) (fun _ => 0) 2050 (by decide) _ hvs ⟨1, []⟩ (fun _ => Int.zero_lt_one)
      ⟨encoded [(.int 7 : Value Unit), .null] ++ List.replicate 2049 0x78, 0, []⟩).2 (List.replicate 2049 0x78)
      (by decide) rfl
  rw [hlong] at hread
  exact ⟨l', s', l'', s'', hreads, hread⟩

end Events

end Bench

end ZkRuntime
