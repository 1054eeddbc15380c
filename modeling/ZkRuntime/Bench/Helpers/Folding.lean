import ZkRuntime.Bench.Helpers.Accepted
/-!
# Two folds over one stream

The recorder counts the rows it writes, the auditor those it reads back.
A row is one line and is read back as itself (`lines_flatten`,
`loadsBytes_rowLine`), and on a row both sides have passed the two folds
take the same step (`Mirrors.step`): a total and a gap are never negative,
so that it does not matter that the recorder's peaks start at zero.
-/

namespace ZkRuntime

namespace Bench

open PyJson

variable {F : Type} [Floats F]

/-! ### Lines -/

theorem lines_line : ∀ {body : Bytes}, (0x0A : UInt8) ∉ body → ∀ rest : Bytes,
    lines (body ++ 0x0A :: rest) = (body ++ [0x0A]) :: lines rest
  | [], _, rest => by
    rw [List.nil_append, lines, if_pos rfl]
    rfl
  | b :: body, h, rest => by
    have hb : b ≠ 0x0A := fun e => h (e ▸ List.mem_cons_self)
    rw [List.cons_append, lines, if_neg hb, lines_line fun hm => h (List.mem_cons_of_mem _ hm)]
    rfl

/-- **The line of a row** ends where its only line break is. -/
theorem rowLine_eq {row : Value F} (hw : row.Wf) {line : Bytes} (h : rowLine row = some line) :
    ∃ t, dumps row = some t ∧ line = encodeText t ++ [0x0A] ∧ (0x0A : UInt8) ∉ encodeText t := by
  obtain ⟨t, ht, rfl⟩ := Option.map_eq_some_iff.1 h
  refine ⟨t, ht, ?_, fun hmem => ?_⟩
  · rw [encodeText, List.map_append]
    rfl
  · obtain ⟨c, hc, e⟩ := List.mem_map.1 hmem
    have hp := printable_print hw ht c hc
    have hn := congrArg UInt8.toNat e
    rw [toNat_toUInt8_of_ascii (by omega)] at hn
    have : (0x0A : UInt8).toNat = 10 := rfl
    omega

/-- A row is read back from its line. -/
theorem loadsBytes_rowLine {row : Value F} (hw : row.Wf) {line : Bytes} (h : rowLine row = some line) :
    loadsBytes line = some row := by
  obtain ⟨t, ht, rfl⟩ := Option.map_eq_some_iff.1 h
  exact loadsBytes_print hw ht (by simp [isBlank])

theorem getLast?_rowLine {row : Value F} (hw : row.Wf) {line : Bytes} (h : rowLine row = some line) :
    line.getLast? = some 0x0A := by
  obtain ⟨t, -, rfl, -⟩ := rowLine_eq hw h
  exact List.getLast?_concat ..

/-- **The rows of a file are its lines.** -/
theorem lines_flatten : ∀ {rows : List (Value F)} {ls : List Bytes}, (∀ row ∈ rows, row.Wf) →
    rows.map rowLine = ls.map some → lines ls.flatten = ls
  | [], [], _, _ => rfl
  | row :: rows, l :: ls, hw, h => by
    obtain ⟨hrow, hrows⟩ := List.cons.inj h
    obtain ⟨t, -, rfl, ht⟩ := rowLine_eq (hw row List.mem_cons_self) hrow
    have ih := lines_flatten (fun r hr => hw r (List.mem_cons_of_mem _ hr)) hrows
    rw [List.flatten_cons, List.append_assoc, List.singleton_append, lines_line ht, ih]

/-! ### One row, on both sides -/

omit [Floats F] in
theorem Status.ofName_name (s : Status) : Status.ofName (.str (text s.name) : Value F) = some s := by
  cases s <;> simp [Status.ofName, Status.all, Status.name, List.find?]

/-- What the recorder does with a row that says what a verdict says. -/
def Folds.record (f : Folds) (v : Verdict) (lastEnd : Option ℤ) : Folds where
  bytes := f.bytes
  hashed := f.hashed
  samples := f.samples + 1
  statuses := Function.update f.statuses v.status (f.statuses v.status + 1)
  phases := Function.update f.phases v.phase {
    samples := (f.phases v.phase).samples + 1
    complete := if v.total.isSome then (f.phases v.phase).complete + 1 else (f.phases v.phase).complete
    peakBytes := match v.total with
      | some total => some (max ((f.phases v.phase).peakBytes.getD 0) total)
      | none => (f.phases v.phase).peakBytes }
  monitorPeak := match v.total with
    | some total => if v.onMonitor then some (max (f.monitorPeak.getD 0) total) else f.monitorPeak
    | none => f.monitorPeak
  maxGap := match lastEnd with
    | none => f.maxGap
    | some last => some (max (f.maxGap.getD 0) (v.startNs - last))

/-- A line read or written. -/
def Folds.stamp (f : Folds) (line : Bytes) : Folds :=
  { f with bytes := f.bytes + line.length, hashed := f.hashed ++ line }

omit [Floats F] in
/-- **What the recorder counts of an accepted row** is in the verdict. -/
theorem Recorder.count_eq {rec : Recorder} {line : Bytes} {row owner : Value F} {sequence last : ℤ} {runId : Text}
    {seen : Table ℤ ℤ} {v : Verdict} (h : Accepted row owner sequence last runId seen v) :
    rec.count line row = some { rec with
      stream := rec.stream ++ line
      folds := (rec.folds.stamp line).record v rec.lastEnd
      lastEnd := some v.endNs } := by
  have hs : Status.ofName (row.get "sample_status") = some v.status := by
    rw [h.status, Status.ofName_name]
  have hp : Phase.ofName ((row.get "phase").get "name") = some v.phase := Phase.ofName_eq_some.2 h.phase
  rw [Recorder.count, hs, hp, h.startNs, h.endNs, ← h.onMonitor]
  dsimp only [Value.int?_int]
  by_cases hc : v.status = .complete
  · obtain ⟨n, hn⟩ := Option.isSome_iff_exists.1 (h.complete.2 hc)
    rw [if_pos hc, h.total, hn]
    cases rec.lastEnd <;>
      simp only [orNull, Value.int?_int, Option.map_some, Folds.addPeak, Folds.stamp, Folds.record, hn,
        Function.update_self, Function.update_idem, Option.isSome_some, if_true]
  · have hn : v.total = none := by
      rw [← Option.not_isSome_iff_eq_none, h.complete]
      exact hc
    rw [if_neg hc]
    cases rec.lastEnd <;>
      simp only [Option.map_some, Folds.stamp, Folds.record, hn, Option.isSome_none, if_false, Bool.false_eq_true]

/-- The recorder's peaks start at zero, which is below any that comes. -/
theorem raise_eq {x : Option ℤ} {y : ℤ} (hy : 0 ≤ y) : some (max (x.getD 0) y) = raise x y := by
  cases x with
  | none => rw [raise, Option.getD_none, max_eq_right hy]; rfl
  | some p => rfl

/-- A new maximum is the one before, or what was added. -/
theorem eq_or_of_raise {x : Option ℤ} {y b : ℤ} (h : raise x y = some b) : b = y ∨ x = some b := by
  cases x with
  | none => exact .inl (Option.some.inj h).symm
  | some p =>
    have h : max p y = b := Option.some.inj h
    rcases max_choice p y with hm | hm
    · exact .inr (by rw [← h, hm])
    · exact .inl (by rw [← h, hm])

omit [Floats F] in
/-- **The two folds take the same step** on an accepted row. -/
theorem Folds.record_eq_tally {f : Folds} {row owner : Value F} {sequence last : ℤ} {runId : Text}
    {seen : Table ℤ ℤ} {v : Verdict} (h : Accepted row owner sequence last runId seen v) :
    f.record v (if f.samples = 0 then none else some last) = f.tally v last := by
  have hgap : 0 ≤ v.startNs - last := by
    have := h.interval.2.2
    omega
  have hmax : (match (if f.samples = 0 then none else some last) with
      | none => f.maxGap
      | some last => some (max (f.maxGap.getD 0) (v.startNs - last))) =
      if f.samples = 0 then f.maxGap else raise f.maxGap (v.startNs - last) := by
    split_ifs
    · rfl
    · exact raise_eq hgap
  unfold Folds.record Folds.tally
  rw [hmax]
  cases hn : v.total with
  | none => rfl
  | some n =>
    simp only [raise_eq (h.nonneg n hn)]

theorem Folds.samples_tally (f : Folds) (v : Verdict) (last : ℤ) : (f.tally v last).samples = f.samples + 1 := rfl

/-- **The recorder beside the auditor** that has read what it has
written. -/
structure Mirrors (rec : Recorder) (l : Ledger F) : Prop where
  folds : l.folds = rec.folds
  lastEnd : rec.lastEnd = if l.folds.samples = 0 then none else some l.last
  hashed : rec.folds.hashed = rec.stream

theorem Recorder.append_inv {rec rec' : Recorder} {row : Value F} (h : rec.append row = some rec') :
    ∃ line, rowLine row = some line ∧ rec.error = none ∧ line.length ≤ maxRecordBytes ∧
      rec.folds.bytes + line.length ≤ rec.maxBytes ∧ rec.folds.samples < rec.maxSamples ∧
      rec.count line row = some rec' := by
  unfold Recorder.append at h
  simp only [bind, Option.bind_eq_some_iff] at h
  obtain ⟨line, hline, members, -, h⟩ := h
  split_ifs at h with hb
  simp only [Bool.or_eq_true, decide_eq_true_eq, not_or, not_lt, not_le, Bool.not_eq_true,
    Option.isSome_eq_false_iff, Option.isNone_iff_eq_none] at hb
  obtain ⟨⟨⟨⟨he, -⟩, hl⟩, hbytes⟩, hs⟩ := hb
  exact ⟨line, hline, he, hl, hbytes, hs, h⟩

/-! ### The auditor's step -/

section

omit [Floats F]

/-- The owner a row is audited against: the first row's. -/
def Ledger.ownerFor (l : Ledger F) (row : Value F) : Value F :=
  if l.owner.isNull then row.get "owner" else l.owner

/-- **How a row passes**: `sample` passes it, and the phases are in order. -/
theorem auditRow_eq_ok {runId : Text} {l l' : Ledger F} {row : Value F} {v : Verdict} :
    auditRow runId l row = .ok (l', v) ↔ row.isObj = true ∧
      sample row (l.ownerFor row) l.folds.samples l.last runId l.seen = .ok v ∧
      ∃ l₁, checkOrder { l with owner := l.ownerFor row, seen := v.seen } v = .ok l₁ ∧
        l' = { l₁ with folds := l₁.folds.tally v l.last, last := v.endNs } := by
  unfold auditRow
  rw [require_bind_eq_ok]
  dsimp only
  rw [bind_eq_ok]
  refine and_congr_right fun _ => ?_
  constructor
  · rintro ⟨v', hv, h⟩
    rw [bind_eq_ok] at h
    obtain ⟨l₁, h1, h⟩ := h
    rw [return_eq_ok, Prod.mk.injEq] at h
    obtain ⟨rfl, rfl⟩ := h
    exact ⟨hv, l₁, h1, rfl⟩
  · rintro ⟨hv, l₁, h1, rfl⟩
    refine ⟨v, hv, ?_⟩
    rw [bind_eq_ok]
    exact ⟨l₁, h1, rfl⟩

/-- **How the phases are in order**, of a row whose phase has an event. -/
theorem checkOrder_some {l l' : Ledger F} {v : Verdict} {ns : ℤ} (hns : v.eventNs = some ns) :
    checkOrder l v = .ok l' ↔ l.lastRank ≤ v.phase.rank ∧ l.lastEventNs ≤ ns ∧
      ∃ l₁, checkBoundary l v ns = .ok l₁ ∧ l' = { l₁ with lastEventNs := ns, lastRank := v.phase.rank } := by
  rw [checkOrder, hns]
  dsimp only
  rw [require_bind_eq_ok, bind_eq_ok, decide_eq_true_eq]
  refine and_congr_right fun _ => ?_
  constructor
  · rintro ⟨l₁, h1, h⟩
    rw [require_bind_eq_ok, decide_eq_true_eq, return_eq_ok] at h
    exact ⟨h.1, l₁, h1, h.2.symm⟩
  · rintro ⟨h0, l₁, h1, rfl⟩
    refine ⟨l₁, h1, ?_⟩
    rw [require_bind_eq_ok, decide_eq_true_eq, return_eq_ok]
    exact ⟨h0, rfl⟩

/-- What the boundaries leave alone. -/
theorem checkBoundary_frame {l l' : Ledger F} {v : Verdict} {ns : ℤ} (h : checkBoundary l v ns = .ok l') :
    l'.folds = l.folds ∧ l'.last = l.last ∧ l'.owner = l.owner ∧ l'.seen = l.seen := by
  unfold checkBoundary at h
  split at h
  · rw [return_eq_ok] at h
    subst h
    exact ⟨rfl, rfl, rfl, rfl⟩
  · rw [return_eq_ok] at h
    subst h
    exact ⟨rfl, rfl, rfl, rfl⟩
  · rw [require_bind_eq_ok, require_bind_eq_ok, return_eq_ok] at h
    obtain ⟨-, -, rfl⟩ := h
    exact ⟨rfl, rfl, rfl, rfl⟩
  · rw [require_bind_eq_ok, return_eq_ok] at h
    obtain ⟨-, rfl⟩ := h
    exact ⟨rfl, rfl, rfl, rfl⟩

/-- What the order of the phases leaves alone. -/
theorem checkOrder_frame {l l' : Ledger F} {v : Verdict} (h : checkOrder l v = .ok l') :
    l'.folds = l.folds ∧ l'.last = l.last ∧ l'.owner = l.owner ∧ l'.seen = l.seen := by
  cases hns : v.eventNs with
  | none =>
    rw [checkOrder, hns] at h
    rw [return_eq_ok] at h
    subst h
    exact ⟨rfl, rfl, rfl, rfl⟩
  | some ns =>
    obtain ⟨-, -, l₁, h1, rfl⟩ := (checkOrder_some hns).1 h
    obtain ⟨hf, hl, ho, hs⟩ := checkBoundary_frame h1
    exact ⟨hf, hl, ho, hs⟩

/-- **The folds of a row that passes**, and where it leaves the stream. -/
theorem auditRow_folds {runId : Text} {l l' : Ledger F} {row : Value F} {v : Verdict}
    (h : auditRow runId l row = .ok (l', v)) :
    Accepted row (l.ownerFor row) l.folds.samples l.last runId l.seen v ∧
      l'.folds = l.folds.tally v l.last ∧ l'.last = v.endNs ∧ l'.owner = l.ownerFor row ∧ l'.seen = v.seen := by
  obtain ⟨-, hs, l₁, h1, rfl⟩ := auditRow_eq_ok.1 h
  obtain ⟨hf, -, ho, hseen⟩ := checkOrder_frame h1
  refine ⟨sample_accepted hs, ?_, rfl, ho, hseen⟩
  show l₁.folds.tally v l.last = _
  rw [hf]

/-- The ledger with a line read. -/
def Ledger.stamp (l : Ledger F) (line : Bytes) : Ledger F := { l with folds := l.folds.stamp line }

end

theorem decode_eq_ok {raw : Bytes} {v : Value F} : decode raw = .ok v ↔ loadsBytes raw = some v := by
  unfold decode
  split
  · rename_i w hw
    rw [return_eq_ok, hw, Option.some.injEq]
  · rename_i hv
    rw [throw_eq_ok, hv, false_iff]
    exact fun h => nomatch h

/-- **How a line passes.** -/
theorem auditLine_eq_ok {runId : Text} {l : Ledger F} {raw : Bytes} {x : Ledger F × Verdict} :
    auditLine runId l raw = .ok x ↔
      (raw.length ≤ maxRecordBytes ∧ l.folds.bytes + raw.length ≤ maxStreamBytes ∧ l.folds.samples < maxSamples) ∧
        raw.getLast? = some 0x0A ∧ ∃ row, loadsBytes raw = some row ∧ auditRow runId (l.stamp raw) row = .ok x := by
  unfold auditLine
  rw [require_bind_eq_ok, require_bind_eq_ok, bind_eq_ok]
  simp only [Bool.and_eq_true, decide_eq_true_eq, beq_iff_eq, and_assoc, decode_eq_ok]
  rfl

/-- **One row on both sides.** Where the recorder appends a row and the
auditor passes its line, the auditor has what the recorder has. -/
theorem Mirrors.step {rec rec' : Recorder} {l l' : Ledger F} {runId : Text} {row : Value F} {line : Bytes}
    {v : Verdict} (hm : Mirrors rec l) (hw : row.Wf) (hline : rowLine row = some line)
    (happ : rec.append row = some rec') (h : auditLine runId l line = .ok (l', v)) : Mirrors rec' l' := by
  obtain ⟨-, -, row', hrow, hrow'⟩ := auditLine_eq_ok.1 h
  rw [loadsBytes_rowLine hw hline] at hrow
  obtain rfl := Option.some.inj hrow
  obtain ⟨hacc, hfolds, hlast, -⟩ := auditRow_folds hrow'
  obtain ⟨line', hline', -, -, -, -, hcount⟩ := Recorder.append_inv happ
  obtain rfl := Option.some.inj (hline.symm.trans hline')
  rw [Recorder.count_eq hacc] at hcount
  obtain rfl := Option.some.inj hcount
  have hsame : (l.stamp line).folds = rec.folds.stamp line := by
    rw [Ledger.stamp, hm.folds]
  have hend : rec.lastEnd = if (rec.folds.stamp line).samples = 0 then none else some (l.stamp line).last := by
    rw [hm.lastEnd, hm.folds]
    rfl
  constructor
  · show l'.folds = (rec.folds.stamp line).record v rec.lastEnd
    rw [hend, Folds.record_eq_tally hacc, hfolds, hsame]
  · show some v.endNs = _
    rw [hfolds, Folds.samples_tally, if_neg (Nat.succ_ne_zero _), hlast]
  · show rec.folds.hashed ++ line = rec.stream ++ line
    rw [hm.hashed]

/-! ### Whole streams -/

/-- The lines a recorder has appended, and what it keeps. -/
structure Appended (rec rec' : Recorder) (ls : List Bytes) : Prop where
  stream : rec'.stream = rec.stream ++ ls.flatten
  error : rec'.error = rec.error
  runId : rec'.runId = rec.runId
  maxBytes : rec'.maxBytes = rec.maxBytes
  maxSamples : rec'.maxSamples = rec.maxSamples
  bytes : rec'.folds.bytes = rec.folds.bytes + ls.flatten.length
  samples : rec'.folds.samples = rec.folds.samples + ls.length

omit [Floats F] in
theorem Recorder.appended_of_count {rec rec' : Recorder} {line : Bytes} {row : Value F}
    (h : rec.count line row = some rec') : Appended rec rec' [line] := by
  unfold Recorder.count at h
  split at h
  · dsimp only at h
    obtain ⟨f, hf, rfl⟩ := Option.map_eq_some_iff.1 h
    have hkept : f.bytes = rec.folds.bytes + line.length ∧ f.samples = rec.folds.samples + 1 := by
      split_ifs at hf
      · obtain ⟨rss, -, rfl⟩ := Option.map_eq_some_iff.1 hf
        exact ⟨rfl, rfl⟩
      · obtain rfl := Option.some.inj hf
        exact ⟨rfl, rfl⟩
    refine ⟨by simp, rfl, rfl, rfl, rfl, ?_, hkept.2⟩
    rw [List.flatten_singleton]
    exact hkept.1
  · cases h

/-- **What a recorder has written** is a line for each row. -/
theorem Recorder.appended_of_appendAll : ∀ {rows : List (Value F)} {rec rec' : Recorder},
    rec.appendAll rows = some rec' → ∃ ls, rows.map rowLine = ls.map some ∧ Appended rec rec' ls
  | [], rec, rec', h => by
    obtain rfl := Option.some.inj h
    exact ⟨[], rfl, by simp, rfl, rfl, rfl, rfl, rfl, rfl⟩
  | row :: rows, rec, rec', h => by
    rw [Recorder.appendAll, Option.bind_eq_some_iff] at h
    obtain ⟨r, hr, h⟩ := h
    obtain ⟨line, hline, -, -, -, -, hcount⟩ := Recorder.append_inv hr
    have h1 := Recorder.appended_of_count hcount
    obtain ⟨ls, hls, h2⟩ := Recorder.appended_of_appendAll h
    refine ⟨line :: ls, by rw [List.map_cons, List.map_cons, hline, hls], ?_, h2.error.trans h1.error,
      h2.runId.trans h1.runId, h2.maxBytes.trans h1.maxBytes, h2.maxSamples.trans h1.maxSamples, ?_, ?_⟩
    · rw [h2.stream, h1.stream, List.flatten_singleton, List.flatten_cons, List.append_assoc]
    · rw [h2.bytes, h1.bytes, List.flatten_singleton, List.flatten_cons, List.length_append, Nat.add_assoc]
    · rw [h2.samples, h1.samples, List.length_singleton, List.length_cons]
      omega

/-- The loop over the lines, a line and the rest. -/
theorem auditLines_cons {runId : Text} {l l' : Ledger F} {line : Bytes} {ls : List Bytes} {vs : List Verdict} :
    auditLines runId l (line :: ls) = .ok (l', vs) ↔ ∃ l₁ v vs', auditLine runId l line = .ok (l₁, v) ∧
      auditLines runId l₁ ls = .ok (l', vs') ∧ vs = v :: vs' := by
  rw [auditLines, bind_eq_ok]
  constructor
  · rintro ⟨⟨l₁, v⟩, h1, h⟩
    dsimp only at h
    rw [bind_eq_ok] at h
    obtain ⟨⟨l₂, vs'⟩, h2, h⟩ := h
    dsimp only at h
    rw [return_eq_ok, Prod.mk.injEq] at h
    obtain ⟨rfl, rfl⟩ := h
    exact ⟨l₁, v, vs', h1, h2, rfl⟩
  · rintro ⟨l₁, v, vs', h1, h2, rfl⟩
    refine ⟨(l₁, v), h1, ?_⟩
    dsimp only
    rw [bind_eq_ok]
    exact ⟨(l', vs'), h2, rfl⟩

omit [Floats F] in
/-- The loop over the rows, a row and the rest. -/
theorem auditRows_cons {runId : Text} {l l' : Ledger F} {row : Value F} {rows : List (Value F)}
    {vs : List Verdict} : auditRows runId l (row :: rows) = .ok (l', vs) ↔ ∃ l₁ v vs',
      auditRow runId l row = .ok (l₁, v) ∧ auditRows runId l₁ rows = .ok (l', vs') ∧ vs = v :: vs' := by
  rw [auditRows, bind_eq_ok]
  constructor
  · rintro ⟨⟨l₁, v⟩, h1, h⟩
    dsimp only at h
    rw [bind_eq_ok] at h
    obtain ⟨⟨l₂, vs'⟩, h2, h⟩ := h
    dsimp only at h
    rw [return_eq_ok, Prod.mk.injEq] at h
    obtain ⟨rfl, rfl⟩ := h
    exact ⟨l₁, v, vs', h1, h2, rfl⟩
  · rintro ⟨l₁, v, vs', h1, h2, rfl⟩
    refine ⟨(l₁, v), h1, ?_⟩
    dsimp only
    rw [bind_eq_ok]
    exact ⟨(l', vs'), h2, rfl⟩

/-- **The folds of a whole stream** agree, whatever run the auditor takes
it for. -/
theorem Mirrors.run {runId : Text} {rows : List (Value F)} {ls : List Bytes} {rec rec' : Recorder}
    {l l' : Ledger F} {vs : List Verdict} (hm : Mirrors rec l) (hw : ∀ row ∈ rows, row.Wf)
    (hls : rows.map rowLine = ls.map some) (happ : rec.appendAll rows = some rec')
    (h : auditLines runId l ls = .ok (l', vs)) : Mirrors rec' l' := by
  induction rows generalizing ls rec l vs with
  | nil =>
    obtain rfl := List.map_eq_nil_iff.1 hls.symm
    obtain rfl := Option.some.inj happ
    rw [auditLines, return_eq_ok, Prod.mk.injEq] at h
    rwa [← h.1]
  | cons row rows ih =>
    cases ls with
    | nil => cases hls
    | cons line ls =>
      obtain ⟨hline, hls⟩ := List.cons.inj hls
      rw [Recorder.appendAll, Option.bind_eq_some_iff] at happ
      obtain ⟨r, hr, happ⟩ := happ
      obtain ⟨l₁, v, vs', h1, h2, -⟩ := auditLines_cons.1 h
      refine ih (hm.step (hw row List.mem_cons_self) hline hr h1) (fun x hx => ?_) hls happ h2
      exact hw x (List.mem_cons_of_mem _ hx)

section

omit [Floats F]

/-- The ledger with other bytes read. -/
def Ledger.marked (l : Ledger F) (bytes : ℕ) (hashed : Bytes) : Ledger F :=
  { l with folds := { l.folds with bytes := bytes, hashed := hashed } }

theorem checkBoundary_marked {l l' : Ledger F} {v : Verdict} {ns : ℤ} (b : ℕ) (hs : Bytes)
    (h : checkBoundary l v ns = .ok l') : checkBoundary (l.marked b hs) v ns = .ok (l'.marked b hs) := by
  unfold checkBoundary at h ⊢
  split at h
  · rw [return_eq_ok] at h
    subst h
    rfl
  · rw [return_eq_ok] at h
    subst h
    rfl
  · rw [require_bind_eq_ok, require_bind_eq_ok, return_eq_ok] at h ⊢
    obtain ⟨h1, h2, rfl⟩ := h
    exact ⟨h1, h2, rfl⟩
  · rw [require_bind_eq_ok, return_eq_ok] at h ⊢
    obtain ⟨h1, rfl⟩ := h
    exact ⟨h1, rfl⟩

/-- **No check reads the bytes.** -/
theorem auditRow_marked {runId : Text} {l l' : Ledger F} {row : Value F} {v : Verdict} (b : ℕ) (hs : Bytes)
    (h : auditRow runId l row = .ok (l', v)) : auditRow runId (l.marked b hs) row = .ok (l'.marked b hs, v) := by
  obtain ⟨hobj, hsample, l₁, h1, rfl⟩ := auditRow_eq_ok.1 h
  refine auditRow_eq_ok.2 ⟨hobj, hsample, l₁.marked b hs, ?_, rfl⟩
  cases hns : v.eventNs with
  | none =>
    rw [checkOrder, hns] at h1 ⊢
    rw [return_eq_ok] at h1 ⊢
    subst h1
    rfl
  | some ns =>
    obtain ⟨hr, he, l₂, h2, rfl⟩ := (checkOrder_some hns).1 h1
    exact (checkOrder_some hns).2 ⟨hr, he, l₂.marked b hs, checkBoundary_marked b hs h2, rfl⟩

end

/-- **Rows that pass, written and read back, pass.** The recorder's bounds
are within the auditor's. -/
theorem auditLines_of_auditRows {runId : Text} {rows : List (Value F)} {ls : List Bytes} {rec rec' : Recorder}
    {l l' : Ledger F} {vs : List Verdict} (hs : Bytes) (hw : ∀ row ∈ rows, row.Wf)
    (hls : rows.map rowLine = ls.map some) (happ : rec.appendAll rows = some rec')
    (hbytes : rec.maxBytes ≤ maxStreamBytes) (hsamples : rec.maxSamples ≤ maxSamples)
    (hcount : l.folds.samples = rec.folds.samples) (h : auditRows runId l rows = .ok (l', vs)) :
    ∃ b' hs', auditLines runId (l.marked rec.folds.bytes hs) ls = .ok (l'.marked b' hs', vs) := by
  induction rows generalizing ls rec l vs hs with
  | nil =>
    obtain rfl := List.map_eq_nil_iff.1 hls.symm
    rw [auditRows, return_eq_ok, Prod.mk.injEq] at h
    obtain ⟨rfl, rfl⟩ := h
    exact ⟨_, _, rfl⟩
  | cons row rows ih =>
    cases ls with
    | nil => cases hls
    | cons line ls =>
      obtain ⟨hline, hls⟩ := List.cons.inj hls
      rw [Recorder.appendAll, Option.bind_eq_some_iff] at happ
      obtain ⟨r, hr, happ⟩ := happ
      obtain ⟨line', hline', -, hlen, hfit, hfew, hc⟩ := Recorder.append_inv hr
      obtain rfl := Option.some.inj (hline.symm.trans hline')
      have happended := Recorder.appended_of_count hc
      obtain ⟨l₁, v, vs', h1, h2, rfl⟩ := auditRows_cons.1 h
      have hb : r.folds.bytes = rec.folds.bytes + line.length := by simpa using happended.bytes
      have hwr := hw row List.mem_cons_self
      have hrow : auditLine runId (l.marked rec.folds.bytes hs) line =
          .ok (l₁.marked r.folds.bytes (hs ++ line), v) := by
        refine auditLine_eq_ok.2 ⟨⟨hlen, hfit.trans hbytes, ?_⟩, getLast?_rowLine hwr hline, row,
          loadsBytes_rowLine hwr hline, ?_⟩
        · show l.folds.samples < maxSamples
          omega
        · rw [hb]
          have hmarked := auditRow_marked (rec.folds.bytes + line.length) (hs ++ line) h1
          exact hmarked
      have hsame : l₁.folds.samples = r.folds.samples := by
        rw [(auditRow_folds h1).2.1, Folds.samples_tally, hcount, happended.samples]
        rfl
      obtain ⟨b', hs', hrest⟩ := ih (hs ++ line) (fun x hx => hw x (List.mem_cons_of_mem _ hx)) hls happ
        (happended.maxBytes ▸ hbytes) (happended.maxSamples ▸ hsamples) hsame h2
      exact ⟨b', hs', auditLines_cons.2 ⟨_, v, vs', hrow, hrest, rfl⟩⟩

/-- **How a stream passes**, with its summary and the Runner's result. -/
theorem exists_of_isSome {x : Except String α} (h : x.toOption.isSome = true) : ∃ a, x = .ok a := by
  cases x with
  | error e => cases h
  | ok a => exact ⟨a, rfl⟩

theorem audit_eq_ok {raw summaryBytes : Bytes} {result : Option Bytes} {report : Report F} :
    audit raw summaryBytes result = .ok report ↔ summaryBytes.length ≤ maxRecordBytes ∧
      ∃ summary : Value F, loadsBytes summaryBytes = some summary ∧ ∃ runId, checkSummary summary = .ok runId ∧
        ∃ l verdicts, auditLines runId ({} : Ledger F) (lines raw) = .ok (l, verdicts) ∧ 0 < l.folds.samples ∧
          checkFields summary l.folds.toFields = .ok () ∧
          checkLegacy summary l.owner l.folds.monitorPeak result = .ok () ∧
          report = ⟨l.folds, verdicts, l.folds.statuses .complete = l.folds.samples,
            0 < l.folds.statuses .partly⟩ := by
  unfold audit
  rw [require_bind_eq_ok, bind_eq_ok, decide_eq_true_eq]
  simp only [decode_eq_ok]
  refine and_congr_right fun _ => exists_congr fun summary => and_congr_right fun _ => ?_
  rw [bind_eq_ok]
  refine exists_congr fun runId => and_congr_right fun _ => ?_
  rw [bind_eq_ok]
  constructor
  · rintro ⟨⟨l, verdicts⟩, hlines, h⟩
    dsimp only at h
    rw [require_bind_eq_ok, bind_eq_ok, decide_eq_true_eq] at h
    obtain ⟨hsome, ⟨⟩, hfields, h⟩ := h
    rw [bind_eq_ok] at h
    obtain ⟨⟨⟩, hlegacy, h⟩ := h
    rw [return_eq_ok] at h
    exact ⟨l, verdicts, hlines, hsome, hfields, hlegacy, h.symm⟩
  · rintro ⟨l, verdicts, hlines, hsome, hfields, hlegacy, rfl⟩
    refine ⟨(l, verdicts), hlines, ?_⟩
    dsimp only
    rw [require_bind_eq_ok, bind_eq_ok, decide_eq_true_eq]
    refine ⟨hsome, (), hfields, ?_⟩
    rw [bind_eq_ok]
    exact ⟨(), hlegacy, rfl⟩

end Bench

end ZkRuntime
