import ZkRuntime.Common.JsonRoom
import ZkRuntime.Bench.Helpers.Folding
/-!
# The summary of a stream

What the recorder keeps has few digits: counts are bounded by the samples, a
peak is the total of some row, and a gap is no longer than the start of a row
(`Folds.Modest`). So the summary is plain, and whichever way it is laid out,
there is room for it in a record (`room_summary`); the auditor reads the rows
back and reports what the recorder folded (`exists_report`).
-/

namespace ZkRuntime

namespace Bench

open PyJson

variable {F : Type}

/-! ### Quantities of few digits -/

/-- **The quantities can be written**, each with the digits a number may
have. -/
structure Folds.Modest (f : Folds) : Prop where
  bytes : f.bytes ≤ maxStreamBytes
  samples : f.samples ≤ maxSamples
  statuses : ∀ s, f.statuses s ≤ f.samples
  counted : ∀ p, (f.phases p).samples ≤ f.samples ∧ (f.phases p).complete ≤ f.samples
  peaks : ∀ p n, (f.phases p).peakBytes = some n → Short n
  monitorPeak : ∀ n, f.monitorPeak = some n → Short n
  maxGap : ∀ n, f.maxGap = some n → Short n

theorem modest_empty : ({} : Folds).Modest where
  bytes := Nat.zero_le _
  samples := Nat.zero_le _
  statuses _ := le_rfl
  counted _ := ⟨le_rfl, le_rfl⟩
  peaks _ _ h := by cases h
  monitorPeak _ h := by cases h
  maxGap _ h := by cases h

theorem short_raise {x : Option ℤ} {y b : ℤ} (hx : ∀ n, x = some n → Short n) (hy : Short y)
    (h : raise x y = some b) : Short b := by
  rcases eq_or_of_raise h with rfl | h
  · exact hy
  · exact hx b h

theorem Folds.Modest.stamp {f : Folds} (h : f.Modest) {line : Bytes} (hb : f.bytes + line.length ≤ maxStreamBytes) :
    (f.stamp line).Modest :=
  ⟨hb, h.samples, h.statuses, h.counted, h.peaks, h.monitorPeak, h.maxGap⟩

/-- A row more. -/
theorem Folds.Modest.tally {f : Folds} (h : f.Modest) {v : Verdict} {last : ℤ} (hs : f.samples < maxSamples)
    (ht : ∀ n, v.total = some n → Short n) (hg : f.samples ≠ 0 → Short (v.startNs - last)) :
    (f.tally v last).Modest where
  bytes := h.bytes
  samples := hs
  statuses s := by
    have hle := h.statuses s
    show Function.update f.statuses v.status (f.statuses v.status + 1) s ≤ f.samples + 1
    by_cases hsv : s = v.status
    · subst hsv
      rw [Function.update_self]
      omega
    · rw [Function.update_of_ne hsv]
      omega
  counted p := by
    have hle := h.counted p
    show (Function.update f.phases v.phase _ p).samples ≤ f.samples + 1 ∧
      (Function.update f.phases v.phase _ p).complete ≤ f.samples + 1
    by_cases hp : p = v.phase
    · subst hp
      rw [Function.update_self]
      dsimp only
      split <;> omega
    · rw [Function.update_of_ne hp]
      omega
  peaks p n hn := by
    change (Function.update f.phases v.phase _ p).peakBytes = some n at hn
    by_cases hp : p = v.phase
    · subst hp
      rw [Function.update_self] at hn
      dsimp only at hn
      split at hn
      next total htotal => exact short_raise (h.peaks _) (ht total htotal) hn
      next => exact h.peaks _ n hn
    · rw [Function.update_of_ne hp] at hn
      exact h.peaks p n hn
  monitorPeak n hn := by
    rw [Folds.tally] at hn
    dsimp only at hn
    split at hn
    next total htotal =>
      split_ifs at hn
      · exact short_raise h.monitorPeak (ht total htotal) hn
      · exact h.monitorPeak n hn
    next => exact h.monitorPeak n hn
  maxGap n hn := by
    rw [Folds.tally] at hn
    dsimp only at hn
    split_ifs at hn with h0
    · exact h.maxGap n hn
    · exact short_raise h.maxGap (hg h0) hn

/-- **A ledger of few digits**, which has read rows that began at no negative
time. -/
structure Ledger.Modest (l : Ledger F) : Prop where
  folds : l.folds.Modest
  last : l.folds.samples ≠ 0 → 0 ≤ l.last

variable [Floats F]

/-- **A line keeps it so**: what it adds to the quantities is written in it. -/
theorem Ledger.Modest.line {l l' : Ledger F} (h : l.Modest) {runId : Text} {row : Value F} {line : Bytes}
    {v : Verdict} (hw : row.Wf) (hline : rowLine row = some line) (ha : auditLine runId l line = .ok (l', v)) :
    l'.Modest := by
  obtain ⟨⟨-, hbytes, hfew⟩, -, row', hrow', hrow⟩ := auditLine_eq_ok.1 ha
  rw [loadsBytes_rowLine hw hline] at hrow'
  obtain rfl := Option.some.inj hrow'
  obtain ⟨hacc, hfolds, hlast, -⟩ := auditRow_folds hrow
  obtain ⟨t, ht, -⟩ := Option.map_eq_some_iff.1 hline
  obtain ⟨hstart, hstop, hafter⟩ := hacc.interval
  have hshort : Short v.startNs := short_of_dumps ht hacc.startNs
  constructor
  · rw [hfolds]
    refine (h.folds.stamp hbytes).tally hfew (fun n hn => ?_) fun h0 => ?_
    · have htotal := hacc.total
      rw [hn] at htotal
      exact short_of_dumps ht htotal
    · have := h.last h0
      exact hshort.of_le (by omega) (by show v.startNs - l.last ≤ v.startNs; omega)
  · intro _
    rw [hlast]
    omega

theorem Ledger.Modest.lines {runId : Text} {rows : List (Value F)} {ls : List Bytes} {l l' : Ledger F}
    {vs : List Verdict} (h : l.Modest) (hw : ∀ row ∈ rows, row.Wf) (hls : rows.map rowLine = ls.map some)
    (ha : auditLines runId l ls = .ok (l', vs)) : l'.Modest := by
  induction rows generalizing ls l vs with
  | nil =>
    obtain rfl := List.map_eq_nil_iff.1 hls.symm
    rw [auditLines, return_eq_ok, Prod.mk.injEq] at ha
    exact ha.1 ▸ h
  | cons row rows ih =>
    cases ls with
    | nil => cases hls
    | cons line ls =>
      obtain ⟨hline, hls⟩ := List.cons.inj hls
      obtain ⟨l₁, v, vs', h1, h2, -⟩ := auditLines_cons.1 ha
      exact ih (h.line (hw row List.mem_cons_self) hline h1) (fun r hr => hw r (List.mem_cons_of_mem _ hr)) hls h2

/-! ### The fields of a summary -/

omit [Floats F]

theorem plainText_hexdigest (bs : Bytes) : PlainText (hexdigest bs) := by
  have hchar : ∀ n : ℕ, n < 16 → 0x20 ≤ hexChar n ∧ hexChar n ≤ 0x7E ∧ hexChar n ≠ 0x22 ∧ hexChar n ≠ 0x5C := by
    decide
  intro c hc
  obtain ⟨b, -, hb⟩ := List.mem_flatMap.1 hc
  have hlt := b.toNat_lt
  simp only [List.mem_cons, List.not_mem_nil, or_false] at hb
  rcases hb with rfl | rfl
  · exact hchar _ (by omega)
  · exact hchar _ (by omega)

theorem length_sum256 (bs : Bytes) : (Sha256.sum256 bs).length = 32 := by
  simp only [Sha256.sum256, List.length_flatMap, List.map_cons, List.map_nil, Sha256.wordBytes, List.length_cons,
    List.length_nil, List.sum_cons, List.sum_nil, Nat.reduceAdd]

theorem length_hexdigest (bs : Bytes) : (hexdigest bs).length = 64 := by
  simp [hexdigest, List.length_flatMap, length_sum256]

theorem plain_orNull {x : Option ℤ} (h : ∀ n, x = some n → Short n) : Plain (orNull .int x : Value F) := by
  cases x with
  | none => exact .null
  | some n => exact .int (h n rfl)

theorem short_of_le {n k : ℕ} (h : n ≤ k) (hk : k < 10 ^ 8) : Short n := short_natCast (lt_of_le_of_lt h hk)

theorem room_orNull {L : Layout} {d : ℕ} {x : Option ℤ} : room L d (orNull .int x : Value F) ≤ maxDigits + 1 := by
  cases x with
  | none => exact Nat.le_add_left 4 _
  | some n => exact le_rfl

theorem short_maxOf {xs : List (Option ℤ)} (h : ∀ n, some n ∈ xs → Short n) {n : ℤ} (hn : maxOf xs = some n) :
    Short n := by
  induction xs generalizing n with
  | nil => cases hn
  | cons x xs ih =>
    have ih := @ih fun n hn => h n (List.mem_cons_of_mem _ hn)
    cases x with
    | none => exact ih hn
    | some x =>
      have hx := h x List.mem_cons_self
      rw [maxOf] at hn
      obtain rfl := Option.some.inj hn
      cases hm : maxOf xs with
      | none => exact hx
      | some m =>
        show Short (max x m)
        rcases max_choice x m with e | e
        · rwa [e]
        · rw [e]
          exact ih hm

/-- **The fields are plain.** -/
theorem Folds.Modest.plain {f : Folds} (h : f.Modest) {field : String × Value F} (hf : field ∈ f.toFields) :
    Plain field.2 := by
  have hcount : ∀ n, n ≤ f.samples → Plain (.int n : Value F) := fun n hn =>
    .int (short_of_le (hn.trans h.samples) (by decide))
  simp only [Folds.toFields, List.mem_cons, List.not_mem_nil, or_false] at hf
  rcases hf with rfl | rfl | rfl | rfl | rfl | rfl | rfl | rfl | rfl
  · refine plain_record (rfl : _ = ["bytes", "sha256"]) (by decide) ?_
    simp only [List.forall_mem_cons, List.not_mem_nil, false_imp_iff, implies_true, and_true]
    exact ⟨.int (short_of_le h.bytes (by decide)), .str (plainText_hexdigest _)⟩
  · exact hcount _ le_rfl
  · refine plain_record (rfl : _ = Status.all.map Status.name) (by decide) fun m hm => ?_
    obtain ⟨s, -, rfl⟩ := List.mem_map.1 hm
    exact hcount _ (h.statuses s)
  · refine plain_record (rfl : _ = Phase.all.map Phase.name) (by decide) fun m hm => ?_
    obtain ⟨p, -, rfl⟩ := List.mem_map.1 hm
    refine plain_record (rfl : _ = ["samples", "complete", "peak_bytes"]) (by decide) ?_
    simp only [List.forall_mem_cons, List.not_mem_nil, false_imp_iff, implies_true, and_true]
    exact ⟨hcount _ (h.counted p).1, hcount _ (h.counted p).2, plain_orNull (h.peaks p)⟩
  · exact plain_orNull h.monitorPeak
  · exact plain_orNull h.maxGap
  · refine plain_orNull fun n hn => short_maxOf (fun m hm => ?_) hn
    obtain ⟨p, -, hp⟩ := List.mem_map.1 hm
    exact h.peaks p m hp
  · refine .str ?_
    dsimp only [coverage]
    split_ifs <;> decide
  · exact .null

theorem wf_orNull {x : Option ℤ} : (orNull .int x : Value F).Wf := by
  cases x with
  | none => exact .null
  | some n => exact .int n

/-- The fields are values JSON can carry. -/
theorem wf_field {f : Folds} {field : String × Value F} (hf : field ∈ f.toFields) : field.2.Wf := by
  have hint : ∀ n : ℤ, (Value.int n : Value F).Wf := .int
  simp only [Folds.toFields, List.mem_cons, List.not_mem_nil, or_false] at hf
  rcases hf with rfl | rfl | rfl | rfl | rfl | rfl | rfl | rfl | rfl
  · exact Value.wf_record (by simp [hint, Value.Wf.str (plainText_hexdigest _).proper])
  · exact hint _
  · refine Value.wf_record fun m hm => ?_
    obtain ⟨s, -, rfl⟩ := List.mem_map.1 hm
    exact hint _
  · refine Value.wf_record fun m hm => ?_
    obtain ⟨p, -, rfl⟩ := List.mem_map.1 hm
    exact Value.wf_record (by simp [hint, wf_orNull])
  · exact wf_orNull
  · exact wf_orNull
  · exact wf_orNull
  · exact .str (proper_text _)
  · exact .null

/-! ### The summary -/

/-- White space that grows with the depth alone. -/
def Narrow (L : Layout) : Prop := ∀ d, (L.gap d).length ≤ 2 * d + 1 ∧ (L.sep d).length ≤ 2 * d + 1

theorem narrow_oneLine : Narrow oneLine := fun d => by simp [oneLine]

theorem narrow_indented : Narrow indented := fun d => by simp [indented]

theorem room_int {L : Layout} {d : ℕ} {n : ℤ} : room L d (.int n : Value F) = maxDigits + 1 := rfl

theorem room_null {L : Layout} {d : ℕ} : room L d (.null : Value F) = 4 := rfl

theorem room_bool {L : Layout} {d : ℕ} {b : Bool} : room L d (.bool b : Value F) = 5 := rfl

theorem room_str {L : Layout} {d : ℕ} {t : Text} : room L d (.str t : Value F) = t.length + 2 := rfl

/-- The members of a built object take their room each. -/
theorem room_record_le {L : Layout} {d k w : ℕ} {ms : List (String × Value F)} {names : List String}
    (hk : ms.map (·.1) = names) (hn : ∀ name ∈ names, (text name).length ≤ k)
    (hw : ∀ m ∈ ms, room L (d + 1) m.2 ≤ w) : room L d (.record ms) ≤
      ms.length * ((L.sep (d + 1)).length + k + 5 + w) + ((L.gap (d + 1)).length + (L.gap d).length + 2) := by
  refine room_record.trans (Nat.add_le_add_right ?_ _)
  rw [← smul_eq_mul, ← List.length_map (fun m : String × Value F => (L.sep (d + 1)).length + (text m.1).length + 5 +
    room L (d + 1) m.2)]
  refine List.sum_le_card_nsmul _ _ fun x hx => ?_
  obtain ⟨m, hm, rfl⟩ := List.mem_map.1 hx
  have := hn _ (hk ▸ List.mem_map_of_mem hm)
  have := hw m hm
  omega

theorem room_phase {L : Layout} (hL : Narrow L) {c : PhaseCount} :
    room L 2 (c.toJson : Value F) ≤ 3 * (maxDigits + 1) + 100 := by
  have h2 := hL 2
  have h3 := hL (2 + 1)
  refine le_trans (room_record_le (k := 10) (w := maxDigits + 1) (rfl : _ = ["samples", "complete", "peak_bytes"])
    (by decide) ?_) ?_
  · simp only [List.forall_mem_cons, List.not_mem_nil, false_imp_iff, implies_true, and_true, room_int, le_refl, true_and]
    exact room_orNull
  · simp only [List.length_cons, List.length_nil]
    omega

/-- A storage error that a summary can tell. -/
def Recorder.Tells (rec : Recorder) : Prop := ∀ e, rec.error = some e → PlainText (text e) ∧ (text e).length ≤ 40

theorem Recorder.tells_shut {rec : Recorder} (herr : rec.error = none) (closes : Bool) : (rec.shut closes).Tells := by
  intro e he
  cases closes with
  | true => cases herr.symm.trans he
  | false =>
    cases he
    exact ⟨by decide, by decide⟩

/-- **There is room for the summary** in a record, and for a line break. -/
theorem room_summary {L : Layout} (hL : Narrow L) {rec : Recorder} (herr : rec.Tells)
    (hrun : rec.runId.length = 32) {legacy : Option ℤ} :
    room L 0 (rec.summary legacy : Value F) + 1 ≤ maxRecordBytes := by
  have h0 := hL 0
  have h1 := hL 1
  have h2 := hL (1 + 1)
  have hraw : room L 1 (.record [("bytes", .int rec.folds.bytes),
      ("sha256", .str (hexdigest rec.folds.hashed))] : Value F) ≤ 2 * (maxDigits + 1) + 100 := by
    refine le_trans (room_record_le (k := 6) (w := maxDigits + 1) (rfl : _ = ["bytes", "sha256"]) (by decide) ?_) ?_
    · simp only [List.forall_mem_cons, List.not_mem_nil, false_imp_iff, implies_true, and_true, room_int, le_refl,
        true_and, room_str, length_hexdigest]
      decide
    · simp only [List.length_cons, List.length_nil]
      omega
  have hstatuses : room L 1 (.record (Status.all.map fun s => (s.name, .int (rec.folds.statuses s))) :
      Value F) ≤ 5 * (maxDigits + 1) + 200 := by
    refine le_trans (room_record_le (k := 15) (w := maxDigits + 1) (rfl : _ = Status.all.map Status.name)
      (by decide) ?_) ?_
    · intro m hm
      obtain ⟨s, -, rfl⟩ := List.mem_map.1 hm
      exact le_rfl
    · simp only [List.length_map, Status.all, List.length_cons, List.length_nil]
      omega
  have hphases : room L 1 (.record (Phase.all.map fun p => (p.name, (rec.folds.phases p).toJson)) :
      Value F) ≤ 12 * (maxDigits + 1) + 600 := by
    refine le_trans (room_record_le (k := 9) (w := 3 * (maxDigits + 1) + 100) (rfl : _ = Phase.all.map Phase.name)
      (by decide) ?_) ?_
    · intro m hm
      obtain ⟨p, -, rfl⟩ := List.mem_map.1 hm
      exact room_phase hL
    · simp only [List.length_map, Phase.all, List.length_cons, List.length_nil]
      omega
  have hcoverage : (text (coverage (rec.folds.phases .workload))).length ≤ 40 := by
    unfold coverage
    split_ifs <;> decide
  have hmonitor := room_orNull (F := F) (L := L) (d := 1) (x := rec.folds.monitorPeak)
  have hgap := room_orNull (F := F) (L := L) (d := 1) (x := rec.folds.maxGap)
  have hpeak := room_orNull (F := F) (L := L) (d := 1)
    (x := maxOf (Phase.all.map fun p => (rec.folds.phases p).peakBytes))
  have hlegacy := room_orNull (F := F) (L := L) (d := 1) (x := legacy)
  have hnames : ∀ name ∈ ["contract", "schema_version", "run_id", "legacy_runner_peak_bytes", "storage_complete",
      "storage_error", "raw", "samples", "status_counts", "phases", "runner_monitor_peak_bytes", "max_gap_ns",
      "complete_sample_peak_bytes", "workload_coverage", "actual_lifetime_peak_bytes", contract],
      (text name).length ≤ 26 := by decide
  simp only [List.forall_mem_cons, List.not_mem_nil, false_imp_iff, implies_true, and_true] at hnames
  have hmax : maxDigits = 4300 := rfl
  have hstorage : room L 1 (orNull (fun e => .str (text e)) rec.error : Value F) ≤ 42 := by
    cases he : rec.error with
    | none => exact Nat.le_add_left 4 _
    | some e => exact Nat.add_le_add_right (herr e he).2 2
  refine (Nat.add_le_add_right room_record 1).trans ?_
  simp only [Folds.toFields, List.cons_append, List.nil_append, List.map_cons, List.map_nil, List.sum_cons,
    List.sum_nil, room_int, room_str, room_bool, room_null, hrun, maxRecordBytes, Nat.zero_add]
  omega

theorem plainText_runId {t : Text} (h : isRunId t = true) : t.length = 32 ∧ PlainText t := by
  rw [isRunId, Bool.and_eq_true, decide_eq_true_eq, List.all_eq_true] at h
  refine ⟨h.1, fun c hc => ?_⟩
  have := h.2 c hc
  simp only [Bool.or_eq_true, Bool.and_eq_true, decide_eq_true_eq] at this
  omega

/-- A field of a summary under its name. -/
theorem find?_summary {rec : Recorder} {legacy : Option ℤ} {field : String × Value F} (hf : field ∈ rec.folds.toFields) :
    (rec.summary legacy).find? field.1 = some field.2 := by
  simp only [Folds.toFields, List.mem_cons, List.not_mem_nil, or_false] at hf
  rcases hf with rfl | rfl | rfl | rfl | rfl | rfl | rfl | rfl | rfl <;>
    simp [Recorder.summary, Folds.toFields]

/-- **The summary is plain.** -/
theorem plain_summary {rec : Recorder} (h : rec.folds.Modest) (herr : rec.Tells) (hrun : isRunId rec.runId = true)
    {legacy : Option ℤ} (hlegacy : ∀ n, legacy = some n → Short n) : Plain (rec.summary legacy : Value F) := by
  refine plain_record (rfl : _ = ["contract", "schema_version", "run_id", "legacy_runner_peak_bytes",
    "storage_complete", "storage_error", "raw", "samples", "status_counts", "phases", "runner_monitor_peak_bytes",
    "max_gap_ns", "complete_sample_peak_bytes", "workload_coverage", "actual_lifetime_peak_bytes"]) (by decide)
    fun m hm => ?_
  rcases List.mem_append.1 hm with hm | hm
  · simp only [List.mem_cons, List.not_mem_nil, or_false] at hm
    rcases hm with rfl | rfl | rfl | rfl | rfl | rfl
    · exact .str (by decide)
    · exact .int (short_natCast (n := 1) (by decide))
    · exact .str (plainText_runId hrun).2
    · exact plain_orNull hlegacy
    · exact .bool _
    · cases he : rec.error with
      | none => exact .null
      | some e => exact .str (herr e he).1
  · exact h.plain hm

theorem wf_summary {rec : Recorder} (hrun : isRunId rec.runId = true) {legacy : Option ℤ} :
    (rec.summary legacy : Value F).Wf := by
  refine Value.wf_record fun m hm => ?_
  rcases List.mem_append.1 hm with hm | hm
  · simp only [List.mem_cons, List.not_mem_nil, or_false] at hm
    rcases hm with rfl | rfl | rfl | rfl | rfl | rfl
    · exact .str (proper_text _)
    · exact .int _
    · exact .str (plainText_runId hrun).2.proper
    · exact wf_orNull
    · exact .bool _
    · cases rec.error with
      | none => exact .null
      | some e => exact .str (proper_text e)
  · exact wf_field hm

/-- **The summary is written**, in a file the auditor reads whole and finds it
in. -/
theorem exists_summary [Floats F] {L : Layout} (hL : Narrow L) {rec : Recorder} (h : rec.folds.Modest)
    (herr : rec.Tells) (hrun : isRunId rec.runId = true) {legacy : Option ℤ}
    (hlegacy : ∀ n, legacy = some n → Short n) {g : Text} (hg : g.length ≤ 1) (hblank : ∀ c ∈ g, isBlank c = true) :
    ∃ t, print L 0 (rec.summary legacy : Value F) = some t ∧ (encodeText (t ++ g)).length ≤ maxRecordBytes ∧
      loadsBytes (encodeText (t ++ g)) = some (rec.summary legacy : Value F) := by
  obtain ⟨t, ht, hlen⟩ := exists_print (L := L) (plain_summary (F := F) h herr hrun hlegacy) 0
  refine ⟨t, ht, ?_, loadsBytes_print (wf_summary hrun) ht hblank⟩
  have hroom : room L 0 (rec.summary legacy : Value F) + 1 ≤ maxRecordBytes :=
    room_summary hL herr (plainText_runId hrun).1
  rw [encodeText, List.length_map, List.length_append]
  omega

/-- Closing the stream leaves what the recorder has kept. -/
@[simp] theorem Recorder.folds_shut {rec : Recorder} {closes : Bool} : (rec.shut closes).folds = rec.folds := by
  cases closes <;> rfl

@[simp] theorem Recorder.runId_shut {rec : Recorder} {closes : Bool} : (rec.shut closes).runId = rec.runId := by
  cases closes <;> rfl

/-- Whether the stream closes or not, what `close` returns is written. -/
theorem exists_close [Floats F] {L : Layout} (hL : Narrow L) {rec : Recorder} (h : rec.folds.Modest)
    (herr : rec.error = none) (hrun : isRunId rec.runId = true) (closes : Bool) {legacy : Option ℤ}
    (hlegacy : ∀ n, legacy = some n → Short n) {g : Text} (hg : g.length ≤ 1) (hblank : ∀ c ∈ g, isBlank c = true) :
    ∃ t, print L 0 (rec.close closes legacy : Value F) = some t ∧ (encodeText (t ++ g)).length ≤ maxRecordBytes ∧
      loadsBytes (encodeText (t ++ g)) = some (rec.close closes legacy : Value F) := by
  have hfolds : (rec.shut closes).folds.Modest := by rwa [Recorder.folds_shut]
  have hid : isRunId (rec.shut closes).runId = true := by rwa [Recorder.runId_shut]
  exact exists_summary hL hfolds (Recorder.tells_shut herr closes) hid hlegacy hg hblank

/-! ### The checks of a summary -/

/-- **A summary is taken up where it tells no storage error.** -/
theorem checkSummary_summary {rec : Recorder} (hrun : isRunId rec.runId = true) {legacy : Option ℤ} :
    checkSummary (rec.summary legacy : Value F) =
      if rec.error = none then .ok rec.runId else .error "incomplete evidence storage" := by
  have hobj : (rec.summary legacy : Value F).isObj = true := rfl
  have hcontract : (rec.summary legacy : Value F).get "contract" = .str (text contract) :=
    Value.get_of_find? (by simp [Recorder.summary])
  have hversion : (rec.summary legacy : Value F).get "schema_version" = .int version :=
    Value.get_of_find? (by simp [Recorder.summary])
  have hid : (rec.summary legacy : Value F).get "run_id" = .str rec.runId :=
    Value.get_of_find? (by simp [Recorder.summary])
  have hcomplete : (rec.summary legacy : Value F).get "storage_complete" = .bool rec.error.isNone :=
    Value.get_of_find? (by simp [Recorder.summary])
  have hstorage : (rec.summary legacy : Value F).get "storage_error" = orNull (fun e => .str (text e)) rec.error :=
    Value.get_of_find? (by simp [Recorder.summary])
  have hhead : (isText (.str (text contract) : Value F) contract && (.int version : Value F).int? == some version) =
      true := by simp [isText]
  unfold checkSummary
  rw [hobj, hcontract, hversion, hid, hcomplete, hstorage, Bool.true_and, hhead]
  dsimp only [Value.str?]
  rw [hrun]
  cases rec.error with
  | none => rfl
  | some e => rfl

/-- **A stream that did not close is incomplete evidence**, whatever is in
it. -/
theorem audit_unclosed [Floats F] {rec : Recorder} (hrun : isRunId rec.runId = true) {legacy : Option ℤ}
    {raw summaryBytes : Bytes} {result : Option Bytes} (hlen : summaryBytes.length ≤ maxRecordBytes)
    (hread : loadsBytes summaryBytes = some (rec.close false legacy : Value F)) :
    (audit raw summaryBytes result : Except String (Report F)) = .error "incomplete evidence storage" := by
  have hid : isRunId (rec.shut false).runId = true := hrun
  have herr : (rec.shut false).error ≠ none := by rintro ⟨⟩
  have hcheck : checkSummary (rec.close false legacy : Value F) = .error "incomplete evidence storage" :=
    (checkSummary_summary hid).trans (if_neg herr)
  unfold audit
  rw [decide_eq_true hlen, decode_eq_ok.2 hread]
  dsimp only [require, Bind.bind, Except.bind]
  rw [if_pos rfl]
  dsimp only [Pure.pure, Except.pure]
  rw [hcheck]

theorem legacy_summary {rec : Recorder} {legacy : Option ℤ} :
    (rec.summary legacy : Value F).get "legacy_runner_peak_bytes" = orNull .int legacy :=
  Value.get_of_find? (by simp [Recorder.summary])

variable [Floats F]

/-- Where there is no legacy peak, none is checked. -/
theorem checkLegacy_none {rec : Recorder} {owner : Value F} {monitorPeak : Option ℤ} {result : Option Bytes} :
    checkLegacy (rec.summary none) owner monitorPeak result = .ok () := by
  unfold checkLegacy
  rw [legacy_summary]
  rfl

theorem checkField_eq_ok {summary : Value F} {field : String × Value F} : checkField summary field = .ok () ↔
    ∃ v t, summary.find? field.1 = some v ∧ dumps v = some t ∧ dumps field.2 = some t := by
  unfold checkField
  rw [require_bind_eq_ok, Option.isSome_iff_exists]
  constructor
  · rintro ⟨⟨v, hv⟩, h⟩
    rw [Value.get_of_find? hv] at h
    split at h
    next a b ha hb =>
      have hab := of_decide_eq_true (require_eq_ok.1 h)
      exact ⟨v, a, hv, ha, hab ▸ hb⟩
    next => rw [throw_eq_ok] at h; exact h.elim
  · rintro ⟨v, t, hv, ha, hb⟩
    refine ⟨⟨v, hv⟩, ?_⟩
    rw [Value.get_of_find? hv, ha, hb]
    exact require_eq_ok.2 (decide_eq_true rfl)

/-- **Every derived quantity is the summary's**, as canonical JSON. -/
theorem checkFields_eq_ok {summary : Value F} {fields : List (String × Value F)} :
    checkFields summary fields = .ok () ↔ ∀ field ∈ fields, ∃ v t, summary.find? field.1 = some v ∧
      dumps v = some t ∧ dumps field.2 = some t := by
  induction fields with
  | nil => exact ⟨fun _ _ h => absurd h List.not_mem_nil, fun _ => rfl⟩
  | cons field fields ih =>
    rw [checkFields, bind_eq_ok, List.forall_mem_cons, ← checkField_eq_ok, ← ih]
    exact ⟨fun ⟨⟨⟩, h, hs⟩ => ⟨h, hs⟩, fun ⟨h, hs⟩ => ⟨(), h, hs⟩⟩

/-! ### The stream of rows that pass -/

variable {runId : Text} {bytes samples : ℕ} {rows : List (Value F)} {rec : Recorder}

/-- The lines of the stream are those of the rows. -/
theorem lines_stream (hw : ∀ row ∈ rows, row.Wf) (happ : (Recorder.new runId bytes samples).appendAll rows = some rec) :
    rows.map rowLine = (lines rec.stream).map some ∧
      Appended (Recorder.new runId bytes samples) rec (lines rec.stream) := by
  obtain ⟨ls, hls, hall⟩ := Recorder.appended_of_appendAll happ
  have hstream : rec.stream = ls.flatten := hall.stream
  rw [hstream, lines_flatten hw hls]
  exact ⟨hls, hall⟩

/-- They are read back as the rows. -/
theorem loads_lines : ∀ {rows : List (Value F)} {ls : List Bytes}, (∀ row ∈ rows, row.Wf) →
    rows.map rowLine = ls.map some → ls.map loadsBytes = rows.map some
  | [], [], _, _ => rfl
  | row :: rows, line :: ls, hw, h => by
    obtain ⟨hline, hls⟩ := List.cons.inj h
    rw [List.map_cons, List.map_cons, loadsBytes_rowLine (hw row List.mem_cons_self) hline,
      loads_lines (fun r hr => hw r (List.mem_cons_of_mem _ hr)) hls]

/-- **What the auditor folds of the stream is what the recorder keeps**, and
it can be written. -/
theorem folds_eq (hw : ∀ row ∈ rows, row.Wf) (happ : (Recorder.new runId bytes samples).appendAll rows = some rec)
    {id : Text} {l : Ledger F} {vs : List Verdict} (ha : auditLines id ({} : Ledger F) (lines rec.stream) = .ok (l, vs)) :
    l.folds = rec.folds ∧ rec.folds.Modest := by
  obtain ⟨hls, -⟩ := lines_stream hw happ
  have hstart : Mirrors (Recorder.new runId bytes samples) ({} : Ledger F) := ⟨rfl, rfl, rfl⟩
  have hfolds := (hstart.run hw hls happ ha).folds
  have hmodest : ({} : Ledger F).Modest := ⟨modest_empty, fun h => absurd rfl h⟩
  exact ⟨hfolds, hfolds ▸ (hmodest.lines hw hls ha).folds⟩

/-- Rows that pass are passed in the stream. -/
theorem exists_ledger (hw : ∀ row ∈ rows, row.Wf) (happ : (Recorder.new runId bytes samples).appendAll rows = some rec)
    {l : Ledger F} {vs : List Verdict} (hp : auditRows runId ({} : Ledger F) rows = .ok (l, vs)) :
    ∃ l' : Ledger F, auditLines runId ({} : Ledger F) (lines rec.stream) = .ok (l', vs) := by
  obtain ⟨hls, -⟩ := lines_stream hw happ
  obtain ⟨b', hs', h⟩ := auditLines_of_auditRows (l := ({} : Ledger F)) [] hw hls happ (min_le_right _ _)
    (min_le_right _ _) rfl hp
  exact ⟨_, h⟩

/-- **The auditor accepts the summary** of a stream that closed, where the
legacy peak passes. -/
theorem exists_report {l : Ledger F} {vs : List Verdict} (hid : isRunId runId = true) (hne : rows ≠ [])
    (hw : ∀ row ∈ rows, row.Wf) (hp : auditRows runId ({} : Ledger F) rows = .ok (l, vs))
    (happ : (Recorder.new runId bytes samples).appendAll rows = some rec) {legacy : Option ℤ}
    {result : Option Bytes} {summaryBytes : Bytes} (hlen : summaryBytes.length ≤ maxRecordBytes)
    (hread : loadsBytes summaryBytes = some (rec.close true legacy : Value F))
    (hlegacy : ∀ l' : Ledger F, auditLines runId ({} : Ledger F) (lines rec.stream) = .ok (l', vs) →
      checkLegacy (rec.summary legacy) l'.owner rec.folds.monitorPeak result = .ok ()) :
    ∃ report : Report F, audit rec.stream summaryBytes result = .ok report ∧ report.derived = rec.folds := by
  obtain ⟨hls, happended⟩ := lines_stream hw happ
  obtain ⟨l', ha⟩ := exists_ledger hw happ hp
  obtain ⟨hfolds, hmodest⟩ := folds_eq hw happ ha
  have herr : rec.error = none := happended.error
  have hrun : rec.runId = runId := happended.runId
  refine ⟨_, audit_eq_ok.2 ⟨hlen, _, hread, _, (checkSummary_summary (hrun ▸ hid)).trans (if_pos herr), l', vs, hrun ▸ ha, ?_, ?_,
    hfolds ▸ hlegacy l' ha, rfl⟩, hfolds⟩
  · have hlines : rows.length = (lines rec.stream).length := by simpa using congrArg List.length hls
    have hpos := List.length_pos_iff.2 hne
    rw [hfolds, happended.samples]
    omega
  · rw [checkFields_eq_ok, hfolds]
    intro field hf
    obtain ⟨t, ht, -⟩ := exists_print (L := oneLine) (hmodest.plain hf) 0
    exact ⟨_, t, find?_summary hf, ht, ht⟩

end Bench

end ZkRuntime
