import ZkRuntime.Bench.Chronology
/-!
# The recorder and the auditor

The recorder and the auditor fold one stream, each in its own way. For rows
that pass, written by a recorder with whatever bounds, the auditor accepts
the summary the recorder closes with, and derives from the stream what is in
it; and it accepts no summary that says anything else of those quantities. A
stream that does not close is a storage failure, which the summary tells, and
the auditor rejects it whatever is in the stream.
-/

namespace ZkRuntime

namespace Bench

namespace Recording

open PyJson

variable {F : Type} [Floats F]

/-- **The Runner has published a peak**, in the bytes of its result, for the
owner of a row. -/
def Published (bytes : Bytes) (row : Value F) (peak : ℤ) : Prop :=
  bytes.length ≤ 2 * 1024 * 1024 ∧ ∃ runner : Value F, loadsBytes bytes = some runner ∧ runner.isObj = true ∧
    identity (runner.get "owner") = identity (row.get "owner") ∧
    ∃ kib, runner.get "sampled_group_peak_rss_kib" = .int kib ∧ 0 ≤ kib ∧ kib * 1024 = peak

/-- **The legacy peak matches**: there is none, or it is the monitor's peak,
and the Runner has published it. -/
def Matches (rec : Recorder) (rows : List (Value F)) (legacy : Option ℤ) (result : Option Bytes) : Prop :=
  ∀ peak, legacy = some peak → rec.folds.monitorPeak = some peak ∧
    ∃ bytes, result = some bytes ∧ ∃ row ∈ rows, Published bytes row peak

/-- A legacy peak that matches passes. -/
theorem checkLegacy_summary {rec : Recorder} {rows : List (Value F)} {owner : Value F} {o : Identity}
    {legacy : Option ℤ} {result : Option Bytes} (h : Matches rec rows legacy result)
    (howner : identity owner = .ok o) (howners : ∀ row ∈ rows, identity (row.get "owner") = .ok o) :
    checkLegacy (rec.summary legacy) owner rec.folds.monitorPeak result = .ok () := by
  cases legacy with
  | none => exact checkLegacy_none
  | some peak =>
    obtain ⟨hpeak, bytes, rfl, row, hrow, hlen, runner, hread, hobj, hid, kib, hkib, h0, hk⟩ := h peak rfl
    have hfound : identity (runner.get "owner") = .ok o := hid.trans (howners row hrow)
    have hread' : decode bytes = .ok runner := decode_eq_ok.2 hread
    have hpos : 0 ≤ peak := by omega
    have hint : (orNull .int (some peak) : Value F) = .int peak := rfl
    unfold checkLegacy
    rw [legacy_summary, hint, if_neg (by rw [Value.isNull_int]; exact Bool.false_ne_true), Value.int?_int]
    rw [require_bind_eq_ok, require_bind_eq_ok, hpeak]
    refine ⟨decide_eq_true hpos, beq_self_eq_true _, ?_⟩
    dsimp only
    rw [require_bind_eq_ok, bind_eq_ok]
    refine ⟨decide_eq_true hlen, runner, hread', ?_⟩
    rw [require_bind_eq_ok, bind_eq_ok]
    refine ⟨hobj, o, hfound, ?_⟩
    rw [bind_eq_ok]
    refine ⟨o, howner, ?_⟩
    rw [require_bind_eq_ok, hkib, Value.int?_int]
    exact ⟨decide_eq_true rfl, require_eq_ok.2 (by simp [h0, hk])⟩

/-- The rows are of one owner, the auditor's. -/
theorem exists_owner {runId : Text} {bytes samples : ℕ} {rows : List (Value F)} {rec : Recorder} (hne : rows ≠ []) (hw : ∀ row ∈ rows, row.Wf)
    (happ : (Recorder.new runId bytes samples).appendAll rows = some rec) {l : Ledger F} {vs : List Verdict}
    (ha : auditLines runId ({} : Ledger F) (lines rec.stream) = .ok (l, vs)) :
    ∃ o, identity l.owner = .ok o ∧ ∀ row ∈ rows, identity (row.get "owner") = .ok o := by
  obtain ⟨hls, -⟩ := lines_stream hw happ
  obtain ⟨hall, rows', hreads, hsays⟩ := Chronology.chronicle_nil.lines ha
  rw [List.nil_append] at hall
  rw [loads_lines hw hls] at hreads
  obtain rfl := List.map_injective_iff.2 (Option.some_injective _) hreads
  rcases hall.owner with ⟨rfl, -⟩ | ⟨o, ho, howners⟩
  · exact absurd (List.forall₂_nil_right_iff.1 hsays) hne
  · refine ⟨o, ho, fun row hrow => ?_⟩
    obtain ⟨v, hv, hsaid⟩ := Chronology.exists_of_forall₂ hsays hrow
    rw [hsaid.owner, howners v hv]

/-- A complete sample of a group of one process, which is its owner. -/
def soundRow : Value Unit :=
  Chronology.loneRow (Chronology.listed 7 1) (Chronology.listed 7 1) (Chronology.listed 7 1)
    (Chronology.measured (Chronology.listed 7 1) (Chronology.listed 7 1) (.int 4096) "LIVE") "COMPLETE" (.int 4096)

/-- The Runner's result. -/
def runner : Value Unit := .record [("owner", soundRow.get "owner"), ("sampled_group_peak_rss_kib", .int 4)]

theorem wf_soundRow : soundRow.Wf :=
  Chronology.wf_loneRow _ (Chronology.wf_listed 7 1) (Chronology.wf_listed 7 1) (Chronology.wf_listed 7 1)
    (Chronology.wf_measured _ (Chronology.wf_listed 7 1) (Chronology.wf_listed 7 1) (.int 4096)) (.int 4096)

theorem wf_runner : runner.Wf := by
  have howner : soundRow.get "owner" =
      .record [("pid", .int 7), ("start_ticks", .int 1), ("pgid", .int 7), ("sid", .int 7)] := rfl
  have hint : ∀ n : ℤ, (Value.int n : Value Unit).Wf := .int
  rw [runner, howner]
  have hwf : (Value.record [("pid", .int 7), ("start_ticks", .int 1), ("pgid", .int 7), ("sid", .int 7)] :
      Value Unit).Wf := Value.wf_record (by simp [hint])
  exact Value.wf_record (by simp [hint, hwf])

/-- A recorder that has yet to write. -/
def empty : Recorder := .new (text "00000000000000000000000000000000") maxStreamBytes maxSamples

/-- The recorder that has appended the row. -/
def soundRecorder : Recorder := (empty.append soundRow).getD empty

theorem appended_soundRow : empty.appendAll [soundRow] = some soundRecorder := by
  have happ : (empty.append soundRow).isSome = true := by decide +kernel
  obtain ⟨rec, hrec⟩ := Option.isSome_iff_exists.1 happ
  rw [Recorder.appendAll, soundRecorder, hrec]
  rfl

/-- The Runner's peak is the monitor's, in another unit. -/
theorem matches_runner {s : Text} (hs : dumps runner = some s) :
    Matches soundRecorder [soundRow] (some 4096) (some (encodeText s)) := by
  have hlen : ((dumps runner).getD []).length ≤ 2 * 1024 * 1024 := by decide +kernel
  rw [hs, Option.getD_some] at hlen
  have hread := loadsBytes_print (g := []) wf_runner hs (by simp)
  rw [List.append_nil] at hread
  rintro peak ⟨⟩
  refine ⟨by decide +kernel, _, rfl, soundRow, List.mem_singleton_self _, by rwa [encodeText, List.length_map], runner,
    hread, rfl, congrArg identity ?_, 4, ?_, by decide, by decide⟩
  · exact Value.get_of_find? (by simp [runner])
  · exact Value.get_of_find? (by simp [runner])

theorem passes_soundRow :
    (auditRows (text "00000000000000000000000000000000") ({} : Ledger Unit) [soundRow]).toOption.isSome = true := by
  decide +kernel

theorem wf_soundRows : ∀ row ∈ [soundRow], row.Wf := fun _ hrow => List.mem_singleton.1 hrow ▸ wf_soundRow

/-- The row with two more fields, whose names JSON spells alike: the two
halves of a surrogate pair, and the character they make. -/
def halvesRow : Value Unit :=
  match soundRow with
  | .obj members => .obj (members ++ [([0xD83D, 0xDE00], .null), ([0x1F600], .null)])
  | row => row

end Recording

end Bench

end ZkRuntime
