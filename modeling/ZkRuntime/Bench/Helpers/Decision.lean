import ZkRuntime.Bench.Model.ResourcePolicy
/-!
# What the resource policy derives

What the rows come to (`Derived`), step by step and over all of them, and when
`resource_decision` accepts (`resourceDecision_eq_ok`).
-/

namespace ZkRuntime

namespace Bench

namespace ResourcePolicy

open PyJson RunCheck

variable {F : Type} {limits : Limits} {rows : List (Row F)} {row : Row F}

/-! ### The samples -/

/-- The RSS of a sample in KiB, which is that of a complete one. -/
def rssKib (row : Row F) : ℤ := if row.sampleStatus = .complete then row.groupRssBytes.getD 0 / 1024 else 0

/-- The available memory at a sample, in KiB. -/
def availableKib (row : Row F) : ℤ := row.findings.memAvailableBytes.getD 0 / 1024

/-- **A sample of the monitor.** -/
structure Eligible (row : Row F) : Prop where
  phase : row.phase.find? "name" = some (.str (text "readiness")) ∨
    row.phase.find? "name" = some (.str (text "workload"))
  status : row.sampleStatus = .complete ∨ row.sampleStatus = .zombieOnly ∨ row.sampleStatus = .noLiveMembers
  available : row.findings.memAvailableBytes.isSome
  total : row.sampleStatus = .complete → row.groupRssBytes.isSome

/-- **A sample crosses a limit.** -/
def Crosses (limits : Limits) (row : Row F) : Prop :=
  limits.rssStopKib < rssKib row ∨ availableKib row < limits.availableStopKib

/-- No sample does. -/
def Quiet (limits : Limits) (rows : List (Row F)) : Prop := ∀ row ∈ rows, ¬ Crosses limits row

/-- The reason to stop at a sample, if it crosses a limit; the RSS comes
first. -/
def reasonOf (limits : Limits) (row : Row F) : Option String :=
  if limits.rssStopKib < rssKib row then some "group RSS"
  else if availableKib row < limits.availableStopKib then some "system MemAvailable"
  else none

theorem reasonOf_eq_none : reasonOf limits row = none ↔ ¬ Crosses limits row := by
  unfold reasonOf Crosses
  split_ifs <;> simp_all

theorem crosses_of_reasonOf {reason : String} (h : reasonOf limits row = some reason) : Crosses limits row := by
  by_contra hn
  rw [reasonOf_eq_none.2 hn] at h
  cases h

theorem exists_reasonOf (h : Crosses limits row) : ∃ reason, reasonOf limits row = some reason :=
  Option.ne_none_iff_exists'.1 fun hn => reasonOf_eq_none.1 hn h

/-- The peak of the samples. -/
def peakKib (rows : List (Row F)) : ℤ := (rows.map rssKib).foldl max 0

/-- Their minimum. -/
def minimumKib (rows : List (Row F)) : Option ℤ := (rows.map availableKib).min?

theorem peakKib_append : peakKib (rows ++ [row]) = max (peakKib rows) (rssKib row) := by
  simp [peakKib]

theorem minimumKib_append : minimumKib (rows ++ [row]) =
    some ((minimumKib rows).elim (availableKib row) fun m => min m (availableKib row)) := by
  cases rows with
  | nil => rfl
  | cons first rows =>
    rw [minimumKib, minimumKib, List.map_append, List.map_cons, List.cons_append, List.min?_cons', List.min?_cons',
      List.foldl_append]
    rfl

theorem isSome_minimumKib (h : rows ≠ []) : (minimumKib rows).isSome := by
  obtain ⟨first, rest, rfl⟩ := List.exists_cons_of_ne_nil h
  rfl

theorem Quiet.append (h : Quiet limits rows) (hrow : ¬ Crosses limits row) : Quiet limits (rows ++ [row]) := by
  intro r hr
  rcases List.mem_append.1 hr with hr | hr
  · exact h r hr
  · exact List.mem_singleton.1 hr ▸ hrow

/-! ### One row after another -/

/-- What a row makes of what the rows before it have come to. -/
def Replay.next (limits : Limits) (a : Replay) (n : ℕ) (row : Row F) : Replay where
  peak := max a.peak (rssKib row)
  minimum := some (match a.minimum with
    | none => availableKib row
    | some m => min m (availableKib row))
  trigger := match a.trigger, reasonOf limits row with
    | none, some reason => some (n, reason)
    | t, _ => t

theorem subscript_eq_ok {v w : Value F} {key : String} : subscript v key = .ok w ↔ v.find? key = some w := by
  rw [subscript]
  cases v.find? key <;> simp

theorem isBool_iff {v : Value F} {b : Bool} : isBool v b = true ↔ v = .bool b := by
  cases v <;> simp [isBool]

theorem rssOf_eq_ok {k : ℤ} :
    rssOf row = .ok k ↔ (row.sampleStatus = .complete → row.groupRssBytes.isSome) ∧ k = rssKib row := by
  unfold rssOf rssKib
  by_cases h : row.sampleStatus = .complete
  · rw [if_pos h, if_pos h]
    cases row.groupRssBytes with
    | none => simp [h]
    | some rss => simp [h, eq_comm]
  · rw [if_neg h, if_neg h, Except.ok.injEq]
    exact ⟨fun e => ⟨fun hc => absurd hc h, e.symm⟩, fun e => e.2.symm⟩

/-- **When a row passes**, and what it does. -/
theorem replayRow_eq_ok {a a' : Replay} {n : ℕ} :
    replayRow limits a n row = .ok a' ↔ Eligible row ∧ a' = a.next limits n row := by
  unfold replayRow
  rw [bind_eq_ok]
  simp only [subscript_eq_ok, require_bind_eq_ok, Bool.and_eq_true, Bool.or_eq_true, isText_iff, decide_eq_true_eq]
  cases havail : row.findings.memAvailableBytes with
  | none =>
    constructor
    · rintro ⟨name, -, -, h⟩
      cases h
    · rintro ⟨he, -⟩
      have := he.available
      rw [havail] at this
      cases this
  | some bytes =>
    have hbytes : bytes / 1024 = availableKib row := by rw [availableKib, havail, Option.getD_some]
    simp only [bind_eq_ok, rssOf_eq_ok, return_eq_ok, hbytes]
    constructor
    · rintro ⟨name, hname, ⟨hphase, hstatus⟩, k, ⟨htotal, rfl⟩, rfl⟩
      refine ⟨⟨hphase.imp ?_ ?_, or_assoc.1 hstatus, by rw [havail]; rfl, htotal⟩, rfl⟩
      · rintro rfl
        exact hname
      · rintro rfl
        exact hname
    · rintro ⟨he, rfl⟩
      rcases he.phase with hname | hname
      · exact ⟨_, hname, ⟨.inl rfl, or_assoc.2 he.status⟩, _, ⟨he.total, rfl⟩, rfl⟩
      · exact ⟨_, hname, ⟨.inr rfl, or_assoc.2 he.status⟩, _, ⟨he.total, rfl⟩, rfl⟩

/-! ### All of them -/

/-- **What the rows have come to**: the peak and the minimum, and the first
row that crosses a limit, with the reason to stop there. -/
structure Derived (limits : Limits) (rows : List (Row F)) (a : Replay) : Prop where
  peak : a.peak = peakKib rows
  minimum : a.minimum = minimumKib rows
  quiet : a.trigger = none → Quiet limits rows
  trigger : ∀ n reason, a.trigger = some (n, reason) → ∃ before row after, rows = before ++ row :: after ∧
    before.length = n ∧ Quiet limits before ∧ reasonOf limits row = some reason

theorem derived_nil : Derived limits ([] : List (Row F)) {} where
  peak := rfl
  minimum := rfl
  quiet _ := fun _ h => absurd h List.not_mem_nil
  trigger _ _ h := by cases h

/-- **One row more.** -/
theorem Derived.next {a : Replay} (h : Derived limits rows a) (row : Row F) :
    Derived limits (rows ++ [row]) (a.next limits rows.length row) where
  peak := by rw [peakKib_append, ← h.peak, Replay.next]
  minimum := by
    rw [minimumKib_append, ← h.minimum, Replay.next]
    cases a.minimum <;> rfl
  quiet hnone := by
    rw [Replay.next] at hnone
    cases htrigger : a.trigger with
    | some t =>
      rw [htrigger] at hnone
      cases hnone
    | none =>
      refine (h.quiet htrigger).append (reasonOf_eq_none.1 ?_)
      cases hreason : reasonOf limits row with
      | none => rfl
      | some reason =>
        rw [htrigger, hreason] at hnone
        cases hnone
  trigger n reason hsome := by
    rw [Replay.next] at hsome
    cases htrigger : a.trigger with
    | some t =>
      -- The first trigger stays, and there is one row more behind it.
      rw [htrigger] at hsome
      obtain ⟨before, r, after, hrows, hn, hquiet, hreason⟩ := h.trigger n reason (htrigger.trans hsome)
      refine ⟨before, r, after ++ [row], ?_, hn, hquiet, hreason⟩
      rw [hrows, List.append_assoc, List.cons_append]
    | none =>
      cases hreason : reasonOf limits row with
      | none =>
        rw [htrigger, hreason] at hsome
        cases hsome
      | some reason' =>
        rw [htrigger, hreason] at hsome
        cases hsome
        exact ⟨rows, row, [], rfl, rfl, h.quiet htrigger, hreason⟩

/-- **The rows pass where each of them is eligible.** -/
theorem exists_replayRows {a : Replay} {n : ℕ} (h : ∀ row ∈ rows, Eligible row) :
    ∃ a', replayRows limits a n rows = .ok a' := by
  induction rows generalizing a n with
  | nil => exact ⟨a, rfl⟩
  | cons row rows ih =>
    obtain ⟨a', ha'⟩ := ih (a := a.next limits n row) (n := n + 1) fun r hr => h r (List.mem_cons_of_mem _ hr)
    exact ⟨a', by rw [replayRows, replayRow_eq_ok.2 ⟨h row List.mem_cons_self, rfl⟩]; exact ha'⟩

/-- **What they come to**, behind others. -/
theorem Derived.of_replayRows {a a' : Replay} {before rows : List (Row F)} (h : Derived limits before a)
    (hr : replayRows limits a before.length rows = .ok a') : Derived limits (before ++ rows) a' := by
  induction rows generalizing a before with
  | nil =>
    cases hr
    rwa [List.append_nil]
  | cons row rows ih =>
    rw [replayRows, bind_eq_ok] at hr
    obtain ⟨a₁, h₁, hr⟩ := hr
    obtain ⟨-, rfl⟩ := replayRow_eq_ok.1 h₁
    have hnext := h.next row
    rw [← List.length_singleton (a := row), ← List.length_append] at hr
    rw [List.append_cons]
    exact ih hnext hr

/-- A trigger at the last row. -/
theorem Derived.trigger_last {a : Replay} {before : List (Row F)} (h : Derived limits (before ++ [row]) a)
    (hquiet : Quiet limits before) {reason : String} (hreason : reasonOf limits row = some reason) :
    a.trigger = some (before.length, reason) := by
  have hcrosses := crosses_of_reasonOf hreason
  cases htrigger : a.trigger with
  | none => exact absurd hcrosses (h.quiet htrigger row (by simp))
  | some t =>
    obtain ⟨first, r, after, hrows, hn, -, hr⟩ := h.trigger t.1 t.2 htrigger
    -- Were there rows behind it, it would be one of those before the last.
    have hlast : after = [] := by
      rcases List.eq_nil_or_concat after with rfl | ⟨init, last, rfl⟩
      · rfl
      · rw [List.concat_eq_append, ← List.cons_append, ← List.append_assoc] at hrows
        obtain ⟨rfl, -⟩ := List.append_inj' hrows rfl
        exact absurd (crosses_of_reasonOf hr) (hquiet r (by simp))
    subst hlast
    obtain ⟨rfl, hrow⟩ := List.append_inj' hrows rfl
    cases hrow
    rw [hreason] at hr
    cases hr
    rw [hn]

/-! ### The decision -/

/-- **When a decision is made**, and what it is. -/
theorem resourceDecision_eq_ok {core : Value F} {d : Decision} :
    resourceDecision rows core limits = .ok d ↔ rows ≠ [] ∧ ∃ a, replayRows limits {} 0 rows = .ok a ∧
      core.get "sampled_group_peak_rss_kib" = .int a.peak ∧
      (∃ m, a.minimum = some m ∧ core.get "minimum_memavailable_kib" = .int m) ∧
      core.get "stop_escalation" = .bool (decide (limits.stopEscalationKib < a.peak)) ∧
      ∃ primary, core.find? "primary" = some primary ∧ ∃ outcome, primary.find? "outcome" = some outcome ∧
        checkTrigger limits rows primary outcome a.trigger = .ok () ∧
        checkStop primary outcome a.trigger = .ok () ∧
        d = {
          monitorSamples := rows.length
          sampledPeakKib := a.peak
          minimumMemavailableKib := a.minimum
          observedStopRequired := a.trigger.isSome
          firstTriggerSequence := a.trigger.bind fun t => (rows[t.1]?).map (·.sequence)
          stopReason := a.trigger.map (·.2)
          stopEscalation := decide (limits.stopEscalationKib < a.peak) } := by
  have hminimum : ∀ (v : Value F) (x : Option ℤ), (v.int?.isSome && v.int? == x) = true ↔
      ∃ m, x = some m ∧ v = .int m := by
    intro v x
    rw [Bool.and_eq_true, beq_iff_eq]
    constructor
    · rintro ⟨hsome, rfl⟩
      obtain ⟨m, hm⟩ := Option.isSome_iff_exists.1 hsome
      exact ⟨m, hm, Value.int?_eq_some.1 hm⟩
    · rintro ⟨m, rfl, rfl⟩
      exact ⟨rfl, rfl⟩
  have hempty : (!rows.isEmpty) = true ↔ rows ≠ [] := by simp
  unfold resourceDecision
  rw [require_bind_eq_ok, hempty]
  refine and_congr_right fun _ => ?_
  rw [bind_eq_ok]
  refine exists_congr fun a => and_congr_right fun _ => ?_
  rw [require_bind_eq_ok, beq_iff_eq, Value.int?_eq_some]
  refine and_congr_right fun _ => ?_
  rw [require_bind_eq_ok, hminimum]
  refine and_congr_right fun _ => ?_
  rw [require_bind_eq_ok, isBool_iff]
  refine and_congr_right fun _ => ?_
  rw [bind_eq_ok]
  refine exists_congr fun primary => and_congr subscript_eq_ok ?_
  rw [bind_eq_ok]
  refine exists_congr fun outcome => and_congr subscript_eq_ok ?_
  simp only [bind_eq_ok, return_eq_ok]
  constructor
  · rintro ⟨⟨⟩, htrigger, ⟨⟩, hstop, rfl⟩
    exact ⟨htrigger, hstop, rfl⟩
  · rintro ⟨htrigger, hstop, rfl⟩
    exact ⟨(), htrigger, (), hstop, rfl⟩

/-- A trigger that is accepted. -/
theorem checkTrigger_some {primary outcome : Value F} {n : ℕ} {reason : String}
    (h : checkTrigger limits rows primary outcome (some (n, reason)) = .ok ()) :
    outcome ≠ .str (text "command_success") ∧ n + 1 = rows.length := by
  rw [checkTrigger, require_bind_eq_ok, require_bind_eq_ok, decide_eq_true_eq, Bool.not_eq_true', Bool.eq_false_iff,
    Ne, isText_iff] at h
  exact ⟨h.1, h.2.1⟩

/-- A stop that is accepted. -/
theorem checkStop_stop {primary : Value F} {t : Option (ℕ × String)}
    (h : checkStop primary (.str (text "resource_stop")) t = .ok ()) :
    ∃ n reason, t = some (n, reason) ∧ primary.get "reason" = .str (text reason) := by
  unfold checkStop at h
  rw [if_pos (isText_iff.2 rfl)] at h
  cases t with
  | none => cases h
  | some t => exact ⟨t.1, t.2, rfl, isText_iff.1 (require_eq_ok.1 h)⟩

/-- **The samples bear out a record**, and what was decided of it. -/
structure BornOut (limits : Limits) (rows : List (Row F)) (core : Value F) (d : Decision) : Prop where
  peak : core.get "sampled_group_peak_rss_kib" = .int (peakKib rows) ∧ d.sampledPeakKib = peakKib rows
  minimum : ∃ m, minimumKib rows = some m ∧ core.get "minimum_memavailable_kib" = .int m ∧
    d.minimumMemavailableKib = some m
  escalation : core.get "stop_escalation" = .bool (decide (limits.stopEscalationKib < peakKib rows)) ∧
    d.stopEscalation = decide (limits.stopEscalationKib < peakKib rows)
  success : (core.get "primary").get "outcome" = .str (text "command_success") → Quiet limits rows
  stop : (core.get "primary").get "outcome" = .str (text "resource_stop") → ∃ before row reason,
    rows = before ++ [row] ∧ Quiet limits before ∧ reasonOf limits row = some reason ∧
      (core.get "primary").get "reason" = .str (text reason)

/-- **They do where a decision is made**, whatever record it is. -/
theorem bornOut_of_decision {core : Value F} {d : Decision} (h : resourceDecision rows core limits = .ok d) :
    BornOut limits rows core d := by
  obtain ⟨-, a, ha, hpeak, ⟨m, hm, hminimum⟩, hescalation, primary, hprimary, outcome, houtcome, htrigger, hstop, rfl⟩ :=
    resourceDecision_eq_ok.1 h
  have hd : Derived limits rows a := derived_nil.of_replayRows ha
  rw [hd.peak] at hpeak hescalation
  refine ⟨⟨hpeak, hd.peak⟩, ⟨m, hd.minimum ▸ hm, hminimum, hm⟩, ⟨hescalation, by rw [hd.peak]⟩, ?_, ?_⟩
  · rw [Value.get_of_find? hprimary, Value.get_of_find? houtcome]
    rintro rfl
    cases ht : a.trigger with
    | none => exact hd.quiet ht
    | some t =>
      rw [ht] at htrigger
      exact absurd rfl (checkTrigger_some htrigger).1
  · rw [Value.get_of_find? hprimary, Value.get_of_find? houtcome]
    rintro rfl
    obtain ⟨n, reason, ht, hreason⟩ := checkStop_stop hstop
    rw [ht] at htrigger
    obtain ⟨before, row, after, rfl, rfl, hquiet, hrow⟩ := hd.trigger n reason ht
    -- The monitor did not go on behind the trigger.
    have hlast := (checkTrigger_some htrigger).2
    obtain rfl : after = [] := by
      rw [List.length_append, List.length_cons] at hlast
      exact List.length_eq_zero_iff.1 (by omega)
    exact ⟨before, row, reason, rfl, hquiet, hrow, hreason⟩

end ResourcePolicy

end Bench

end ZkRuntime
