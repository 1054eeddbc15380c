import ZkRuntime.Bench.FrameTransport
import ZkRuntime.Bench.Helpers.Decision
/-!
# The resources of a run, replayed

The runner stops at the first sample that crosses a limit, unless an exception
or the watchdog of a phase comes between (`Ended`), so that
`resource_decision` accepts its record, and derives what the runner decided
(`replay`).
-/

namespace ZkRuntime

namespace Bench

namespace ResourcePolicy

open PyJson RunCheck

variable {F T : Type}

section

variable {row : Row F} {l : Loop F T}

/-! ### One sample -/

/-- **What the monitor returns**, and of which rows. -/
theorem returned_eq_ok {rss available : ℤ} (h : returned row = .ok (rss, available)) :
    (row.sampleStatus = .complete ∨ row.sampleStatus = .zombieOnly ∨ row.sampleStatus = .noLiveMembers) ∧
      row.findings.memAvailableBytes.isSome ∧ (row.sampleStatus = .complete → row.groupRssBytes.isSome) ∧
      rss = rssKib row ∧ available = availableKib row := by
  unfold returned at h
  unfold rssKib availableKib
  by_cases hstatus : row.sampleStatus = .complete ∨ row.sampleStatus = .zombieOnly ∨ row.sampleStatus = .noLiveMembers
  · rw [if_pos hstatus] at h
    cases havail : row.findings.memAvailableBytes with
    | none =>
      rw [havail] at h
      cases h
    | some bytes =>
      rw [havail] at h
      dsimp only at h
      by_cases hcomplete : row.sampleStatus = .complete
      · rw [if_pos hcomplete] at h ⊢
        cases htotal : row.groupRssBytes with
        | none =>
          rw [htotal] at h
          cases h
        | some total =>
          rw [htotal] at h
          cases h
          exact ⟨hstatus, rfl, fun _ => rfl, rfl, rfl⟩
      · rw [if_neg hcomplete] at h ⊢
        cases h
        exact ⟨hstatus, rfl, fun hc => absurd hc hcomplete, rfl, rfl⟩
  · rw [if_neg hstatus] at h
    cases h

/-- The two phases the monitor observes in. -/
def Monitored (row : Row F) : Prop :=
  row.phase.get "name" = .str (text "readiness") ∨ row.phase.get "name" = .str (text "workload")

theorem find?_of_get {v : Value F} {key : String} {t : Text} (h : v.get key = .str t) : v.find? key = some (.str t) := by
  rw [Value.get] at h
  cases hv : v.find? key with
  | none =>
    rw [hv] at h
    cases h
  | some w =>
    rw [hv, Option.getD_some] at h
    rw [h]

/-- **A row the monitor returns is eligible**, in one of its phases. -/
theorem Eligible.of_returned {kib : ℤ × ℤ} (hm : Monitored row) (h : returned row = .ok kib) : Eligible row := by
  obtain ⟨hstatus, havail, htotal, -⟩ := returned_eq_ok h
  exact ⟨hm.imp find?_of_get find?_of_get, hstatus, havail, htotal⟩

/-- **What a round that has had a sample may end in**: an exception, the
watchdog of a phase, or a stop with the reason of the sample. -/
def Settles (row : Row F) (e : Except Failure Primary) : Prop :=
  (∃ f, e = .error f) ∨ (∃ b ∈ phaseBudgets, e = .ok (.timeout ("phase watchdog: " ++ b.1))) ∨
    ∃ reason, e = .ok (.resourceStop reason) ∧ reasonOf limits row = some reason

/-- **How a run has ended**: no sample crosses a limit, and it is not a stop; or
the last sample does, the only one. -/
def Ended (l : Loop F T) (e : Except Failure Primary) : Prop :=
  (Quiet limits l.samples ∧ ∀ reason, e ≠ .ok (.resourceStop reason)) ∨
    ∃ before row, l.samples = before ++ [row] ∧ Quiet limits before ∧ Crosses limits row ∧ Settles row e

/-- The loop has counted its samples, which the monitor has returned. -/
structure Counted (l : Loop F T) : Prop where
  returned : ∀ row ∈ l.samples, ∃ kib, returned row = .ok kib
  peak : l.peak = peakKib l.samples
  minimum : l.minimum = minimumKib l.samples

theorem counted_empty : Counted ({} : Loop F T) := ⟨fun _ h => absurd h List.not_mem_nil, rfl, rfl⟩

theorem Counted.count (h : Counted l) {kib : ℤ × ℤ} (hr : RunCheck.returned row = .ok kib) :
    Counted (l.count row (rssKib row) (availableKib row)) where
  returned r hmem := by
    rcases List.mem_append.1 (show r ∈ l.samples ++ [row] from hmem) with hmem | hmem
    · exact h.returned r hmem
    · exact List.mem_singleton.1 hmem ▸ ⟨kib, hr⟩
  peak := by
    show max l.peak (rssKib row) = peakKib (l.samples ++ [row])
    rw [peakKib_append, h.peak]
  minimum := by
    show some _ = minimumKib (l.samples ++ [row])
    rw [minimumKib_append, ← h.minimum]
    cases l.minimum with
    | none => rfl
    | some m => exact congrArg some (min_comm _ _)

/-- The sample ends the run, or does not cross a limit. -/
theorem ended_of_settles {before : List (Row F)} (hs : l.samples = before ++ [row]) (hq : Quiet limits before)
    {e : Except Failure Primary} (he : Settles row e) : Ended l e := by
  by_cases hc : Crosses limits row
  · exact .inr ⟨before, row, hs, hq, hc, he⟩
  · refine .inl ⟨hs ▸ hq.append hc, fun reason hstop => ?_⟩
    subst hstop
    rcases he with ⟨f, hf⟩ | ⟨b, -, hb⟩ | ⟨reason', -, hr⟩
    · cases hf
    · cases hb
    · exact hc (crosses_of_reasonOf hr)

section

variable [Sub T] [LT T] [DecidableLT T] [NatCast T]

/-- A phase that is over its budget has one. -/
theorem overdue_eq_ok {now : T} {name : String} (h : l.overdue now = .ok (some name)) :
    ∃ b ∈ phaseBudgets, name = b.1 := by
  unfold Loop.overdue at h
  split at h
  · cases h
  · rename_i phase since _
    cases hb : budgetOf phase with
    | error f =>
      rw [hb] at h
      cases h
    | ok o =>
      rw [hb] at h
      cases o with
      | none => cases h
      | some b =>
        dsimp only at h
        have hname : name = b.1 := by
          split_ifs at h <;> cases h
          rfl
        refine ⟨b, ?_, hname⟩
        unfold budgetOf at hb
        split at hb
        · cases hb
        · cases hb
        · exact List.mem_of_find?_eq_some (Except.ok.inj hb)

/-- **What the round makes of its sample** behind the output: it settles it, or
goes on from one that crosses no limit. -/
theorem verdict_spec {now : T} {o : Option (Except Failure Primary)}
    (h : l.verdict now (rssKib row) (availableKib row) = o) :
    (∀ e, o = some e → Settles row e) ∧ (o = none → ¬ Crosses limits row) := by
  unfold Loop.verdict at h
  cases ho : l.overdue now with
  | error f =>
    rw [ho] at h
    cases h
    exact ⟨by rintro _ ⟨⟩; exact .inl ⟨f, rfl⟩, by rintro ⟨⟩⟩
  | ok phase =>
    rw [ho] at h
    cases phase with
    | some name =>
      -- The watchdog comes first, whatever the sample is.
      cases h
      obtain ⟨b, hb, rfl⟩ := overdue_eq_ok ho
      exact ⟨by rintro _ ⟨⟩; exact .inr (.inl ⟨b, hb, rfl⟩), by rintro ⟨⟩⟩
    | none =>
      dsimp only at h
      split_ifs at h with hover hrss
      · cases h
        exact ⟨by rintro _ ⟨⟩; exact .inr (.inr ⟨_, rfl, if_pos hrss⟩), by rintro ⟨⟩⟩
      · cases h
        refine ⟨?_, by rintro ⟨⟩⟩
        rintro _ ⟨⟩
        exact .inr (.inr ⟨_, rfl, (if_neg hrss).trans (if_pos (hover.resolve_left hrss))⟩)
      · cases h
        exact ⟨by rintro _ ⟨⟩, fun _ => hover⟩

omit [NatCast T] in
theorem beforeMonitor_ne {env : Environment F T} {r : Round F T} {e : Except Failure Primary}
    (h : env.beforeMonitor r = some e) (reason : String) : e ≠ .ok (.resourceStop reason) := by
  unfold Environment.beforeMonitor at h
  rintro rfl
  split at h
  · cases h
  · split at h
    · cases h
    · cases h
    · split_ifs at h
      cases h

/-- **Behind the monitor.** The samples before the one it has returned cross no
limit. -/
theorem behindMonitor_spec {env : Environment F T} {r : Round F T} {before : List (Row F)} {l' : Loop F T}
    {o : Option (Except Failure Primary)} (hs : l.samples = before ++ [row]) (hc : Counted l)
    (hq : Quiet limits before) (h : env.behindMonitor l r (rssKib row) (availableKib row) = (l', o)) :
    Counted l' ∧ (o = none → Quiet limits l'.samples) ∧ ∀ e, o = some e → Ended l' e := by
  unfold Environment.behindMonitor at h
  cases hread : r.read with
  | error f =>
    rw [hread] at h
    cases h
    exact ⟨hc, by rintro ⟨⟩, by rintro _ ⟨⟩; exact ended_of_settles hs hq (.inl ⟨f, rfl⟩)⟩
  | ok new =>
    rw [hread] at h
    dsimp only at h
    -- The markers leave the samples and their counts alone.
    have hkept : ((l.output env.loads r.now new).1.samples = before ++ [row]) ∧ Counted (l.output env.loads r.now new).1 :=
      ⟨hs, hc.returned, hc.peak, hc.minimum⟩
    cases hout : l.output env.loads r.now new with
    | mk l₁ o₁ =>
      rw [hout] at h hkept
      obtain ⟨hs₁, hc₁⟩ := hkept
      cases o₁ with
      | some f =>
        cases h
        exact ⟨hc₁, by rintro ⟨⟩, by rintro _ ⟨⟩; exact ended_of_settles hs₁ hq (.inl ⟨f, rfl⟩)⟩
      | none =>
        dsimp only at h
        cases hv : l₁.verdict r.now (rssKib row) (availableKib row) with
        | some e =>
          rw [hv] at h
          cases h
          exact ⟨hc₁, by rintro ⟨⟩, by rintro _ ⟨⟩; exact ended_of_settles hs₁ hq ((verdict_spec hv).1 _ rfl)⟩
        | none =>
          rw [hv] at h
          have hquiet : Quiet limits l₁.samples := hs₁ ▸ hq.append ((verdict_spec hv).2 rfl)
          dsimp only at h
          cases hsleep : r.sleeps with
          | error f =>
            rw [hsleep] at h
            cases h
            exact ⟨hc₁, by rintro ⟨⟩, by rintro _ ⟨⟩; exact .inl ⟨hquiet, by rintro _ ⟨⟩⟩⟩
          | ok _ =>
            rw [hsleep] at h
            cases h
            exact ⟨hc₁, fun _ => hquiet, by rintro _ ⟨⟩⟩

/-- **A round.** The samples before it cross no limit. -/
theorem round_spec {env : Environment F T} {r : Round F T} {l' : Loop F T} {o : Option (Except Failure Primary)}
    (hc : Counted l) (hq : Quiet limits l.samples) (h : env.round l r = (l', o)) :
    Counted l' ∧ (o = none → Quiet limits l'.samples) ∧ ∀ e, o = some e → Ended l' e := by
  -- Of a round without a sample the loop keeps nothing.
  have hunsampled : ∀ e, (∀ reason, e ≠ .ok (.resourceStop reason)) → (l, some e) = (l', o) →
      Counted l' ∧ (o = none → Quiet limits l'.samples) ∧ ∀ e, o = some e → Ended l' e := by
    rintro e he ⟨⟩
    exact ⟨hc, by rintro ⟨⟩, by rintro _ ⟨⟩; exact .inl ⟨hq, he⟩⟩
  unfold Environment.round at h
  cases hbefore : env.beforeMonitor r with
  | some e =>
    rw [hbefore] at h
    exact hunsampled e (beforeMonitor_ne hbefore) h
  | none =>
    rw [hbefore] at h
    cases hm : r.monitor with
    | error f =>
      rw [hm] at h
      exact hunsampled (.error f) (by rintro _ ⟨⟩) h
    | ok row =>
      rw [hm] at h
      dsimp only at h
      cases hr : returned row with
      | error f =>
        rw [hr] at h
        exact hunsampled (.error f) (by rintro _ ⟨⟩) h
      | ok kib =>
        obtain ⟨rss, available⟩ := kib
        obtain ⟨-, -, -, rfl, rfl⟩ := returned_eq_ok hr
        rw [hr] at h
        exact behindMonitor_spec rfl (hc.count hr) hq h

/-- **The loop.** -/
theorem loop_spec {env : Environment F T} {rounds : List (Round F T)} {l' : Loop F T}
    {e : Except Failure Primary} (hc : Counted l) (hq : Quiet limits l.samples)
    (h : env.loop l rounds = some (l', e)) : Counted l' ∧ Ended l' e := by
  induction rounds generalizing l with
  | nil => cases h
  | cons r rounds ih =>
    rw [Environment.loop] at h
    cases hround : env.round l r with
    | mk l₁ o =>
      obtain ⟨hc₁, hq₁, he⟩ := round_spec hc hq hround
      rw [hround] at h
      cases o with
      | some e₁ =>
        cases h
        exact ⟨hc₁, he _ rfl⟩
      | none => exact ih hc₁ (hq₁ rfl) h

end

end

/-! ### The record -/

theorem outcome_eq_stop {p : Primary} : p.outcome = "resource_stop" ↔ ∃ reason, p = .resourceStop reason := by
  cases p with
  | exited code status =>
    rw [Primary.outcome]
    split_ifs <;> simp
  | _ => simp [Primary.outcome]

theorem find?_outcome {p : Primary} : (p.toJson : Value F).find? "outcome" = some (.str (text p.outcome)) := by
  rw [Primary.toJson, Value.find?_record_cons, if_pos rfl]

/-- **A record without a trigger passes.** -/
theorem checks_quiet {rows : List (Row F)} {p : Primary} (h : ∀ reason, p ≠ .resourceStop reason) :
    checkTrigger limits rows (p.toJson : Value F) (.str (text p.outcome)) none = .ok () ∧
      checkStop (p.toJson : Value F) (.str (text p.outcome)) none = .ok () := by
  refine ⟨rfl, ?_⟩
  have hne : ¬ isText (.str (text p.outcome) : Value F) "resource_stop" = true := by
    rw [isText_str, decide_eq_true_eq, outcome_eq_stop]
    exact fun ⟨reason, hreason⟩ => h reason hreason
  unfold checkStop
  rw [if_neg hne]
  rfl

theorem get_reason_timeout {reason : String} :
    ((Primary.timeout reason).toJson : Value F).get "reason" = .str (text reason) :=
  Value.get_of_find? (by simp [Primary.toJson, Primary.details])

theorem get_reason_stop {reason : String} :
    ((Primary.resourceStop reason).toJson : Value F).get "reason" = .str (text reason) :=
  Value.get_of_find? (by simp [Primary.toJson, Primary.details])

/-- **A record with a trigger passes**, where the run has ended in a way that
goes with it. -/
theorem checks_trigger {rows : List (Row F)} {p : Primary} {n : ℕ} {reason : String} (hn : n + 1 = rows.length)
    (hp : (∃ f, p = .runnerError f) ∨ (∃ b ∈ phaseBudgets, p = .timeout ("phase watchdog: " ++ b.1)) ∨
      p = .resourceStop reason) :
    checkTrigger limits rows (p.toJson : Value F) (.str (text p.outcome)) (some (n, reason)) = .ok () ∧
      checkStop (p.toJson : Value F) (.str (text p.outcome)) (some (n, reason)) = .ok () := by
  rw [checkTrigger, require_bind_eq_ok, require_bind_eq_ok, bind_eq_ok, decide_eq_true_eq]
  unfold checkStop
  rcases hp with ⟨f, rfl⟩ | ⟨b, hb, rfl⟩ | rfl
  · refine ⟨⟨by simp [Primary.outcome], hn, true, ?_, by simp⟩, by simp [Primary.outcome]⟩
    simp [preempted, Primary.outcome]
  · refine ⟨⟨by simp [Primary.outcome], hn, true, ?_, by simp⟩, by simp [Primary.outcome]⟩
    have hany : (limits.phaseSeconds.any fun b' => isText (.str (text ("phase watchdog: " ++ b.1)) : Value F)
        ("phase watchdog: " ++ b'.1)) = true := List.any_eq_true.2 ⟨b, hb, isText_iff.2 rfl⟩
    unfold preempted
    rw [get_reason_timeout, if_neg (by simp [Primary.outcome]), if_pos (by simp [Primary.outcome])]
    exact congrArg Except.ok hany
  · refine ⟨⟨by simp [Primary.outcome], hn, false, ?_, by simp [Primary.outcome]⟩, ?_⟩
    · simp [preempted, Primary.outcome]
    · rw [if_pos (isText_iff.2 (by rw [Primary.outcome])), get_reason_stop]
      exact require_eq_ok.2 (isText_iff.2 rfl)

section

variable {env : Environment F T} {l : Loop F T}

/-- What the record says of the loop. -/
theorem finish_eq (env : Environment F T) (l : Loop F T) (p : Primary) (errors : List Failure) :
    (env.finish l p errors).primary = env.settle p ∧
    (env.finish l p errors).sampledGroupPeakRssKib = l.peak ∧
    (env.finish l p errors).minimumMemavailableKib = l.minimum ∧
    (env.finish l p errors).stopEscalation = decide (escalationStopKib < l.peak) := by
  unfold Environment.finish
  cases env.reports <;> exact ⟨rfl, rfl, rfl, rfl⟩

/-- A signal makes no stop of what is none. -/
theorem settle_ne {p : Primary} (h : ∀ reason, p ≠ .resourceStop reason) (reason : String) :
    env.settle p ≠ .resourceStop reason := by
  unfold Environment.settle
  split
  · exact h reason
  · split_ifs
    · rintro ⟨⟩
    · exact h reason

theorem settle_of_ne {p : Primary} (h : p.outcome ≠ "command_success") : env.settle p = p := by
  unfold Environment.settle
  split
  · rfl
  · rw [if_neg h]

theorem leave_ok {p : Primary} : (env.leave (.ok p)).1 = p := by
  unfold Environment.leave
  cases env.closes <;> rfl

theorem leave_error (env : Environment F T) (f : Failure) : ∃ g, (env.leave (.error f)).1 = .runnerError g := by
  unfold Environment.leave
  cases env.closes with
  | error g => exact ⟨g, rfl⟩
  | ok _ => exact ⟨f, rfl⟩

/-- **The checks pass** of how a run has ended, with the trigger its samples
have. -/
theorem checks_ended (env : Environment F T) {e : Except Failure Primary} {a : Replay} (he : Ended l e)
    (ha : Derived limits l.samples a) :
    let p := env.settle (env.leave e).1
    checkTrigger limits l.samples (p.toJson : Value F) (.str (text p.outcome)) a.trigger = .ok () ∧
      checkStop (p.toJson : Value F) (.str (text p.outcome)) a.trigger = .ok () := by
  rcases he with ⟨hq, hne⟩ | ⟨before, row, hs, hq, hcross, he⟩
  · have htrigger : a.trigger = none := by
      by_contra hn
      obtain ⟨t, ht⟩ := Option.ne_none_iff_exists'.1 hn
      obtain ⟨first, r, after, hrows, -, -, hreason⟩ := ha.trigger t.1 t.2 ht
      exact hq r (by rw [hrows]; simp) (crosses_of_reasonOf hreason)
    rw [htrigger]
    -- Neither leaving the files nor a late signal makes it a stop.
    refine checks_quiet (settle_ne fun reason hstop => ?_)
    cases e with
    | ok p =>
      rw [leave_ok] at hstop
      exact hne reason (congrArg Except.ok hstop)
    | error f =>
      obtain ⟨g, hg⟩ := leave_error env f
      rw [hg] at hstop
      cases hstop
  · obtain ⟨reason, hreason⟩ := exists_reasonOf hcross
    have hlast : Derived limits (before ++ [row]) a := hs ▸ ha
    rw [hlast.trigger_last hq hreason]
    have hn : before.length + 1 = l.samples.length := by rw [hs, List.length_append, List.length_singleton]
    rcases he with ⟨f, rfl⟩ | ⟨b, hb, rfl⟩ | ⟨reason', rfl, hr⟩
    · obtain ⟨g, hg⟩ := leave_error env f
      rw [hg, settle_of_ne (by simp [Primary.outcome])]
      exact checks_trigger hn (.inl ⟨g, rfl⟩)
    · rw [leave_ok, settle_of_ne (by simp [Primary.outcome])]
      exact checks_trigger hn (.inr (.inl ⟨b, hb, rfl⟩))
    · rw [hreason] at hr
      cases hr
      rw [leave_ok, settle_of_ne (by simp [Primary.outcome])]
      exact checks_trigger hn (.inr (.inr rfl))

end

/-- **A trigger is a sample that crosses a limit.** -/
theorem Derived.isSome_trigger {limits : Limits} {rows : List (Row F)} {a : Replay} (h : Derived limits rows a) :
    a.trigger.isSome = true ↔ ∃ row ∈ rows, Crosses limits row := by
  cases ht : a.trigger with
  | none =>
    refine ⟨by rintro ⟨⟩, fun ⟨row, hrow, hc⟩ => absurd hc (h.quiet ht row hrow)⟩
  | some t =>
    obtain ⟨before, row, after, hrows, -, -, hreason⟩ := h.trigger t.1 t.2 ht
    exact ⟨fun _ => ⟨row, by rw [hrows]; simp, crosses_of_reasonOf hreason⟩, fun _ => rfl⟩

/-- Only the last sample may cross a limit. -/
theorem Ended.last {l : Loop F T} {e : Except Failure Primary} (h : Ended l e) {i : ℕ} {row : Row F}
    (hi : l.samples[i]? = some row) (hc : Crosses limits row) : i + 1 = l.samples.length := by
  rcases h with ⟨hq, -⟩ | ⟨before, last, hs, hq, -⟩
  · exact absurd hc (hq row (List.mem_of_getElem? hi))
  · rw [hs] at hi ⊢
    rcases Nat.lt_or_ge i before.length with hlt | hge
    · rw [List.getElem?_append_left hlt] at hi
      exact absurd hc (hq row (List.mem_of_getElem? hi))
    · have hlt := (List.getElem?_eq_some_iff.1 hi).1
      rw [List.length_append, List.length_singleton] at hlt ⊢
      omega

/-! ### What the record says -/

theorem find?_primary {r : Record F} : r.toJson.find? "primary" = some r.primary.toJson := by
  simp [Record.toJson]

theorem get_peak {r : Record F} : r.toJson.get "sampled_group_peak_rss_kib" = .int r.sampledGroupPeakRssKib :=
  Value.get_of_find? (by simp [Record.toJson])

theorem get_minimum {r : Record F} :
    r.toJson.get "minimum_memavailable_kib" = orNull .int r.minimumMemavailableKib :=
  Value.get_of_find? (by simp [Record.toJson])

theorem get_escalation {r : Record F} : r.toJson.get "stop_escalation" = .bool r.stopEscalation :=
  Value.get_of_find? (by simp [Record.toJson])

/-- **What a run publishes is accepted**, however it has ended. -/
theorem exists_decision {env : Environment F T} {l : Loop F T} {e : Except Failure Primary} (he : Ended l e)
    (hc : Counted l) (hne : l.samples ≠ []) (hm : ∀ row ∈ l.samples, Monitored row) :
    ∃ d, resourceDecision l.samples ((env.finish l (env.leave e).1 (env.leave e).2).toJson : Value F) limits = .ok d ∧
      (d.observedStopRequired = true ↔ ∃ row ∈ l.samples, Crosses limits row) := by
  have hs : ∀ row ∈ l.samples, Eligible row := fun row hrow =>
    (hc.returned row hrow).elim fun _ hr => .of_returned (hm row hrow) hr
  obtain ⟨a, ha⟩ := exists_replayRows hs
  have hd : Derived limits l.samples a := derived_nil.of_replayRows ha
  obtain ⟨m, hm⟩ := Option.isSome_iff_exists.1 (isSome_minimumKib hne)
  obtain ⟨hprimary, hpeak, hminimum, hescalation⟩ :=
    finish_eq env l (env.leave e).1 (env.leave e).2
  obtain ⟨htrigger, hstop⟩ := checks_ended (F := F) env he hd
  refine ⟨_, resourceDecision_eq_ok.2 ⟨hne, a, ha, ?_, ⟨m, hd.minimum.trans hm, ?_⟩, ?_,
    (env.settle (env.leave e).1).toJson, ?_, _, find?_outcome, htrigger, hstop, rfl⟩, hd.isSome_trigger⟩
  · rw [get_peak, hpeak, hc.peak, hd.peak]
  · rw [get_minimum, hminimum, hc.minimum, hm]
    rfl
  · rw [get_escalation, hescalation, hc.peak, hd.peak]
    rfl
  · rw [find?_primary, hprimary]

/-- **The runner's record is accepted**, whatever its environment does, over the
samples its monitor has returned, and a stop is found required where one of
them, the last, crosses a limit. And any record that is accepted, by whatever
limits, is borne out by the samples. -/
theorem replay [Sub T] [LT T] [DecidableLT T] [NatCast T] {env : Environment F T} {rounds : List (Round F T)}
    {l : Loop F T} {record : Record F} (h : runCommand env rounds = some (l, record)) (hne : l.samples ≠ [])
    (hm : ∀ row ∈ l.samples, Monitored row) :
    (∃ d, resourceDecision l.samples (record.toJson : Value F) RunCheck.limits = .ok d ∧
      (d.observedStopRequired = true ↔ ∃ row ∈ l.samples, Crosses RunCheck.limits row)) ∧
    (∀ i row, l.samples[i]? = some row → Crosses RunCheck.limits row → i + 1 = l.samples.length) ∧
    ∀ (limits : Limits) (rows : List (Row F)) (core : Value F) (d : Decision),
      resourceDecision rows core limits = .ok d → BornOut limits rows core d := by
  unfold runCommand at h
  cases hb : env.begins with
  | error f =>
    rw [hb] at h
    cases h
    exact absurd rfl hne
  | ok _ =>
    rw [hb] at h
    obtain ⟨⟨l', e⟩, hloop, hout⟩ := Option.map_eq_some_iff.1 h
    cases hout
    obtain ⟨hc, he⟩ := loop_spec counted_empty (fun _ h => absurd h List.not_mem_nil) hloop
    exact ⟨exists_decision he hc hne hm, fun i row => he.last, fun _ _ _ _ => bornOut_of_decision⟩

/-! ### A run that stops -/

/-- The command, alone in its group. -/
def command : Identity := ⟨7, 1, 7, 7⟩

/-- A sample of it. -/
def sampleOf (sequence : ℤ) (phase : Phase) (rssBytes availableBytes : ℤ) : Row Unit :=
  let found : Stat := ⟨text "S", 7, 7, 1⟩
  observe command (text "00000000000000000000000000000000") sequence
    (some (.record [("name", .str (text phase.name)), ("event", .null)])) (text "runner_monitor") {
      startNs := 0
      anchorBefore := .ok (some found)
      opening := .ok [(7, .ok (some found))]
      rss := fun _ => .ok rssBytes
      after := fun _ => .ok (some found)
      closing := .ok [(7, .ok (some found))]
      anchorAfter := .ok (some found)
      available := .ok availableBytes
      endNs := 0 }

def calm : Environment Unit ℤ where
  loads := fun t =>
    match PyJson.loads t with
    | some v => .ok v
    | none => .error "JSONDecodeError"
  wallSeconds := 210
  begins := .ok ()
  start := 0
  closes := .ok ()
  cleanupSuccess := true
  signals := []
  captures := []
  reports := .ok ()

/-- It begins to compile, and is then over both limits. -/
def rounds : List (Round Unit ℤ) := [
  { signals := [], exit := .ok none, now := 0, monitor := .ok (sampleOf 0 .readiness 4096 4294967296),
    read := .ok (text "MIMCCHAIN_STAGE \x7b\"event\": \"start\", \"stage\": \"compile\"\x7d\n"), sleeps := .ok () },
  { signals := [], exit := .ok none, now := 1, monitor := .ok (sampleOf 1 .workload 3221225472 1073741824),
    read := .ok [], sleeps := .ok () }]

theorem replay_stop : ∃ l record d, runCommand calm rounds = some (l, record) ∧
    record.primary = .resourceStop "group RSS" ∧ l.stages.observations.length = 1 ∧
    resourceDecision l.samples (record.toJson : Value Unit) limits = .ok d ∧ d.observedStopRequired = true := by
  have hrun : ((runCommand calm rounds).map fun x => (x.2.primary, x.1.stages.observations.length,
      x.1.samples.map fun row => (row.phase.get "name").str?, x.1.samples.map rssKib)) =
      some (.resourceStop "group RSS", 1, [some (text "readiness"), some (text "workload")], [4, 3145728]) := by
    decide +kernel
  obtain ⟨⟨l, record⟩, h, hfacts⟩ := Option.map_eq_some_iff.1 hrun
  simp only [Prod.mk.injEq] at hfacts
  obtain ⟨hprimary, hstages, hphases, hrss⟩ := hfacts
  have hm : ∀ row ∈ l.samples, Monitored row := by
    intro row hrow
    have hphase := List.mem_map_of_mem (f := fun row : Row Unit => (row.phase.get "name").str?) hrow
    rw [hphases] at hphase
    simp only [List.mem_cons, List.not_mem_nil, or_false] at hphase
    exact hphase.imp Value.str?_eq_some.1 Value.str?_eq_some.1
  have hne : l.samples ≠ [] := by
    intro hnil
    rw [hnil] at hrss
    cases hrss
  obtain ⟨row, hrow, hover⟩ : ∃ row ∈ l.samples, rssKib row = 3145728 :=
    List.mem_map.1 (by rw [hrss]; exact .tail _ (.head _))
  obtain ⟨⟨d, hd, hstop⟩, -⟩ := replay h hne hm
  refine ⟨l, record, d, h, hprimary, hstages, hd, hstop.2 ⟨row, hrow, .inl ?_⟩⟩
  rw [hover]
  decide

end ResourcePolicy

end Bench

end ZkRuntime
