import ZkRuntime.Bench.Helpers.Findings
/-!
# Observations under audit

The observer and the auditor grade an observation by different data: the
observer compares sorted identities and looks for its anchor's identity,
the auditor compares dictionaries by PID and looks for the anchor's PID.
Where no PID is reused the two agree on every row the auditor passes
(`status_eq_derived`), so no row passes under another status or total than
its own.
-/

namespace ZkRuntime

namespace Bench

open PyJson

variable {F : Type}

/-- **No PID is reused**: what the table has shown of a PID has one start
time. -/
def Answers.NotReused (owner : Identity) (a : Answers) : Prop :=
  ∀ i j p q, Sighting owner a i p → Sighting owner a j q → p.key.pid = q.key.pid →
    p.key.startTicks = q.key.startTicks

theorem mem_of_foundAt {found : List Process} {pid : ℤ} {p : Process} (h : foundAt found pid = some p) :
    p ∈ found ∧ p.key.pid = pid := by
  refine ⟨List.mem_of_find?_eq_some h, ?_⟩
  simpa using List.find?_some h

/-- With no PID twice, a scan finds what it holds. -/
theorem foundAt_of_mem : ∀ {found : List Process} {p : Process}, (found.map (·.key.pid)).Nodup → p ∈ found →
    foundAt found p.key.pid = some p
  | q :: found, p, hn, hp => by
    rw [List.map_cons, List.nodup_cons] at hn
    rw [foundAt, List.find?_cons]
    rcases List.mem_cons.1 hp with rfl | hp
    · simp
    · have hne : q.key.pid ≠ p.key.pid := fun e => hn.1 (e ▸ List.mem_map_of_mem hp)
      rw [decide_eq_false hne]
      exact foundAt_of_mem hn.2 hp

theorem foundAt_eq_none {found : List Process} {pid : ℤ} :
    foundAt found pid = none ↔ pid ∉ found.map (·.key.pid) := by
  rw [foundAt, List.find?_eq_none]
  simp

/-- Two scans without a PID twice are one dictionary where they are one
list reordered. -/
theorem sameScan_iff {s t : List Process} (hs : (s.map (·.key.pid)).Nodup) (ht : (t.map (·.key.pid)).Nodup) :
    sameScan s t = true ↔ (s.map (·.key)).Perm (t.map (·.key)) := by
  have nodup_keys : ∀ {l : List Process}, (l.map (·.key.pid)).Nodup → (l.map (·.key)).Nodup := by
    intro l hl
    refine List.Nodup.of_map (·.pid) ?_
    rwa [List.map_map]
  rw [List.perm_ext_iff_of_nodup (nodup_keys hs) (nodup_keys ht), sameScan, Bool.and_eq_true,
    List.all_eq_true, List.all_eq_true]
  simp only [decide_eq_true_eq]
  exact ⟨fun h k => ⟨h.1 k, h.2 k⟩, fun h => ⟨fun k => (h k).1, fun k => (h k).2⟩⟩

/-- An entry of a scan was shown by the table. -/
theorem scanLoop_subset {owner : Identity} : ∀ {l : Listing} {found : List Process} {errors : List ScanError}
    {p : Process}, p ∈ (scanLoop owner l found errors).1 → p ∈ found ∨ p ∈ groupOf owner l
  | [], found, errors, p, h => .inl h
  | (pid, answer) :: l, found, errors, p, h => by
    have hmore : p ∈ groupOf owner l → p ∈ groupOf owner ((pid, answer) :: l) := by
      intro hp
      obtain ⟨pid', s, hs, hg, rfl⟩ := mem_groupOf.1 hp
      exact mem_groupOf.2 ⟨pid', s, List.mem_cons_of_mem _ hs, hg, rfl⟩
    rcases answer with fault | _ | s
    · rw [scanLoop] at h
      exact (scanLoop_subset h).imp_right hmore
    · rw [scanLoop] at h
      exact (scanLoop_subset h).imp_right hmore
    · rw [scanLoop] at h
      have hnew : ∀ hg : s.pgid = owner.pgid, p ∈ found ++ [Process.of pid s] →
          p ∈ found ∨ p ∈ groupOf owner ((pid, .ok (some s)) :: l) := by
        intro hg hp
        rcases List.mem_append.1 hp with hp | hp
        · exact .inl hp
        · exact .inr (mem_groupOf.2 ⟨pid, s, List.mem_cons_self, hg, List.mem_singleton.1 hp⟩)
      split_ifs at h with hg hlen
      · exact hnew hg (List.mem_of_mem_take h)
      · rcases scanLoop_subset h with hp | hp
        · exact hnew hg hp
        · exact .inr (hmore hp)
      · exact (scanLoop_subset h).imp_right hmore

theorem Findings.Made.sighted_opening {owner : Identity} {a : Answers} {f : Findings} (h : f.Made owner a)
    {p : Process} (hp : p ∈ f.scanBefore) : Sighting owner a 1 p ∧ p.key.pgid = owner.pgid := by
  rcases h.opening with e | ⟨anchor, l, -, hl, e⟩
  · rw [e] at hp
    cases hp
  · rw [e] at hp
    obtain ⟨pid, s, hs, hg, rfl⟩ := mem_groupOf.1 ((scanLoop_subset hp).resolve_left List.not_mem_nil)
    exact ⟨.opening hl hs, hg⟩

theorem Findings.Made.sighted_closing {owner : Identity} {a : Answers} {f : Findings} (h : f.Made owner a)
    {p : Process} (hp : p ∈ f.scanAfter) : Sighting owner a 3 p ∧ p.key.pgid = owner.pgid := by
  rcases h.closing with e | ⟨l, hl, e⟩
  · rw [e] at hp
    cases hp
  · rw [e] at hp
    obtain ⟨pid, s, hs, hg, rfl⟩ := mem_groupOf.1 ((scanLoop_subset hp).resolve_left List.not_mem_nil)
    exact ⟨.closing hl hs, hg⟩

/-- **The anchor is in a scan by its identity where it is by its PID.** -/
theorem anchor_listed_iff {owner : Identity} {found : List Process} {p : Process} (hkey : p.key = owner)
    (hb : ∀ q ∈ found, q.Belongs owner)
    (hticks : ∀ q ∈ found, q.key.pid = p.key.pid → q.key.startTicks = p.key.startTicks) :
    found.all (fun x => decide (x.key ≠ p.key)) = (foundAt found owner.pid).isNone := by
  rw [Bool.eq_iff_iff, List.all_eq_true, Option.isNone_iff_eq_none, foundAt, List.find?_eq_none]
  refine forall₂_congr fun q hq => ?_
  rw [decide_eq_true_eq, decide_eq_true_eq, not_iff_not, hkey]
  refine ⟨fun e => by rw [e], fun e => ?_⟩
  obtain ⟨-, hg, hs⟩ := hb q hq
  have ht := hticks q hq (by rw [e, hkey])
  rw [hkey] at ht
  cases hq' : q.key
  cases owner
  simp_all

/-- **The observer and the auditor grade alike** what the auditor passes. -/
theorem status_eq_derived {owner : Identity} {a : Answers} {seen : Table ℤ ℤ} (hr : a.NotReused owner)
    (h : (findings owner a).Audited owner seen) :
    (findings owner a).status owner = (findings owner a).derived owner := by
  have hmade := made_findings owner a
  generalize findings owner a = f at h hmade
  -- Nothing contradicts: the auditor has compared the identities.
  have hcon : f.contradicts owner = false := by
    have hb : f.anchorBefore.any (fun p => decide (p.key ≠ owner)) = false := by
      cases hx : f.anchorBefore with
      | none => rfl
      | some p => simp [(h.anchorBefore p hx).1]
    have ha : f.anchorAfter.any (fun p => decide (p.key ≠ owner)) = false := by
      cases hx : f.anchorAfter with
      | none => rfl
      | some p => simp [(h.anchorAfter p hx).1]
    rw [Findings.contradicts, hb, ha, Bool.false_or, Bool.false_or, List.any_eq_false]
    intro m hm
    have hlab := (h.members m hm).labelled
    have hsid := (h.members m hm).belongs.2.2
    have hne : m.label ≠ .identityChanged := by
      intro e
      rw [Member.Labelled, e] at hlab
      exact hlab
    simp [hsid, hne]
  have hbefore : f.anchorBefore.any (fun p => f.scanBefore.all fun x => decide (x.key ≠ p.key)) =
      (!f.anchorBefore.isNone && (foundAt f.scanBefore owner.pid).isNone) := by
    cases hx : f.anchorBefore with
    | none => rfl
    | some p =>
      rw [Option.any_some, anchor_listed_iff (h.anchorBefore p hx).1 h.opening.2.1]
      · rfl
      · exact fun q hq e => hr 1 0 q p (hmade.sighted_opening hq).1 (hmade.anchorBefore p hx) e
  have hafter : f.anchorAfter.any (fun p => f.scanAfter.all fun x => decide (x.key ≠ p.key)) =
      (!f.anchorAfter.isNone && (foundAt f.scanAfter owner.pid).isNone) := by
    cases hx : f.anchorAfter with
    | none => rfl
    | some p =>
      rw [Option.any_some, anchor_listed_iff (h.anchorAfter p hx).1 h.closing.2.1]
      · rfl
      · exact fun q hq e => hr 3 4 q p (hmade.sighted_closing hq).1 (hmade.anchorAfter p hx) e
  have hperm : (!sameScan f.scanBefore f.scanAfter) =
      decide (¬ (f.scanBefore.map (·.key)).Perm (f.scanAfter.map (·.key))) := by
    rw [Bool.eq_iff_iff, Bool.not_eq_true', decide_eq_true_eq, ← sameScan_iff h.opening.2.2 h.closing.2.2,
      Bool.not_eq_true]
  have hshort : f.fallsShort = ((f.members.any fun m => m.label ≠ .live && m.label ≠ .zombie) ||
      f.scanErrors ≠ [] || f.samplingErrors ≠ [] || !sameScan f.scanBefore f.scanAfter ||
      (f.members ≠ [] && (f.anchorBefore.isNone || f.anchorAfter.isNone)) ||
      (!f.anchorBefore.isNone && (foundAt f.scanBefore owner.pid).isNone) ||
      (!f.anchorAfter.isNone && (foundAt f.scanAfter owner.pid).isNone)) := by
    rw [Findings.fallsShort, hbefore, hafter, hperm, Bool.eq_iff_iff]
    simp only [Bool.or_eq_true]
    tauto
  rw [Findings.status, hcon, Findings.derived, ← hshort, if_neg Bool.false_ne_true]
  by_cases hs : f.fallsShort = true
  · rw [if_pos hs, if_pos hs]
  rw [if_neg hs, if_neg hs]
  rw [hshort] at hs
  simp only [Bool.or_eq_true, not_or, Bool.not_eq_true] at hs
  obtain ⟨⟨⟨⟨⟨⟨hlab, -⟩, -⟩, -⟩, -⟩, hnb⟩, hna⟩ := hs
  by_cases hm : f.members = []
  · -- Without members the scans are empty, so an anchor would have been left out.
    have hempty : f.scanBefore = [] ∧ f.scanAfter = [] := by
      have hnone : ∀ pid, pid ∉ (f.scanBefore ++ f.scanAfter).map (·.key.pid) := by
        intro pid hpid
        have := (h.covered pid).2 hpid
        rw [hm] at this
        cases this
      rw [← List.append_eq_nil_iff, ← List.map_eq_nil_iff (f := fun p : Process => p.key.pid)]
      exact List.eq_nil_iff_forall_not_mem.2 hnone
    have hbn : f.anchorBefore = none := by
      rw [hempty.1] at hnb
      cases hx : f.anchorBefore with
      | none => rfl
      | some p => rw [hx] at hnb; cases hnb
    have han : f.anchorAfter = none := by
      rw [hempty.2] at hna
      cases hx : f.anchorAfter with
      | none => rfl
      | some p => rw [hx] at hna; cases hna
    rw [if_pos ⟨hm, hbn, han⟩, if_pos hm]
  · rw [if_neg fun e => hm e.1, if_neg hm, if_neg hm]
    have hlab' : ∀ m ∈ f.members, m.label = .live ∨ m.label = .zombie := by
      intro m hmem
      have := List.any_eq_false.1 hlab m hmem
      simp only [Bool.and_eq_true, decide_eq_true_eq, not_and_or, not_not, ne_eq] at this
      exact this
    by_cases hall : f.members.all (fun m => decide (m.label = .zombie)) = true
    · rw [if_pos hall, if_neg]
      rw [List.any_eq_true]
      rintro ⟨m, hmem, hl⟩
      have := List.all_eq_true.1 hall m hmem
      rw [decide_eq_true_eq] at this hl
      rw [this] at hl
      cases hl
    · rw [if_neg hall, if_pos]
      rw [List.any_eq_true]
      by_contra hno
      push Not at hno
      refine hall (List.all_eq_true.2 fun m hmem => ?_)
      rw [decide_eq_true_eq]
      refine (hlab' m hmem).resolve_left fun hl => hno m hmem ?_
      rw [decide_eq_true_eq]
      exact hl

theorem Status.name_eq_complete {s : Status} : s.name = "COMPLETE" ↔ s = .complete := by
  cases s <;> simp [Status.name]

/-- The auditor derives no invalid sample: it refuses the row. -/
theorem Findings.derived_ne_invalid {owner : Identity} (f : Findings) : f.derived owner ≠ .invalid := by
  unfold Findings.derived
  split_ifs <;> decide

/-- **No relabelling.** Whatever status and total an observed row is given,
the auditor passes it only under those the observer gave it, the total is
that of the live members of a complete sample and is missing from any
other, and a row marked invalid passes under none. -/
theorem sample_accepts_only_observed (owner : Identity) (runId : Text) (sequence : ℤ)
    (phase : Option (Value F)) (site : Text) (a : Answers) (hreuse : a.NotReused owner) :
    let r : Row F := observe owner runId sequence phase site a
    (∀ (s t auditOwner : Value F) (auditSequence lastEnd : ℤ) (auditRun : Text) (seen : Table ℤ ℤ) (v : Verdict),
      sample (r.relabelled s t) auditOwner auditSequence lastEnd auditRun seen = .ok v →
        s = .str (text r.sampleStatus.name) ∧ t = orNull .int r.groupRssBytes ∧
          (s = .str (text "COMPLETE") →
            t = .int ((r.findings.members.filter (·.label = .live)).map fun m => m.rssBytes.getD 0).sum) ∧
          (s ≠ .str (text "COMPLETE") → t = .null)) ∧
      (r.sampleStatus = .invalid →
        ∀ (s t auditOwner : Value F) (auditSequence lastEnd : ℤ) (auditRun : Text) (seen : Table ℤ ℤ) (v : Verdict),
          sample (r.relabelled s t) auditOwner auditSequence lastEnd auditRun seen ≠ .ok v) := by
  intro r
  have hgrade : ∀ seen, r.findings.Audited owner seen →
      r.sampleStatus = r.findings.derived owner ∧ r.groupRssBytes = r.findings.derivedTotal owner := by
    intro seen haud
    have hs : r.sampleStatus = r.findings.derived owner := status_eq_derived hreuse haud
    refine ⟨hs, ?_⟩
    show Findings.total owner r.findings = _
    rw [Findings.total, Findings.derivedTotal, ← hs]
    rfl
  constructor
  · intro s t auditOwner auditSequence lastEnd auditRun seen v h
    obtain ⟨-, haud, hs, ht, -⟩ := (sample_eq_ok (r.readsAs_relabelled s t)).1 h
    obtain ⟨e1, e2⟩ := hgrade seen haud
    refine ⟨?_, ?_, fun hc => ?_, fun hc => ?_⟩
    · rw [e1]
      exact hs
    · rw [e2]
      exact ht
    · rw [hs, Value.str.injEq, text_inj, Status.name_eq_complete] at hc
      rw [ht, Findings.derivedTotal, if_pos hc]
      rfl
    · rw [hs, Ne, Value.str.injEq, text_inj, Status.name_eq_complete] at hc
      rw [ht, Findings.derivedTotal, if_neg hc]
      rfl
  · intro hinv s t auditOwner auditSequence lastEnd auditRun seen v h
    obtain ⟨-, haud, -⟩ := (sample_eq_ok (r.readsAs_relabelled s t)).1 h
    rw [(hgrade seen haud).1] at hinv
    exact Findings.derived_ne_invalid r.findings hinv

/-! ### Two processes, of which one may leave -/

/-- A session leader. -/
def leader : Identity := ⟨100, 7, 100, 100⟩

/-- A sleeping member of its group. -/
def sleeping : Stat := ⟨text "S", 100, 100, 7⟩

/-- A table of the leader and a child, which are measured alive; what the
closing listing has of them is left open. -/
def pairAnswers (closing : Listing) : Answers where
  startNs := 10
  anchorBefore := .ok (some sleeping)
  opening := .ok [(100, .ok (some sleeping)), (101, .ok (some sleeping))]
  rss _ := .ok 4096
  after _ := .ok (some sleeping)
  closing := .ok closing
  anchorAfter := .ok (some sleeping)
  available := .ok 1048576
  endNs := 20

theorem sighting_pairAnswers {closing : Listing}
    (hc : ∀ e ∈ closing, e = (100, .ok (some sleeping)) ∨ e = (101, .ok (some sleeping))) {i : ℕ} {p : Process}
    (h : Sighting leader (pairAnswers closing) i p) : p = .of 100 sleeping ∨ p = .of 101 sleeping := by
  cases h with
  | anchorBefore h =>
    obtain rfl := Option.some.inj (Except.ok.inj h)
    exact .inl rfl
  | opening h hs =>
    obtain rfl := Except.ok.inj h
    simp only [List.mem_cons, Prod.mk.injEq, Except.ok.injEq, Option.some.injEq, List.not_mem_nil,
      or_false] at hs
    rcases hs with ⟨rfl, rfl⟩ | ⟨rfl, rfl⟩
    · exact .inl rfl
    · exact .inr rfl
  | after h hi hs =>
    obtain rfl := Except.ok.inj h
    obtain rfl := Option.some.inj (Except.ok.inj hs)
    have hmem := List.mem_of_getElem? hi
    simp only [groupOf, memberOf, sleeping, leader, List.filterMap_cons, List.filterMap_nil, if_true,
      List.mem_cons, List.not_mem_nil, or_false] at hmem
    rcases hmem with rfl | rfl
    · exact .inl rfl
    · exact .inr rfl
  | closing h hs =>
    obtain rfl := Except.ok.inj h
    rcases hc _ hs with e | e
    · obtain ⟨rfl, es⟩ := Prod.mk.inj e
      obtain rfl := Option.some.inj (Except.ok.inj es)
      exact .inl rfl
    · obtain ⟨rfl, es⟩ := Prod.mk.inj e
      obtain rfl := Option.some.inj (Except.ok.inj es)
      exact .inr rfl
  | anchorAfter h =>
    obtain rfl := Option.some.inj (Except.ok.inj h)
    exact .inl rfl

/-- A complete observation of the two does not pass as a partial one. -/
theorem sample_accepts_only_observed_pair :
    (observe (F := Empty) leader (text "run") 0 none (text "runner_monitor")
      (pairAnswers [(100, .ok (some sleeping)), (101, .ok (some sleeping))])).sampleStatus = .complete ∧
    ∀ v, sample ((observe (F := Empty) leader (text "run") 0 none (text "runner_monitor")
        (pairAnswers [(100, .ok (some sleeping)), (101, .ok (some sleeping))])).relabelled
        (.str (text "PARTIAL")) .null) leader.toJson 0 (-1) (text "run") ∅ ≠ .ok v := by
  have hreuse : (pairAnswers [(100, .ok (some sleeping)), (101, .ok (some sleeping))]).NotReused leader := by
    intro i j p q hp hq _
    rcases sighting_pairAnswers (by simp) hp with rfl | rfl <;>
      rcases sighting_pairAnswers (by simp) hq with rfl | rfl <;> rfl
  have hstatus : (observe (F := Empty) leader (text "run") 0 none (text "runner_monitor")
      (pairAnswers [(100, .ok (some sleeping)), (101, .ok (some sleeping))])).sampleStatus = .complete := by
    decide +kernel
  refine ⟨hstatus, fun v hv => ?_⟩
  have h := ((sample_accepts_only_observed (F := Empty) leader (text "run") 0 none (text "runner_monitor") _
    hreuse).1 _ _ _ _ _ _ _ v hv).1
  rw [hstatus, Value.str.injEq, text_inj] at h
  exact absurd h (by decide)

end Bench

end ZkRuntime
