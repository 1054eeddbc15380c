import ZkRuntime.Bench.Observation
import ZkRuntime.Bench.Model.Stream
/-!
# What an accepted row says

The auditor passes untyped rows. Whatever row it passes, its verdict is
what the row says under the keys the auditor read, in range
(`sample_accepted`), and the processes the row names are its members: those
of the opening scan and those read again after the measurement, and, where
the two scans agree, those of the closing scan. Its anchors and the owner of
its event are its owner.
-/

namespace ZkRuntime

namespace Bench

open PyJson

variable {F : Type}

/-! ### The processes of a row -/

/-- **The row names a process**: in its opening scan, or as a member before
or after it was measured. -/
inductive Names (row : Value F) : Identity → Prop where
  | opening {values : List (Value F)} {x : Value F} {i : Identity} (h : row.get "scan_before" = .arr values)
      (hx : x ∈ values) (hi : identity x = .ok i) : Names row i
  | before {values : List (Value F)} {x : Value F} {i : Identity} (h : row.get "members" = .arr values)
      (hx : x ∈ values) (hi : identity (x.get "before") = .ok i) : Names row i
  | after {values : List (Value F)} {x : Value F} {i : Identity} (h : row.get "members" = .arr values)
      (hx : x ∈ values) (hi : identity (x.get "after") = .ok i) : Names row i

/-- The row names a process in its closing scan. -/
def NamesLast (row : Value F) (i : Identity) : Prop :=
  ∃ values x, row.get "scan_after" = .arr values ∧ x ∈ values ∧ identity x = .ok i

/-- **The row says whose it is**: as its owner, as an anchor that was there,
or as the owner of its phase event. -/
inductive Owns (row : Value F) : Identity → Prop where
  | owner {i : Identity} (hi : identity (row.get "owner") = .ok i) : Owns row i
  | anchorBefore {i : Identity} (hi : identity (row.get "anchor_before") = .ok i) : Owns row i
  | anchorAfter {i : Identity} (hi : identity (row.get "anchor_after") = .ok i) : Owns row i
  | event {i : Identity} (hi : identity (((row.get "phase").get "event").get "owner") = .ok i) : Owns row i

/-- **What a scan the auditor passes holds**: the identities of its values,
no PID twice. -/
theorem auditScan_inv {expected : Identity} : ∀ {values : List (Value F)} {found r : List Process},
    auditScan expected values found = .ok r → (found.map (·.key.pid)).Nodup →
      ∃ new, r = found ++ new ∧ values.map identity = new.map (fun p => .ok p.key) ∧ (r.map (·.key.pid)).Nodup
  | [], found, r, h, hn => by
    rw [auditScan, return_eq_ok] at h
    subst h
    exact ⟨[], by simp, rfl, hn⟩
  | x :: values, found, r, h, hn => by
    rw [auditScan, bind_eq_ok] at h
    obtain ⟨key, hkey, h⟩ := h
    split at h
    · rw [throw_eq_ok] at h
      exact h.elim
    · rename_i state hstate
      rw [require_bind_eq_ok, require_bind_eq_ok, decide_eq_true_eq] at h
      obtain ⟨hnew, -, h⟩ := h
      have hn' : ((found ++ [Process.mk key state]).map (·.key.pid)).Nodup := by
        rw [List.map_append, List.nodup_append]
        refine ⟨hn, by simp, fun a ha b hb e => ?_⟩
        rw [List.map_singleton, List.mem_singleton] at hb
        exact hnew (hb ▸ e ▸ ha)
      obtain ⟨new, rfl, hmap, hr⟩ := auditScan_inv h hn'
      refine ⟨⟨key, state⟩ :: new, by simp, ?_, hr⟩
      rw [List.map_cons, List.map_cons, hkey, hmap]

theorem checkScan_inv {expected : Identity} {row : Value F} {name : String} {found : List Process}
    (h : checkScan expected row name = .ok found) : ∃ values, row.get name = .arr values ∧
      values.map identity = found.map (fun p => .ok p.key) ∧ (found.map (·.key.pid)).Nodup := by
  unfold checkScan at h
  split at h
  · rw [throw_eq_ok] at h
    exact h.elim
  · rename_i values hvalues
    rw [require_bind_eq_ok] at h
    obtain ⟨new, rfl, hmap, hn⟩ := auditScan_inv h.2 List.nodup_nil
    exact ⟨values, Value.items?_eq_some.1 hvalues, hmap, hn⟩

/-! ### Members -/

/-- **What a member the auditor passes leaves behind.** -/
structure Passed (opening closing : List Process) (t : Tally) (x : Value F) (key : Identity) (t' : Tally) :
    Prop where
  before : identity (x.get "before") = .ok key
  after : ∀ i, identity (x.get "after") = .ok i → i = key
  discovered : ∃ p, (foundAt opening key.pid).or (foundAt closing key.pid) = some p ∧ p.key = key
  members : t'.members = t.members ++ [key]
  fresh : ∀ ticks, t.seen.lookup key.pid = some ticks → ticks = key.startTicks
  seen : t'.seen = t.seen.insert key.pid key.startTicks
  live : ∀ n ∈ t'.liveRss, n ∈ t.liveRss ∨ 0 ≤ n

theorem checkBefore_inv {expected : Identity} {opening closing : List Process} {t : Tally} {x : Value F}
    {r : Process × Table ℤ ℤ} (h : checkBefore expected opening closing t x = .ok r) :
    identity x = .ok r.1.key ∧
      (∃ p, (foundAt opening r.1.key.pid).or (foundAt closing r.1.key.pid) = some p ∧ p.key = r.1.key) ∧
      (∀ ticks, t.seen.lookup r.1.key.pid = some ticks → ticks = r.1.key.startTicks) ∧
      r.2 = t.seen.insert r.1.key.pid r.1.key.startTicks := by
  unfold checkBefore at h
  rw [bind_eq_ok] at h
  obtain ⟨key, hkey, h⟩ := h
  split at h
  · rw [throw_eq_ok] at h
    exact h.elim
  · simp only [require_bind_eq_ok, return_eq_ok, Option.any_eq_true, Option.all_eq_true,
      decide_eq_true_eq] at h
    obtain ⟨-, hdisc, -, -, hseen, -, rfl⟩ := h
    exact ⟨hkey, hdisc, hseen, rfl⟩

theorem identity_null {i : Identity} : identity (.null : Value F) ≠ .ok i := by
  intro h
  have := (identity_eq_ok.1 h).1
  cases this

theorem checkAfter_inv {before : Process} {x : Value F} {r : Option Text} (h : checkAfter before x = .ok r)
    {i : Identity} (hi : identity x = .ok i) : i = before.key := by
  unfold checkAfter at h
  have hx : ¬ x.isNull = true := by
    intro hx
    rw [Value.isNull_iff.1 hx] at hi
    exact identity_null hi
  rw [if_neg hx, bind_eq_ok] at h
  obtain ⟨key, hkey, h⟩ := h
  rw [require_bind_eq_ok, decide_eq_true_eq] at h
  rw [← h.1]
  exact Except.ok.inj (hi.symm.trans hkey)

theorem checkLabel_inv {closing : List Process} {before : Process} {after : Option Text} {rss : Option ℤ}
    {status : Value F} {t t' : Tally} (h : checkLabel closing before after rss status t = .ok t')
    (hr : ∀ n, rss = some n → 0 ≤ n) : t'.members = t.members ∧ t'.seen = t.seen ∧
      ∀ n ∈ t'.liveRss, n ∈ t.liveRss ∨ 0 ≤ n := by
  unfold checkLabel at h
  split_ifs at h with h1 h2 h3
  · split at h
    · rw [throw_eq_ok] at h
      exact h.elim
    · rename_i n
      simp only [require_bind_eq_ok, return_eq_ok] at h
      obtain ⟨-, -, rfl⟩ := h
      refine ⟨rfl, rfl, fun m hm => ?_⟩
      rcases List.mem_append.1 hm with hm | hm
      · exact .inl hm
      · rw [List.mem_singleton.1 hm]
        exact .inr (hr n rfl)
  · rw [require_bind_eq_ok, return_eq_ok] at h
    obtain ⟨-, rfl⟩ := h
    exact ⟨rfl, rfl, fun m hm => .inl hm⟩
  · rw [return_eq_ok] at h
    subst h
    exact ⟨rfl, rfl, fun m hm => .inl hm⟩

theorem auditMember_inv {expected : Identity} {opening closing : List Process} {t t' : Tally} {x : Value F}
    (h : auditMember expected opening closing t x = .ok t') :
    ∃ key, Passed opening closing t x key t' := by
  unfold auditMember at h
  rw [require_bind_eq_ok, bind_eq_ok] at h
  obtain ⟨-, ⟨before, seen⟩, hb, h⟩ := h
  obtain ⟨hkey, hdisc, hfresh, hseen⟩ := checkBefore_inv hb
  dsimp only at h
  rw [require_bind_eq_ok, require_bind_eq_ok, bind_eq_ok] at h
  obtain ⟨-, hr, after, ha, h⟩ := h
  rw [require_bind_eq_ok] at h
  have hrange : ∀ n, (x.get "rss_bytes").int? = some n → 0 ≤ n := by
    intro n hn
    rw [Value.int?_eq_some.1 hn] at hr
    simp at hr
    exact hr.1
  obtain ⟨hm, hs, hl⟩ := checkLabel_inv h.2 hrange
  exact ⟨before.key, hkey, fun i hi => checkAfter_inv ha hi, hdisc, hm, hfresh, hs.trans hseen, hl⟩

/-- The start times a table has learnt. -/
structure Learnt (seen seen' : Table ℤ ℤ) (keys : List Identity) : Prop where
  kept : ∀ pid ticks, seen.lookup pid = some ticks → seen'.lookup pid = some ticks
  learnt : ∀ k ∈ keys, seen'.lookup k.pid = some k.startTicks

theorem Passed.kept {opening closing : List Process} {t t' : Tally} {x : Value F} {key : Identity}
    (h : Passed opening closing t x key t') (pid ticks : ℤ) (hp : t.seen.lookup pid = some ticks) :
    t'.seen.lookup pid = some ticks := by
  rw [h.seen]
  by_cases e : pid = key.pid
  · subst e
    rw [AList.lookup_insert, h.fresh ticks hp]
  · rw [AList.lookup_insert_ne e, hp]

/-- **The loop over the members**, of any values. -/
theorem auditMembers_inv {expected : Identity} {opening closing : List Process} :
    ∀ {values : List (Value F)} {t t' : Tally}, auditMembers expected opening closing values t = .ok t' →
      ∃ keys, values.map (fun x => identity (x.get "before")) = keys.map .ok ∧
        t'.members = t.members ++ keys ∧ Learnt t.seen t'.seen keys ∧
        (∀ x ∈ values, ∀ i, identity (x.get "after") = .ok i → i ∈ keys) ∧
        (∀ k ∈ keys, ∃ p, (foundAt opening k.pid).or (foundAt closing k.pid) = some p ∧ p.key = k) ∧
        ∀ n ∈ t'.liveRss, n ∈ t.liveRss ∨ 0 ≤ n
  | [], t, t', h => by
    rw [auditMembers, return_eq_ok] at h
    subst h
    exact ⟨[], rfl, by simp, ⟨fun _ _ h => h, by simp⟩, by simp, by simp, fun n hn => .inl hn⟩
  | x :: values, t, t', h => by
    rw [auditMembers, bind_eq_ok] at h
    obtain ⟨t₁, h1, h2⟩ := h
    obtain ⟨key, hp⟩ := auditMember_inv h1
    obtain ⟨keys, hmap, hmem, hlearnt, hafter, hdisc, hlive⟩ := auditMembers_inv h2
    refine ⟨key :: keys, ?_, ?_, ⟨fun pid ticks ht => ?_, fun k hk => ?_⟩, fun y hy i hi => ?_, fun k hk => ?_,
      fun n hn => ?_⟩
    · rw [List.map_cons, List.map_cons, hp.before, hmap]
    · rw [hmem, hp.members, List.append_assoc]
      rfl
    · exact hlearnt.kept pid ticks (hp.kept pid ticks ht)
    · rcases List.mem_cons.1 hk with rfl | hk
      · refine hlearnt.kept _ _ ?_
        rw [hp.seen, AList.lookup_insert]
      · exact hlearnt.learnt k hk
    · rcases List.mem_cons.1 hy with rfl | hy
      · rw [hp.after i hi]
        exact List.mem_cons_self
      · exact List.mem_cons_of_mem _ (hafter y hy i hi)
    · rcases List.mem_cons.1 hk with rfl | hk
      · exact hp.discovered
      · exact hdisc k hk
    · rcases hlive n hn with hn | hn
      · exact hp.live n hn
      · exact .inr hn

/-! ### The row -/

/-- **What an accepted row says**, by its verdict. -/
structure Accepted (row owner : Value F) (sequence lastEnd : ℤ) (runId : Text) (seen : Table ℤ ℤ)
    (v : Verdict) : Prop where
  isObj : row.isObj = true
  runId : row.get "run_id" = .str runId
  sequence : row.get "sequence" = .int sequence
  startNs : row.get "start_ns" = .int v.startNs
  endNs : row.get "end_ns" = .int v.endNs
  interval : 0 ≤ v.startNs ∧ v.startNs ≤ v.endNs ∧ lastEnd ≤ v.startNs
  given : identity owner = .ok v.owner
  owner : identity (row.get "owner") = .ok v.owner
  status : row.get "sample_status" = .str (text v.status.name)
  total : row.get "group_rss_bytes" = orNull .int v.total
  complete : v.total.isSome = true ↔ v.status = .complete
  nonneg : ∀ n, v.total = some n → 0 ≤ n
  phase : (row.get "phase").get "name" = .str (text v.phase.name)
  eventless : v.phase = .unknown → v.eventNs = none
  event : v.phase ≠ .unknown → ∃ ns, v.eventNs = some ns ∧
    ((row.get "phase").get "event").get "monotonic_ns" = .int ns ∧ 0 ≤ ns ∧ ns ≤ v.startNs
  onMonitor : v.onMonitor = isText (row.get "site") "runner_monitor"
  few : ∃ values, row.get "members" = .arr values ∧ values.length ≤ maxMembers
  learnt : Learnt seen v.seen v.members
  names : ∀ i, Names row i → i ∈ v.members
  namesLast : v.status ≠ .partly → ∀ i, NamesLast row i → i ∈ v.members
  owns : ∀ i, Owns row i → i = v.owner

theorem checkHead_inv {row owner : Value F} {sequence lastEnd : ℤ} {runId : Text} {x : Identity × ℤ × ℤ}
    (h : checkHead row owner sequence lastEnd runId = .ok x) :
    row.isObj = true ∧ row.get "run_id" = .str runId ∧ row.get "sequence" = .int sequence ∧
      row.get "start_ns" = .int x.2.1 ∧ row.get "end_ns" = .int x.2.2 ∧
      (0 ≤ x.2.1 ∧ x.2.1 ≤ x.2.2 ∧ lastEnd ≤ x.2.1) ∧ identity owner = .ok x.1 ∧
      identity (row.get "owner") = .ok x.1 := by
  unfold checkHead at h
  rw [require_bind_eq_ok, require_bind_eq_ok, require_bind_eq_ok, Bool.and_eq_true] at h
  obtain ⟨⟨hobj, -⟩, hrun, hseq, h⟩ := h
  have hrun := Value.str?_eq_some.1 (beq_iff_eq.1 hrun)
  have hseq := Value.int?_eq_some.1 (beq_iff_eq.1 hseq)
  split at h
  · rename_i start stop hstart hstop
    rw [require_bind_eq_ok, bind_eq_ok] at h
    simp only [Bool.and_eq_true, decide_eq_true_eq] at h
    obtain ⟨⟨⟨h1, h2⟩, h3⟩, expected, he, h⟩ := h
    rw [require_bind_eq_ok, bind_eq_ok] at h
    obtain ⟨-, found, hf, h⟩ := h
    rw [require_bind_eq_ok, return_eq_ok, decide_eq_true_eq] at h
    obtain ⟨rfl, rfl⟩ := h
    exact ⟨hobj, hrun, hseq, Value.int?_eq_some.1 hstart, Value.int?_eq_some.1 hstop, ⟨h1, h2, h3⟩, he, hf⟩
  · rw [throw_eq_ok] at h
    exact h.elim

/-- A total is a sum of what live members have. -/
theorem checkTotal_inv {status : Status} {rss : List ℤ} {row : Value F} {x : Option ℤ}
    (h : checkTotal status rss row = .ok x) : row.get "group_rss_bytes" = orNull .int x ∧
      (x.isSome = true ↔ status = .complete) ∧ ∀ n, x = some n → n = rss.sum := by
  obtain ⟨rfl, ht⟩ := (checkTotal_eq_ok rfl).1 h
  refine ⟨ht, ?_, fun n hn => ?_⟩
  · split_ifs with hs <;> simp [hs]
  · split_ifs at hn
    exact (Option.some.inj hn).symm

theorem Phase.ofName_eq_some {x : Value F} {p : Phase} : Phase.ofName x = some p ↔ x = .str (text p.name) := by
  unfold Phase.ofName
  constructor
  · intro h
    split_ifs at h with h1 h2 h3 h4
    all_goals obtain rfl := Option.some.inj h
    · exact isText_iff.1 h1
    · exact isText_iff.1 h2
    · exact isText_iff.1 h3
    · exact isText_iff.1 h4
  · rintro rfl
    cases p <;> simp [Phase.name]

/-- An anchor that was there is the owner. -/
theorem checkAnchor_inv {expected i : Identity} {row : Value F} {name : String} {x : Unit}
    (h : checkAnchor expected row name = .ok x) (hi : identity (row.get name) = .ok i) : i = expected := by
  unfold checkAnchor at h
  rw [require_bind_eq_ok] at h
  obtain ⟨-, h⟩ := h
  split at h
  next hnull =>
    rw [Value.isNull_iff.1 hnull] at hi
    exact absurd hi identity_null
  next =>
    rw [hi] at h
    rw [bind_eq_ok] at h
    obtain ⟨found, hfound, h⟩ := h
    obtain rfl := Except.ok.inj hfound
    rw [require_eq_ok, decide_eq_true_eq] at h
    exact h

theorem checkEvent_inv {expected : Identity} {phase : Phase} {event : Value F} {start ns : ℤ}
    (h : checkEvent expected phase event start = .ok ns) :
    (event.get "monotonic_ns" = .int ns ∧ 0 ≤ ns ∧ ns ≤ start) ∧ identity (event.get "owner") = .ok expected := by
  unfold checkEvent at h
  rw [require_bind_eq_ok] at h
  obtain ⟨-, h⟩ := h
  split at h
  · rw [throw_eq_ok] at h
    exact h.elim
  · rename_i m hm
    rw [require_bind_eq_ok, bind_eq_ok] at h
    simp only [Bool.and_eq_true, decide_eq_true_eq] at h
    obtain ⟨⟨⟨-, h0⟩, h1⟩, found, hfound, h⟩ := h
    rw [require_bind_eq_ok, return_eq_ok, decide_eq_true_eq] at h
    obtain ⟨rfl, rfl⟩ := h
    exact ⟨⟨Value.int?_eq_some.1 hm, h0, h1⟩, hfound⟩

theorem checkPhase_inv {expected : Identity} {row : Value F} {start : ℤ} {x : Phase × Option ℤ}
    (h : checkPhase expected row start = .ok x) : (row.get "phase").get "name" = .str (text x.1.name) ∧
      (x.1 = .unknown → x.2 = none) ∧
      (x.1 ≠ .unknown → ∃ ns, x.2 = some ns ∧
        ((row.get "phase").get "event").get "monotonic_ns" = .int ns ∧ 0 ≤ ns ∧ ns ≤ start) ∧
      ∀ i, identity (((row.get "phase").get "event").get "owner") = .ok i → i = expected := by
  unfold checkPhase at h
  rw [require_bind_eq_ok] at h
  obtain ⟨-, h⟩ := h
  split at h
  · rw [throw_eq_ok] at h
    exact h.elim
  · rename_i hname
    rw [require_bind_eq_ok, return_eq_ok, Value.isNull_iff] at h
    obtain ⟨hnull, rfl⟩ := h
    refine ⟨Phase.ofName_eq_some.1 hname, fun _ => rfl, fun hne => absurd rfl hne, fun i hi => ?_⟩
    rw [hnull] at hi
    exact absurd hi identity_null
  · rename_i p hne hname
    rw [bind_eq_ok] at h
    obtain ⟨ns, hns, h⟩ := h
    rw [return_eq_ok] at h
    subst h
    obtain ⟨hstamp, hevent⟩ := checkEvent_inv hns
    refine ⟨Phase.ofName_eq_some.1 hname, fun e => absurd e hne, fun _ => ⟨ns, rfl, hstamp⟩, fun i hi => ?_⟩
    exact Except.ok.inj (hi.symm.trans hevent)

/-- An identity of a scan is that of one of the processes found. -/
theorem mem_of_map_identity {values : List (Value F)} {found : List Process}
    (h : values.map identity = found.map fun p => .ok p.key) {x : Value F} (hx : x ∈ values) {i : Identity}
    (hi : identity x = .ok i) : ∃ p ∈ found, p.key = i := by
  have hmem : Except.ok i ∈ found.map fun p => (Except.ok p.key : Except String Identity) := by
    rw [← h, ← hi]
    exact List.mem_map_of_mem hx
  obtain ⟨p, hp, e⟩ := List.mem_map.1 hmem
  exact ⟨p, hp, Except.ok.inj e⟩

/-- **The opening scan is of members**: every PID found is a member's, and
a member has the identity it was first found with. -/
theorem opening_member {opening closing : List Process} {keys : List Identity}
    (hn : (opening.map (·.key.pid)).Nodup)
    (hcov : ∀ pid, pid ∈ keys.map (·.pid) ↔ pid ∈ (opening ++ closing).map (·.key.pid))
    (hdisc : ∀ k ∈ keys, ∃ p, (foundAt opening k.pid).or (foundAt closing k.pid) = some p ∧ p.key = k)
    {p : Process} (hp : p ∈ opening) : p.key ∈ keys := by
  have hpid : p.key.pid ∈ keys.map (·.pid) :=
    (hcov _).2 (List.mem_map_of_mem (List.mem_append_left _ hp))
  obtain ⟨k, hk, e⟩ := List.mem_map.1 hpid
  obtain ⟨q, hq, rfl⟩ := hdisc k hk
  rw [e, foundAt_of_mem hn hp, Option.some_or] at hq
  rwa [Option.some.inj hq]

/-- **What the auditor passes says what its verdict says.** -/
theorem sample_accepted {row owner : Value F} {sequence lastEnd : ℤ} {runId : Text} {seen : Table ℤ ℤ}
    {v : Verdict} (h : sample row owner sequence lastEnd runId seen = .ok v) :
    Accepted row owner sequence lastEnd runId seen v := by
  unfold sample at h
  rw [bind_eq_ok] at h
  obtain ⟨⟨expected, start, stop⟩, hhead, h⟩ := h
  obtain ⟨hobj, hrun, hseq, hstart, hstop, hint, hgiven, howner⟩ := checkHead_inv hhead
  dsimp only at h
  rw [bind_eq_ok] at h
  obtain ⟨⟨⟩, hanchor, h⟩ := h
  rw [bind_eq_ok] at h
  obtain ⟨⟨⟩, hanchor', h⟩ := h
  rw [bind_eq_ok] at h
  obtain ⟨opening, hopen, h⟩ := h
  rw [bind_eq_ok] at h
  obtain ⟨closing, hclose, h⟩ := h
  rw [bind_eq_ok] at h
  obtain ⟨scanErrors, -, h⟩ := h
  rw [bind_eq_ok] at h
  obtain ⟨samplingErrors, -, h⟩ := h
  rw [require_bind_eq_ok] at h
  obtain ⟨-, h⟩ := h
  split at h
  · rw [throw_eq_ok] at h
    exact h.elim
  rename_i values hvalues
  rw [require_bind_eq_ok, bind_eq_ok] at h
  obtain ⟨hfew, t, ht, h⟩ := h
  rw [require_bind_eq_ok, require_bind_eq_ok, require_bind_eq_ok, require_bind_eq_ok, bind_eq_ok] at h
  obtain ⟨hcov, -, -, hstatus, total, htotal, h⟩ := h
  rw [bind_eq_ok] at h
  obtain ⟨⟨phase, eventNs⟩, hphase, h⟩ := h
  rw [require_bind_eq_ok, return_eq_ok] at h
  obtain ⟨-, rfl⟩ := h
  obtain ⟨before, hbefore, hbmap, hbn⟩ := checkScan_inv hopen
  obtain ⟨after, hafter, hamap, -⟩ := checkScan_inv hclose
  obtain ⟨keys, hmap, hmem, hlearnt, hreread, hdisc, hlive⟩ := auditMembers_inv ht
  obtain ⟨ht1, ht2, ht3⟩ := checkTotal_inv htotal
  obtain ⟨hp1, hp2, hp3, hp4⟩ := checkPhase_inv hphase
  rw [List.nil_append] at hmem
  rw [hmem, sameSet_iff] at hcov
  have hvalues := Value.items?_eq_some.1 hvalues
  have hopened : ∀ p ∈ opening, p.key ∈ keys := fun p hp => opening_member hbn hcov hdisc hp
  have hsum : ∀ n, total = some n → 0 ≤ n := by
    intro n hn
    rw [ht3 n hn]
    refine List.sum_nonneg fun m hm => ?_
    exact (hlive m hm).resolve_left (by simp)
  refine ⟨hobj, hrun, hseq, hstart, hstop, hint, hgiven, howner, isText_iff.1 hstatus, ht1, ht2, hsum, hp1, hp2,
    hp3, rfl, ⟨values, hvalues, by simpa using hfew⟩, ?_, fun i hi => ?_, fun hs i hi => ?_, fun i hi => ?_⟩
  · show Learnt seen t.seen t.members
    rw [hmem]
    exact hlearnt
  · show i ∈ t.members
    rw [hmem]
    cases hi with
    | opening hv hx hi =>
      rw [hbefore] at hv
      obtain rfl := Value.arr.inj hv
      obtain ⟨p, hp, rfl⟩ := mem_of_map_identity hbmap hx hi
      exact hopened p hp
    | before hv hx hi =>
      rw [hvalues] at hv
      obtain rfl := Value.arr.inj hv
      have : Except.ok i ∈ keys.map (Except.ok : Identity → Except String Identity) := by
        rw [← hmap, ← hi]
        exact List.mem_map_of_mem hx
      obtain ⟨k, hk, e⟩ := List.mem_map.1 this
      rwa [← Except.ok.inj e]
    | after hv hx hi =>
      rw [hvalues] at hv
      obtain rfl := Value.arr.inj hv
      exact hreread _ hx i hi
  · show i ∈ t.members
    rw [hmem]
    obtain ⟨vs, x, hv, hx, hi⟩ := hi
    rw [hafter] at hv
    obtain rfl := Value.arr.inj hv
    obtain ⟨p, hp, rfl⟩ := mem_of_map_identity hamap hx hi
    -- The two scans are one dictionary, or the sample is partial.
    have hsame : sameScan opening closing = true := by
      by_contra hne
      refine hs ?_
      show deriveStatus _ _ _ _ _ _ _ = _
      rw [Bool.not_eq_true] at hne
      rw [deriveStatus, hne]
      simp
    rw [sameScan, Bool.and_eq_true, List.all_eq_true, List.all_eq_true] at hsame
    have hin := hsame.2 p.key (List.mem_map_of_mem hp)
    rw [decide_eq_true_eq] at hin
    obtain ⟨q, hq, e⟩ := List.mem_map.1 hin
    rw [← e]
    exact hopened q hq
  · show i = expected
    cases hi with
    | owner hi => exact Except.ok.inj (hi.symm.trans howner)
    | anchorBefore hi => exact checkAnchor_inv hanchor hi
    | anchorAfter hi => exact checkAnchor_inv hanchor' hi
    | event hi => exact hp4 i hi

end Bench

end ZkRuntime
