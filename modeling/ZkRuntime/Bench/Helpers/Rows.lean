import ZkRuntime.Bench.Model.GroupAudit
/-!
# What the auditor asks of an observed row

The auditor reads untyped JSON; an observation is typed. Each check is
restated here on the typed data, one lemma to a check: `identity` on an
identity and on a process, `auditScan` on a scan, `auditMember` on a
member, and from them the loop over the members (`auditMembers_ok`,
`auditMembers_of_audited`).
-/

namespace ZkRuntime

namespace Bench

open PyJson

variable {F : Type}

/-! ### Identities -/

/-- The integers of an identity in range. -/
def Identity.Valid (i : Identity) : Prop := 1 < i.pid ∧ 1 < i.pgid ∧ 1 < i.sid ∧ 0 ≤ i.startTicks

/-- A process as the reader gives it: an identity in range and a letter. -/
def Process.Valid (p : Process) : Prop := p.key.Valid ∧ isLetter p.state = true

/-- **When an identity is read**, of any value. -/
theorem identity_eq_ok {v : Value F} {i : Identity} : identity v = .ok i ↔
    v.isObj = true ∧ (v.get "pid").int? = some i.pid ∧ (v.get "pgid").int? = some i.pgid ∧
      (v.get "sid").int? = some i.sid ∧ (v.get "start_ticks").int? = some i.startTicks ∧ i.Valid ∧
      stateAllowed v = true := by
  obtain ⟨pid, ticks, pgid, sid⟩ := i
  unfold identity
  rw [require_bind_eq_ok]
  refine and_congr_right fun _ => ?_
  split
  · rename_i p g s t hp hg hs ht
    rw [hp, hg, hs, ht]
    simp only [require_bind_eq_ok, return_eq_ok, Bool.and_eq_true, decide_eq_true_eq, Identity.mk.injEq,
      Option.some.injEq, Identity.Valid]
    constructor
    · rintro ⟨⟨⟨⟨h1, h2⟩, h3⟩, h4⟩, hstate, rfl, rfl, rfl, rfl⟩
      exact ⟨rfl, rfl, rfl, rfl, ⟨h1, h2, h3, h4⟩, hstate⟩
    · rintro ⟨rfl, rfl, rfl, rfl, ⟨h1, h2, h3, h4⟩, hstate⟩
      exact ⟨⟨⟨⟨h1, h2⟩, h3⟩, h4⟩, hstate, rfl, rfl, rfl, rfl⟩
  · rename_i h
    rw [throw_eq_ok, false_iff]
    rintro ⟨hp, hg, hs, ht, -⟩
    exact h _ _ _ _ hp hg hs ht

theorem identity_toJson {i k : Identity} : identity (i.toJson : Value F) = .ok k ↔ k = i ∧ i.Valid := by
  rw [identity_eq_ok]
  simp only [Identity.toJson, Value.get, stateAllowed, Value.find?_record_cons, Value.find?_record_nil,
    Value.isObj_record]
  simp only [String.reduceEq, if_true, if_false, Option.getD_some, Value.int?_int, Option.some.injEq, true_and]
  constructor
  · rintro ⟨h1, h2, h3, h4, hv, -⟩
    obtain rfl : i = k := by
      cases i; cases k
      simp_all
    exact ⟨rfl, hv⟩
  · rintro ⟨rfl, hv⟩
    exact ⟨rfl, rfl, rfl, rfl, hv, trivial⟩

theorem stateOf_process (p : Process) : stateOf (p.toJson : Value F) = some p.state := by
  simp [stateOf, Process.toJson]

theorem identity_process {p : Process} {k : Identity} :
    identity (p.toJson : Value F) = .ok k ↔ k = p.key ∧ p.Valid := by
  rw [identity_eq_ok]
  simp only [Process.toJson, Value.get, stateAllowed, Value.find?_record_cons, Value.find?_record_nil,
    Value.isObj_record]
  simp only [String.reduceEq, if_true, if_false, Option.getD_some, Value.int?_int, Value.str?_str,
    Option.some.injEq, Option.any_some, true_and, Process.Valid]
  constructor
  · rintro ⟨h1, h2, h3, h4, hv, hs⟩
    obtain rfl : p.key = k := by
      cases k; cases hp : p.key
      simp_all
    exact ⟨rfl, hv, hs⟩
  · rintro ⟨rfl, hv, hs⟩
    exact ⟨rfl, rfl, rfl, rfl, hv, hs⟩

/-! ### Scans -/

/-- A member of the owner's group and session, in range. -/
def Process.Belongs (expected : Identity) (p : Process) : Prop :=
  p.Valid ∧ p.key.pgid = expected.pgid ∧ p.key.sid = expected.sid

/-- **When a scan passes**: every process belongs, and no PID stands
twice. -/
theorem auditScan_eq_ok {expected : Identity} : ∀ {ps found r : List Process},
    auditScan expected (ps.map fun p => (p.toJson : Value F)) found = .ok r ↔
      r = found ++ ps ∧ (∀ p ∈ ps, p.Belongs expected) ∧ (ps.map (·.key.pid)).Nodup ∧
        ∀ p ∈ ps, p.key.pid ∉ found.map (·.key.pid)
  | [], found, r => by
    rw [List.map_nil, auditScan, return_eq_ok]
    simp [eq_comm]
  | p :: ps, found, r => by
    have hstep : auditScan expected ((p :: ps).map fun p => (p.toJson : Value F)) found = .ok r ↔
        p.Belongs expected ∧ p.key.pid ∉ found.map (·.key.pid) ∧
          auditScan expected (ps.map fun p => (p.toJson : Value F)) (found ++ [p]) = .ok r := by
      rw [List.map_cons, auditScan, bind_eq_ok]
      simp only [identity_process, stateOf_process, require_bind_eq_ok, decide_eq_true_eq, Bool.and_eq_true,
        Process.Belongs]
      constructor
      · rintro ⟨k, ⟨rfl, hv⟩, hd, ⟨hg, hs⟩, h⟩
        exact ⟨⟨hv, hg, hs⟩, hd, h⟩
      · rintro ⟨⟨hv, hg, hs⟩, hd, h⟩
        exact ⟨p.key, ⟨rfl, hv⟩, hd, ⟨hg, hs⟩, h⟩
    rw [hstep, auditScan_eq_ok]
    simp only [List.append_assoc, List.cons_append, List.nil_append, List.map_append, List.map_cons,
      List.map_nil, List.mem_append, not_or, List.nodup_cons, List.mem_cons, List.not_mem_nil, not_false_eq_true,
      and_true, forall_eq_or_imp]
    constructor
    · rintro ⟨hp, hd, rfl, hb, hn, hps⟩
      refine ⟨rfl, ⟨hp, hb⟩, ⟨?_, hn⟩, hd, fun q hq => (hps q hq).1⟩
      intro hmem
      obtain ⟨q, hq, e⟩ := List.mem_map.1 hmem
      exact (hps q hq).2 e
    · rintro ⟨rfl, ⟨hp, hb⟩, ⟨hpn, hn⟩, hd, hps⟩
      refine ⟨hp, hd, rfl, hb, hn, fun q hq => ⟨hps q hq, fun e => hpn ?_⟩⟩
      exact List.mem_map.2 ⟨q, hq, e⟩

/-! ### Members -/

/-- What was read after the measurement, if anything: the same process, and
ended if it had. -/
def Member.Confirmed (m : Member) : Prop :=
  ∀ a, m.after = some a → a.Valid ∧ a.key = m.before.key ∧ (isDead m.before.state = true → isDead a.state = true)

/-- What the label says, against what was read. -/
def Member.Labelled (closing : List Process) (m : Member) : Prop :=
  match m.label with
  | .live => ∃ n a, m.rssBytes = some n ∧ m.after = some a ∧ isDead a.state = false ∧
      isDead m.before.state = false ∧ (foundAt closing m.before.key.pid).any (·.key = m.before.key) = true
  | .zombie => ∃ a, m.after = some a ∧ isDead a.state = true ∧ isDead m.before.state = true ∧ m.rssBytes = none
  | .identityChanged => False
  | _ => True

/-- **A member that passes**, apart from those before it. -/
structure Member.Audited (expected : Identity) (opening closing : List Process) (m : Member) : Prop where
  belongs : m.before.Belongs expected
  discovered : (foundAt opening m.before.key.pid).or (foundAt closing m.before.key.pid) = some m.before
  inRange : ∀ n, m.rssBytes = some n → 0 ≤ n ∧ n ≤ maxRssBytes
  confirmed : m.Confirmed
  closed : closingAllowed closing m.before (m.after.map (·.state)) = true
  labelled : m.Labelled closing

/-- The tally behind a member. -/
def Tally.add (t : Tally) (m : Member) : Tally where
  members := t.members ++ [m.before.key]
  liveRss := if m.label = .live then t.liveRss ++ [m.rssBytes.getD 0] else t.liveRss
  partly := t.partly || (m.label ≠ .live && m.label ≠ .zombie)
  seen := t.seen.insert m.before.key.pid m.before.key.startTicks

/-- A member that is new to the row, with the start time the stream has
seen. -/
def Tally.Admits (t : Tally) (m : Member) : Prop :=
  m.before.key.pid ∉ t.members.map (·.pid) ∧
    (∀ ticks, t.seen.lookup m.before.key.pid = some ticks → ticks = m.before.key.startTicks) ∧
    (t.seen.insert m.before.key.pid m.before.key.startTicks).keys.length ≤ maxProcEntries

theorem checkBefore_eq_ok {expected : Identity} {opening closing : List Process} {t : Tally} {p : Process}
    {x : Process × Table ℤ ℤ} :
    checkBefore expected opening closing t (p.toJson : Value F) = .ok x ↔
      x = (p, t.seen.insert p.key.pid p.key.startTicks) ∧ p.Belongs expected ∧
        p.key.pid ∉ t.members.map (·.pid) ∧
        (foundAt opening p.key.pid).or (foundAt closing p.key.pid) = some p ∧
        (∀ ticks, t.seen.lookup p.key.pid = some ticks → ticks = p.key.startTicks) ∧
        (t.seen.insert p.key.pid p.key.startTicks).keys.length ≤ maxProcEntries := by
  unfold checkBefore
  rw [bind_eq_ok]
  simp only [identity_process, stateOf_process, require_bind_eq_ok, decide_eq_true_eq,
    Bool.and_eq_true, return_eq_ok, Option.any_eq_true, Option.all_eq_true, Process.Belongs]
  constructor
  · rintro ⟨k, ⟨rfl, hv⟩, hnew, ⟨q, hq, hkey⟩, ⟨q', hq', hstate⟩, ⟨hg, hs⟩, hseen, hlen, rfl⟩
    obtain rfl : q = q' := Option.some.inj (hq.symm.trans hq')
    obtain rfl : q = p := by
      cases q; cases p
      simp_all
    exact ⟨rfl, ⟨hv, hg, hs⟩, hnew, hq, hseen, hlen⟩
  · rintro ⟨rfl, ⟨hv, hg, hs⟩, hnew, hq, hseen, hlen⟩
    exact ⟨p.key, ⟨rfl, hv⟩, hnew, ⟨p, hq, rfl⟩, ⟨p, hq, rfl⟩, ⟨hg, hs⟩, hseen, hlen, rfl⟩

theorem isNull_orNull {f : α → Value F} (hf : ∀ x, (f x).isNull = false) (o : Option α) :
    (orNull f o).isNull = o.isNone := by
  cases o with
  | none => rfl
  | some x => exact hf x

theorem isNull_process (p : Process) : (p.toJson : Value F).isNull = false := rfl

theorem checkAfter_eq_ok {before : Process} {after : Option Process} {x : Option Text} :
    checkAfter before (orNull Process.toJson after : Value F) = .ok x ↔
      x = after.map (·.state) ∧ ∀ a, after = some a → a.Valid ∧ a.key = before.key ∧
        (isDead before.state = true → isDead a.state = true) := by
  unfold checkAfter
  cases after with
  | none =>
    rw [orNull, Value.isNull_null, if_pos rfl, return_eq_ok]
    exact ⟨fun h => ⟨h.symm, fun a ha => nomatch ha⟩, fun h => h.1.symm⟩
  | some a =>
    rw [orNull, isNull_process, if_neg Bool.false_ne_true, bind_eq_ok]
    simp only [identity_process, stateOf_process, require_bind_eq_ok, return_eq_ok, decide_eq_true_eq,
      Bool.or_eq_true, Bool.not_eq_true', Option.map_some, Option.some.injEq, forall_eq']
    constructor
    · rintro ⟨k, ⟨rfl, hv⟩, hk, hd, rfl⟩
      exact ⟨rfl, hv, hk, fun h => hd.resolve_left (by simp [h])⟩
    · rintro ⟨rfl, hv, hk, hd⟩
      refine ⟨a.key, ⟨rfl, hv⟩, hk, ?_, rfl⟩
      cases h : isDead before.state with
      | false => exact .inl rfl
      | true => exact .inr (hd h)

theorem checkLabel_eq_ok {closing : List Process} {m : Member} {t t' : Tally} :
    checkLabel closing m.before (m.after.map (·.state)) m.rssBytes (.str (text m.label.name) : Value F) t =
        .ok t' ↔
      m.Labelled closing ∧ t' = { t with
        liveRss := if m.label = .live then t.liveRss ++ [m.rssBytes.getD 0] else t.liveRss,
        partly := t.partly || (m.label ≠ .live && m.label ≠ .zombie) } := by
  unfold checkLabel Member.Labelled
  cases hl : m.label with
  | live =>
    simp only [Label.name, isText_str, decide_true, if_true]
    cases hr : m.rssBytes with
    | none => simp
    | some n =>
      simp only [require_bind_eq_ok, return_eq_ok, Bool.and_eq_true, Option.any_map, Option.any_eq_true,
        Bool.not_eq_true', decide_eq_true_eq]
      constructor
      · rintro ⟨⟨⟨a, ha, hda⟩, hdb⟩, ⟨q, hq, hkey⟩, rfl⟩
        refine ⟨⟨n, a, rfl, ha, hda, hdb, q, hq, hkey⟩, ?_⟩
        simp
      · rintro ⟨⟨n', a, -, ha, hda, hdb, q, hq, hkey⟩, rfl⟩
        refine ⟨⟨⟨a, ha, hda⟩, hdb⟩, ⟨q, hq, hkey⟩, ?_⟩
        simp
  | zombie =>
    simp only [Label.name, isText_str, String.reduceEq, decide_false, decide_true, Bool.false_eq_true, if_false,
      if_true, require_bind_eq_ok, return_eq_ok, Bool.and_eq_true, Option.any_map, Option.any_eq_true,
      Option.isNone_iff_eq_none]
    constructor
    · rintro ⟨⟨⟨⟨a, ha, hda⟩, hdb⟩, hr⟩, rfl⟩
      exact ⟨⟨a, ha, hda, hdb, hr⟩, by simp⟩
    · rintro ⟨⟨a, ha, hda, hdb, hr⟩, rfl⟩
      exact ⟨⟨⟨⟨a, ha, hda⟩, hdb⟩, hr⟩, by simp⟩
  | identityChanged => simp [Label.name]
  | vanished => simp [Label.name, @eq_comm _ t']
  | unreadable => simp [Label.name, @eq_comm _ t']
  | missing => simp [Label.name, @eq_comm _ t']

/-- **When a member passes.** -/
theorem auditMember_eq_ok {expected : Identity} {opening closing : List Process} {t t' : Tally} {m : Member} :
    auditMember expected opening closing t (m.toJson : Value F) = .ok t' ↔
      m.Audited expected opening closing ∧ t.Admits m ∧ t' = t.add m := by
  have hbefore : (m.toJson : Value F).get "before" = m.before.toJson := by simp [Member.toJson, Value.get]
  have hafter : (m.toJson : Value F).get "after" = orNull Process.toJson m.after := by
    simp [Member.toJson, Value.get]
  have hrss : (m.toJson : Value F).get "rss_bytes" = orNull .int m.rssBytes := by
    simp [Member.toJson, Value.get]
  have hstatus : (m.toJson : Value F).get "status" = .str (text m.label.name) := by
    simp [Member.toJson, Value.get]
  have hboth : (((m.toJson : Value F).find? "rss_bytes").isSome &&
      ((m.toJson : Value F).find? "after").isSome) = true := by simp [Member.toJson]
  have hint : (orNull .int m.rssBytes : Value F).int? = m.rssBytes := by cases m.rssBytes <;> rfl
  have hrange : ((orNull .int m.rssBytes : Value F).isNull ||
      m.rssBytes.any fun n => decide (0 ≤ n) && decide (n ≤ maxRssBytes)) = true ↔
      ∀ n, m.rssBytes = some n → 0 ≤ n ∧ n ≤ maxRssBytes := by
    cases m.rssBytes <;> simp [orNull]
  unfold auditMember
  dsimp only
  rw [hbefore, hafter, hrss, hstatus, hboth, hint, require_bind_eq_ok, bind_eq_ok]
  constructor
  · rintro ⟨-, ⟨p, seen⟩, hb, h⟩
    obtain ⟨e, hbel, hnew, hdisc, hseen, hlen⟩ := checkBefore_eq_ok.1 hb
    obtain ⟨rfl, rfl⟩ := Prod.mk.inj e
    dsimp only at h
    rw [require_bind_eq_ok, require_bind_eq_ok, bind_eq_ok] at h
    obtain ⟨-, hr, after, ha, h⟩ := h
    obtain ⟨rfl, hconf⟩ := checkAfter_eq_ok.1 ha
    rw [require_bind_eq_ok, checkLabel_eq_ok] at h
    obtain ⟨hclosed, hlab, rfl⟩ := h
    exact ⟨⟨hbel, hdisc, hrange.1 hr, hconf, hclosed, hlab⟩, ⟨hnew, hseen, hlen⟩, rfl⟩
  · rintro ⟨⟨hbel, hdisc, hr, hconf, hclosed, hlab⟩, ⟨hnew, hseen, hlen⟩, rfl⟩
    refine ⟨rfl, (m.before, _), checkBefore_eq_ok.2 ⟨rfl, hbel, hnew, hdisc, hseen, hlen⟩, ?_⟩
    dsimp only
    rw [require_bind_eq_ok, require_bind_eq_ok, bind_eq_ok]
    refine ⟨rfl, hrange.2 hr, m.after.map (·.state), checkAfter_eq_ok.2 ⟨rfl, hconf⟩, ?_⟩
    rw [require_bind_eq_ok, checkLabel_eq_ok]
    exact ⟨hclosed, hlab, rfl⟩

/-- **The loop over the members.** It passes where every member passes and
is admitted by the tally of those before it. -/
theorem auditMembers_eq_ok {expected : Identity} {opening closing : List Process} :
    ∀ {ms : List Member} {t t' : Tally},
      auditMembers expected opening closing (ms.map fun m => (m.toJson : Value F)) t = .ok t' ↔
        (∀ m ∈ ms, m.Audited expected opening closing) ∧
          (∀ i, ∀ m, ms[i]? = some m → ((ms.take i).foldl Tally.add t).Admits m) ∧ t' = ms.foldl Tally.add t
  | [], t, t' => by
    rw [List.map_nil, auditMembers, return_eq_ok]
    simp [eq_comm]
  | m :: ms, t, t' => by
    rw [List.map_cons, auditMembers, bind_eq_ok]
    constructor
    · rintro ⟨t₁, h1, h2⟩
      obtain ⟨hm, hadm, rfl⟩ := auditMember_eq_ok.1 h1
      obtain ⟨hms, hadms, rfl⟩ := auditMembers_eq_ok.1 h2
      refine ⟨by simpa using ⟨hm, hms⟩, fun i x hx => ?_, rfl⟩
      cases i with
      | zero => obtain rfl : m = x := by simpa using hx
                exact hadm
      | succ i => exact hadms i x (by simpa using hx)
    · rintro ⟨hms, hadms, rfl⟩
      refine ⟨t.add m, auditMember_eq_ok.2 ⟨hms m List.mem_cons_self, hadms 0 m rfl, rfl⟩,
        auditMembers_eq_ok.2 ⟨fun x hx => hms x (List.mem_cons_of_mem _ hx), fun i x hx => ?_, rfl⟩⟩
      exact hadms (i + 1) x (by simpa using hx)

/-! ### The tally of a row -/

theorem Tally.foldl_members : ∀ (ms : List Member) (t : Tally),
    (ms.foldl Tally.add t).members = t.members ++ ms.map (·.before.key)
  | [], t => by simp
  | m :: ms, t => by
    rw [List.foldl_cons, Tally.foldl_members ms, Tally.add, List.map_cons, List.append_assoc]
    rfl

theorem Tally.foldl_liveRss : ∀ (ms : List Member) (t : Tally),
    (ms.foldl Tally.add t).liveRss =
      t.liveRss ++ (ms.filter (·.label = .live)).map fun m => m.rssBytes.getD 0
  | [], t => by simp
  | m :: ms, t => by
    rw [List.foldl_cons, Tally.foldl_liveRss ms, Tally.add, List.filter_cons]
    dsimp only
    split_ifs <;> simp_all

theorem Tally.foldl_partly : ∀ (ms : List Member) (t : Tally),
    (ms.foldl Tally.add t).partly = (t.partly || ms.any fun m => m.label ≠ .live && m.label ≠ .zombie)
  | [], t => by simp
  | m :: ms, t => by
    rw [List.foldl_cons, Tally.foldl_partly ms, Tally.add, List.any_cons, Bool.or_assoc]

/-! ### The row -/

/-- A row under another status and another total. -/
def Row.relabelled (r : Row F) (s t : Value F) : Value F :=
  (r.toJson.put "sample_status" s).put "group_rss_bytes" t

theorem Row.find?_relabelled (r : Row F) (s t : Value F) (k : String) :
    (r.relabelled s t).find? k =
      if "group_rss_bytes" = k then some t else if "sample_status" = k then some s else r.toJson.find? k := by
  rw [Row.relabelled, Value.find?_put (by rfl), Value.find?_put (by rfl)]

/-- **The findings the auditor passes**, whatever the status. -/
structure Findings.Audited (expected : Identity) (seen : Table ℤ ℤ) (f : Findings) : Prop where
  anchorBefore : ∀ a, f.anchorBefore = some a → a.key = expected ∧ a.Valid
  anchorAfter : ∀ a, f.anchorAfter = some a → a.key = expected ∧ a.Valid
  opening : f.scanBefore.length ≤ maxMembers ∧ (∀ p ∈ f.scanBefore, p.Belongs expected) ∧
    (f.scanBefore.map (·.key.pid)).Nodup
  closing : f.scanAfter.length ≤ maxMembers ∧ (∀ p ∈ f.scanAfter, p.Belongs expected) ∧
    (f.scanAfter.map (·.key.pid)).Nodup
  few : f.members.length ≤ maxMembers
  members : ∀ m ∈ f.members, m.Audited expected f.scanBefore f.scanAfter
  admitted : ∀ i, ∀ m, f.members[i]? = some m →
    ((f.members.take i).foldl Tally.add ⟨[], [], false, seen⟩).Admits m
  covered : ∀ pid, pid ∈ f.members.map (·.before.key.pid) ↔
    pid ∈ (f.scanBefore ++ f.scanAfter).map (·.key.pid)
  available : ∀ n, f.memAvailableBytes = some n → 0 ≤ n ∧ n ≤ maxRssBytes
  reason : f.memAvailableBytes = none → f.samplingErrors ≠ []

/-- The status the auditor derives, of the findings. -/
def Findings.derived (expected : Identity) (f : Findings) : Status :=
  if (f.members.any fun m => m.label ≠ .live && m.label ≠ .zombie) || f.scanErrors ≠ [] ||
      f.samplingErrors ≠ [] || !sameScan f.scanBefore f.scanAfter ||
      (f.members ≠ [] && (f.anchorBefore.isNone || f.anchorAfter.isNone)) ||
      (!f.anchorBefore.isNone && (foundAt f.scanBefore expected.pid).isNone) ||
      (!f.anchorAfter.isNone && (foundAt f.scanAfter expected.pid).isNone) then .partly
  else if f.members = [] then .noLiveMembers
  else if f.members.any (·.label = .live) then .complete
  else .zombieOnly

theorem checkAnchor_eq_ok {expected : Identity} {row : Value F} {name : String} {o : Option Process}
    (h : row.find? name = some (orNull Process.toJson o)) :
    checkAnchor expected row name = .ok () ↔ ∀ a, o = some a → a.key = expected ∧ a.Valid := by
  unfold checkAnchor
  rw [Value.get_of_find? h, h, require_bind_eq_ok]
  cases o with
  | none => simp [orNull, pure, Except.pure]
  | some a =>
    rw [orNull, isNull_process, if_neg Bool.false_ne_true, bind_eq_ok]
    simp only [Option.isSome_some, true_and, identity_process, require_eq_ok, decide_eq_true_eq,
      Option.some.injEq, forall_eq']
    constructor
    · rintro ⟨k, ⟨rfl, hv⟩, hk⟩
      exact ⟨hk, hv⟩
    · rintro ⟨hk, hv⟩
      exact ⟨a.key, ⟨rfl, hv⟩, hk⟩

theorem checkScan_eq_ok {expected : Identity} {row : Value F} {name : String} {ps r : List Process}
    (h : row.get name = .arr (ps.map Process.toJson)) :
    checkScan expected row name = .ok r ↔ r = ps ∧ ps.length ≤ maxMembers ∧
      (∀ p ∈ ps, p.Belongs expected) ∧ (ps.map (·.key.pid)).Nodup := by
  unfold checkScan
  rw [h, Value.items?_arr]
  dsimp only
  rw [require_bind_eq_ok, List.length_map, decide_eq_true_eq]
  constructor
  · rintro ⟨hlen, hs⟩
    obtain ⟨rfl, hb, hn, -⟩ := auditScan_eq_ok.1 hs
    exact ⟨rfl, hlen, hb, hn⟩
  · rintro ⟨rfl, hlen, hb, hn⟩
    exact ⟨hlen, auditScan_eq_ok.2 ⟨rfl, hb, hn, fun p _ h => nomatch h⟩⟩

theorem checkErrors_eq_ok {row : Value F} {name reason : String} {ts r : List Text}
    (h : row.get name = .arr (ts.map .str)) : checkErrors row name reason = .ok r ↔ r = ts := by
  unfold checkErrors
  have hfilter : (ts.map (.str : Text → Value F)).filterMap Value.str? = ts := by
    rw [List.filterMap_map]
    exact (List.filterMap_congr fun t _ => rfl).trans (List.filterMap_some)
  rw [h, Value.items?_arr]
  dsimp only
  rw [require_bind_eq_ok, return_eq_ok, hfilter]
  refine ⟨fun h => h.2.symm, fun h => ⟨?_, h.symm⟩⟩
  simp

/-- What the auditor compares a row's head with. -/
structure Row.Headed (r : Row F) (owner : Value F) (sequence lastEnd : ℤ) (runId : Text) : Prop where
  run : r.runId = runId
  place : r.sequence = sequence
  time : 0 ≤ r.startNs ∧ r.startNs ≤ r.endNs ∧ lastEnd ≤ r.startNs
  owner : identity owner = .ok r.owner
  anchor : r.owner.pid = r.owner.pgid ∧ r.owner.pgid = r.owner.sid
  valid : r.owner.Valid

theorem checkHead_eq_ok {r : Row F} {row owner : Value F} {sequence lastEnd : ℤ} {runId : Text}
    {x : Identity × ℤ × ℤ} (hrow : row.isObj = true) (hv : row.get "schema_version" = .int version)
    (hr : row.get "run_id" = .str r.runId) (hs : row.get "sequence" = .int r.sequence)
    (hb : row.get "start_ns" = .int r.startNs) (he : row.get "end_ns" = .int r.endNs)
    (ho : row.get "owner" = r.owner.toJson) :
    checkHead row owner sequence lastEnd runId = .ok x ↔
      x = (r.owner, r.startNs, r.endNs) ∧ r.Headed owner sequence lastEnd runId := by
  unfold checkHead
  rw [hrow, hv, hr, hs, hb, he, ho]
  simp only [Value.int?_int, Value.str?_str]
  rw [require_bind_eq_ok, require_bind_eq_ok, require_bind_eq_ok, require_bind_eq_ok, bind_eq_ok]
  simp only [require_bind_eq_ok, beq_self_eq_true, Bool.and_self, beq_iff_eq, Option.some.injEq,
    Bool.and_eq_true, decide_eq_true_eq, true_and]
  constructor
  · rintro ⟨hrun, hseq, ⟨⟨h1, h2⟩, h3⟩, k, hk, ⟨h4, h5⟩, h⟩
    rw [bind_eq_ok] at h
    obtain ⟨k', hk', h⟩ := h
    obtain ⟨rfl, hval⟩ := identity_toJson.1 hk'
    rw [require_bind_eq_ok, decide_eq_true_eq, return_eq_ok] at h
    obtain ⟨rfl, rfl⟩ := h
    exact ⟨rfl, hrun, hseq, ⟨h1, h2, h3⟩, hk, ⟨h4, h5⟩, hval⟩
  · rintro ⟨rfl, hrun, hseq, ⟨h1, h2, h3⟩, hk, ⟨h4, h5⟩, hval⟩
    refine ⟨hrun, hseq, ⟨⟨h1, h2⟩, h3⟩, r.owner, hk, ⟨h4, h5⟩, ?_⟩
    rw [bind_eq_ok]
    refine ⟨r.owner, identity_toJson.2 ⟨rfl, hval⟩, ?_⟩
    rw [require_bind_eq_ok, decide_eq_true_eq, return_eq_ok]
    exact ⟨rfl, rfl⟩

/-- The total the auditor derives. -/
def Findings.derivedTotal (expected : Identity) (f : Findings) : Option ℤ :=
  if f.derived expected = .complete then some f.liveTotal else none

theorem checkTotal_eq_ok {status : Status} {rss : List ℤ} {row t : Value F} {x : Option ℤ}
    (h : row.get "group_rss_bytes" = t) : checkTotal status rss row = .ok x ↔
      x = (if status = .complete then some rss.sum else none) ∧ t = orNull .int x := by
  unfold checkTotal
  rw [h]
  split_ifs with hs
  · rw [require_bind_eq_ok, return_eq_ok, beq_iff_eq, Value.int?_eq_some]
    constructor
    · rintro ⟨rfl, rfl⟩
      exact ⟨rfl, rfl⟩
    · rintro ⟨rfl, ht⟩
      exact ⟨ht, rfl⟩
  · rw [require_bind_eq_ok, return_eq_ok, Value.isNull_iff]
    constructor
    · rintro ⟨rfl, rfl⟩
      exact ⟨rfl, rfl⟩
    · rintro ⟨rfl, ht⟩
      exact ⟨ht, rfl⟩

/-- **What is read of a row** under a status and a total: a dictionary
answers by key. -/
structure Row.ReadsAs (r : Row F) (s t row : Value F) : Prop where
  isObj : row.isObj = true
  version : row.get "schema_version" = .int version
  runId : row.get "run_id" = .str r.runId
  sequence : row.get "sequence" = .int r.sequence
  startNs : row.get "start_ns" = .int r.startNs
  endNs : row.get "end_ns" = .int r.endNs
  phase : row.get "phase" = r.phase
  site : row.get "site" = .str r.site
  owner : row.get "owner" = r.owner.toJson
  anchorBefore : row.find? "anchor_before" = some (orNull Process.toJson r.findings.anchorBefore)
  anchorAfter : row.find? "anchor_after" = some (orNull Process.toJson r.findings.anchorAfter)
  scanBefore : row.get "scan_before" = .arr (r.findings.scanBefore.map Process.toJson)
  scanAfter : row.get "scan_after" = .arr (r.findings.scanAfter.map Process.toJson)
  scanErrors : row.get "scan_errors" = .arr ((r.findings.scanErrors.map ScanError.text).map .str)
  members : row.get "members" = .arr (r.findings.members.map Member.toJson)
  scanStatus : row.get "membership_scan_status" =
    .str (text (if r.findings.scanErrors ≠ [] then "partial" else "complete"))
  status : row.get "sample_status" = s
  total : row.get "group_rss_bytes" = t
  available : row.get "mem_available_bytes" = orNull .int r.findings.memAvailableBytes
  samplingErrors : row.get "sampling_errors" =
    .arr ((r.findings.samplingErrors.map fun e => text e.name).map .str)

theorem Row.readsAs_relabelled (r : Row F) (s t : Value F) : r.ReadsAs s t (r.relabelled s t) := by
  constructor
  case isObj => rfl
  all_goals simp [Value.get, Row.find?_relabelled, Row.toJson]

/-- A row is read as itself under its own status and total. -/
theorem Row.readsAs_toJson (r : Row F) :
    r.ReadsAs (.str (text r.sampleStatus.name)) (orNull .int r.groupRssBytes) r.toJson := by
  constructor
  case isObj => rfl
  all_goals simp [Value.get, Row.toJson]

theorem sameSet_iff {a b : List ℤ} : sample.sameSet a b = true ↔ ∀ x, x ∈ a ↔ x ∈ b := by
  simp only [sample.sameSet, Bool.and_eq_true, List.all_eq_true, decide_eq_true_eq]
  exact ⟨fun h x => ⟨h.1 x, h.2 x⟩, fun h => ⟨fun x => (h x).1, fun x => (h x).2⟩⟩

/-- The auditor's status, on what it reads of the row. -/
theorem deriveStatus_eq {r : Row F} {s t row : Value F} (h : r.ReadsAs s t row) (seen : Table ℤ ℤ) :
    deriveStatus r.owner row r.findings.scanBefore r.findings.scanAfter
      (r.findings.scanErrors.map ScanError.text) (r.findings.samplingErrors.map fun e => text e.name)
      (r.findings.members.foldl Tally.add ⟨[], [], false, seen⟩) = r.findings.derived r.owner := by
  have hb : (row.get "anchor_before").isNull = r.findings.anchorBefore.isNone := by
    rw [Value.get_of_find? h.anchorBefore, isNull_orNull isNull_process]
  have ha : (row.get "anchor_after").isNull = r.findings.anchorAfter.isNone := by
    rw [Value.get_of_find? h.anchorAfter, isNull_orNull isNull_process]
  have hlive : (r.findings.members.filter (·.label = .live)).map (fun m => m.rssBytes.getD 0) ≠ [] ↔
      r.findings.members.any (·.label = .live) = true := by
    rw [Ne, List.map_eq_nil_iff, List.filter_eq_nil_iff, List.any_eq_true]
    push Not
    rfl
  rw [deriveStatus, Findings.derived, hb, ha, Tally.foldl_members, Tally.foldl_liveRss, Tally.foldl_partly]
  simp only [List.nil_append, Bool.false_or, ne_eq, List.map_eq_nil_iff] at hlive ⊢
  simp only [hlive]

/-- The site is one of the two. -/
theorem site_iff {x : Text} : (isText (.str x : Value F) "runner_monitor" ||
    isText (.str x : Value F) "cleanup_check") = true ↔ x = text "runner_monitor" ∨ x = text "cleanup_check" := by
  rw [Bool.or_eq_true, isText_iff, isText_iff, Value.str.injEq, Value.str.injEq]

/-- The reasons a missing MemAvailable needs are the only sampling errors
there are. -/
theorem reason_iff {es : List SamplingError} {o : Option ℤ} :
    (!(orNull .int o : Value F).isNull || decide (text "mem_available_unreadable" ∈ es.map fun e => text e.name) ||
      decide (text "observation_interrupted" ∈ es.map fun e => text e.name)) = true ↔ (o = none → es ≠ []) := by
  rw [isNull_orNull fun n => rfl]
  cases o with
  | some n => simp
  | none =>
    cases es with
    | nil => simp
    | cons e es => cases e <;> simp [SamplingError.name]

theorem range_iff {o : Option ℤ} : ((orNull .int o : Value F).isNull ||
    (orNull .int o : Value F).int?.any fun n => decide (0 ≤ n) && decide (n ≤ maxRssBytes)) = true ↔
      ∀ n, o = some n → 0 ≤ n ∧ n ≤ maxRssBytes := by
  cases o <;> simp [orNull]

/-- **When the auditor passes an observed row** under a status and a
total. -/
theorem sample_eq_ok {r : Row F} {s t row owner : Value F} {sequence lastEnd : ℤ} {runId : Text}
    {seen : Table ℤ ℤ} {v : Verdict} (h : r.ReadsAs s t row) :
    sample row owner sequence lastEnd runId seen = .ok v ↔
      r.Headed owner sequence lastEnd runId ∧ r.findings.Audited r.owner seen ∧
        s = .str (text (r.findings.derived r.owner).name) ∧
        t = orNull .int (r.findings.derivedTotal r.owner) ∧
        (∃ p, checkPhase r.owner row r.startNs = .ok p ∧
          (r.site = text "runner_monitor" ∨ r.site = text "cleanup_check") ∧
          v = ⟨r.findings.derived r.owner, r.findings.derivedTotal r.owner, p.1, p.2, r.owner, r.startNs,
            r.endNs, isText (row.get "site") "runner_monitor", r.findings.members.map (·.before.key),
            (r.findings.members.foldl Tally.add ⟨[], [], false, seen⟩).seen⟩) := by
  have hhead : ∀ x, checkHead row owner sequence lastEnd runId = .ok x ↔
      x = (r.owner, r.startNs, r.endNs) ∧ r.Headed owner sequence lastEnd runId := fun x =>
    checkHead_eq_ok h.isObj h.version h.runId h.sequence h.startNs h.endNs h.owner
  have htotal : ((r.findings.members.foldl Tally.add ⟨[], [], false, seen⟩).liveRss).sum =
      r.findings.liveTotal := by
    rw [Tally.foldl_liveRss, List.nil_append, Findings.liveTotal]
  have hpids : (r.findings.members.foldl Tally.add ⟨[], [], false, seen⟩).members =
      r.findings.members.map (·.before.key) := by
    rw [Tally.foldl_members, List.nil_append]
  unfold sample
  rw [bind_eq_ok]
  constructor
  · rintro ⟨x, hx, hs⟩
    obtain ⟨rfl, hheaded⟩ := (hhead x).1 hx
    dsimp only at hs
    rw [bind_eq_ok] at hs
    obtain ⟨⟨⟩, hb, hs⟩ := hs
    rw [bind_eq_ok] at hs
    obtain ⟨⟨⟩, ha, hs⟩ := hs
    rw [bind_eq_ok] at hs
    obtain ⟨opening, hopen, hs⟩ := hs
    obtain ⟨rfl, ho⟩ := (checkScan_eq_ok h.scanBefore).1 hopen
    rw [bind_eq_ok] at hs
    obtain ⟨closing, hclose, hs⟩ := hs
    obtain ⟨rfl, hc⟩ := (checkScan_eq_ok h.scanAfter).1 hclose
    rw [bind_eq_ok] at hs
    obtain ⟨scanErrors, he, hs⟩ := hs
    obtain rfl := (checkErrors_eq_ok h.scanErrors).1 he
    rw [bind_eq_ok] at hs
    obtain ⟨samplingErrors, he, hs⟩ := hs
    obtain rfl := (checkErrors_eq_ok h.samplingErrors).1 he
    rw [require_bind_eq_ok, h.members, Value.items?_arr] at hs
    obtain ⟨-, hs⟩ := hs
    dsimp only at hs
    rw [require_bind_eq_ok, bind_eq_ok, List.length_map, decide_eq_true_eq] at hs
    obtain ⟨hfew, tally, hm, hs⟩ := hs
    obtain ⟨haud, hadm, rfl⟩ := auditMembers_eq_ok.1 hm
    rw [require_bind_eq_ok, require_bind_eq_ok, require_bind_eq_ok, require_bind_eq_ok, bind_eq_ok,
      deriveStatus_eq h, h.status, h.available, hpids, sameSet_iff, range_iff, reason_iff, isText_iff] at hs
    obtain ⟨hcov, hav, hreason, hstatus, total, ht, hs⟩ := hs
    rw [checkTotal_eq_ok h.total, htotal] at ht
    obtain ⟨rfl, ht⟩ := ht
    rw [bind_eq_ok] at hs
    obtain ⟨p, hp, hs⟩ := hs
    rw [require_bind_eq_ok, return_eq_ok, h.site, site_iff] at hs
    obtain ⟨hsite, rfl⟩ := hs
    refine ⟨hheaded, ⟨?_, ?_, ho, hc, hfew, haud, hadm, ?_, hav, hreason⟩, hstatus, ht, p, hp, hsite, ?_⟩
    · exact (checkAnchor_eq_ok h.anchorBefore).1 hb
    · exact (checkAnchor_eq_ok h.anchorAfter).1 ha
    · intro pid
      simpa [List.map_map] using hcov pid
    · rw [h.site]
      rfl
  · rintro ⟨hheaded, haud, hstatus, ht, p, hp, hsite, rfl⟩
    refine ⟨_, (hhead _).2 ⟨rfl, hheaded⟩, ?_⟩
    dsimp only
    rw [bind_eq_ok]
    refine ⟨(), (checkAnchor_eq_ok h.anchorBefore).2 haud.anchorBefore, ?_⟩
    rw [bind_eq_ok]
    refine ⟨(), (checkAnchor_eq_ok h.anchorAfter).2 haud.anchorAfter, ?_⟩
    rw [bind_eq_ok]
    refine ⟨_, (checkScan_eq_ok h.scanBefore).2 ⟨rfl, haud.opening⟩, ?_⟩
    rw [bind_eq_ok]
    refine ⟨_, (checkScan_eq_ok h.scanAfter).2 ⟨rfl, haud.closing⟩, ?_⟩
    rw [bind_eq_ok]
    refine ⟨_, (checkErrors_eq_ok h.scanErrors).2 rfl, ?_⟩
    rw [bind_eq_ok]
    refine ⟨_, (checkErrors_eq_ok h.samplingErrors).2 rfl, ?_⟩
    rw [require_bind_eq_ok, h.members, Value.items?_arr, h.scanStatus]
    refine ⟨by simp, ?_⟩
    dsimp only
    rw [require_bind_eq_ok, bind_eq_ok, List.length_map, decide_eq_true_eq]
    refine ⟨haud.few, _, auditMembers_eq_ok.2 ⟨haud.members, haud.admitted, rfl⟩, ?_⟩
    rw [require_bind_eq_ok, require_bind_eq_ok, require_bind_eq_ok, require_bind_eq_ok, bind_eq_ok,
      deriveStatus_eq h, h.status, h.available, hpids, sameSet_iff, range_iff, reason_iff, isText_iff]
    refine ⟨fun pid => ?_, haud.available, haud.reason, hstatus, r.findings.derivedTotal r.owner, ?_, ?_⟩
    · simpa [List.map_map] using haud.covered pid
    · rw [checkTotal_eq_ok h.total, htotal]
      exact ⟨rfl, ht⟩
    rw [bind_eq_ok]
    refine ⟨p, hp, ?_⟩
    rw [require_bind_eq_ok, return_eq_ok, h.site, site_iff]
    exact ⟨hsite, rfl⟩

end Bench

end ZkRuntime
