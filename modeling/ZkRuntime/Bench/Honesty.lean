import ZkRuntime.Bench.Observation
/-!
# Honest observations

What a process table does not do: end a process and revive it, give a PID
to another process within the stream, or move a member of the group to
another group or session. Under such a table, with at most `maxMembers`
members ever, an observation is never invalid, and everything the auditor
checks holds of it (`Answers.Honest.audited`), save one thing. A member
measured alive keeps the label when the process then exits, or the closing
scan fails to read it, and the auditor takes such a member for a
contradiction: the row passes exactly where every member measured alive is
in the closing scan (`observe_auditable_iff`).
-/

namespace ZkRuntime

namespace Bench

open PyJson

variable {F : Type}

/-- **A table that answers honestly**, in a stream that has seen the start
times `seen`. -/
structure Answers.Honest (owner : Identity) (seen : Table ℤ ℤ) (a : Answers) : Prop where
  /-- The identities of the owner and of its group are well formed. -/
  wellFormed : ∀ i p, Sighting owner a i p → p.key.pid = owner.pid ∨ p.key.pgid = owner.pgid → p.Valid
  /-- A listing names a PID once. -/
  listedOnce : ∀ l, a.opening = .ok l ∨ a.closing = .ok l → (l.map (·.1)).Nodup
  /-- What has ended stays ended. -/
  noRevival : ∀ i j p q, Sighting owner a i p → Sighting owner a j q → i < j → p.key = q.key →
    isDead p.state = true → isDead q.state = true
  /-- No PID is reused within the stream. -/
  notReused : a.NotReused owner
  ownerKept : ∀ i p, Sighting owner a i p → p.key.pid = owner.pid → p.key = owner
  seenKept : ∀ i p, Sighting owner a i p → p.key.pgid = owner.pgid →
    ∀ ticks, seen.lookup p.key.pid = some ticks → ticks = p.key.startTicks
  /-- Members keep their process group and session, once they are there. -/
  groupKept : ∀ i j p q, Sighting owner a i p → Sighting owner a j q → i ≤ j → p.key.pid = q.key.pid →
    p.key.pgid = owner.pgid → q.key.pgid = owner.pgid ∧ q.key.sid = owner.sid
  /-- Few members ever appear. -/
  few : ∃ pids : Finset ℤ, pids.card ≤ maxMembers ∧ (∀ pid ∈ seen.keys, pid ∈ pids) ∧
    ∀ i p, Sighting owner a i p → p.key.pgid = owner.pgid → p.key.pid ∈ pids
  /-- Memory is measured in range. -/
  rssInRange : ∀ i n, a.rss i = .ok n → 0 ≤ n ∧ n ≤ maxRssBytes
  availableInRange : ∀ n, a.available = .ok n → 0 ≤ n ∧ n ≤ maxRssBytes

/-- **Every member measured alive is in the closing scan**: where the owner
was read, each member of the opening listing that was not ended, whose RSS
was read and which was then read not ended either, is listed again and read
again. -/
def Answers.LiveStay (owner : Identity) (a : Answers) : Prop :=
  ∀ anchor l i item n s, a.anchorBefore = .ok anchor → a.opening = .ok l →
    (groupOf owner l)[i]? = some item → isDead item.state = false → a.rss i = .ok n →
    a.after i = .ok (some s) → isDead s.state = false →
    ∃ l' s', a.closing = .ok l' ∧ (item.key.pid, .ok (some s')) ∈ l'

namespace Answers

section

variable {owner : Identity} {seen : Table ℤ ℤ} {a : Answers}

/-- **No more of the group than there ever are**, in any list of it without
a PID twice. -/
theorem Honest.length_le (h : a.Honest owner seen) {β : Type} {l : List β} {pid : β → ℤ}
    (hn : (l.map pid).Nodup)
    (hl : ∀ x ∈ l, ∃ i p, Sighting owner a i p ∧ p.key.pgid = owner.pgid ∧ p.key.pid = pid x) :
    l.length ≤ maxMembers := by
  obtain ⟨pids, hcard, -, hmem⟩ := h.few
  rw [← List.length_map (f := pid), ← List.toFinset_card_of_nodup hn]
  refine (Finset.card_le_card fun y hy => ?_).trans hcard
  obtain ⟨x, hx, rfl⟩ := List.mem_map.1 (List.mem_toFinset.1 hy)
  obtain ⟨i, p, hp, hg, e⟩ := hl x hx
  exact e ▸ hmem i p hp hg

theorem Honest.length_groupOf (h : a.Honest owner seen) {l : Listing}
    (hl : a.opening = .ok l ∨ a.closing = .ok l) : (groupOf owner l).length ≤ maxMembers := by
  refine h.length_le (nodup_groupOf (h.listedOnce l hl)) fun p hp => ?_
  obtain ⟨pid, s, hs, hg, rfl⟩ := mem_groupOf.1 hp
  rcases hl with hl | hl
  · exact ⟨1, _, .opening hl hs, hg, rfl⟩
  · exact ⟨3, _, .closing hl hs, hg, rfl⟩

/-- So the scans find the whole group. -/
theorem Honest.scan_eq (h : a.Honest owner seen) {l : Listing} (hl : a.opening = .ok l ∨ a.closing = .ok l) :
    (scanLoop owner l [] []).1 = groupOf owner l := by
  rw [scanLoop_fst (by simpa using h.length_groupOf hl), List.nil_append]

/-- What a scan of the observation holds belongs to the owner's group. -/
theorem Honest.belongs (h : a.Honest owner seen) {i : ℕ} {p : Process} (hp : Sighting owner a i p)
    (hg : p.key.pgid = owner.pgid) : p.Belongs owner :=
  ⟨h.wellFormed i p hp (.inr hg), hg, (h.groupKept i i p p hp hp le_rfl rfl hg).2⟩

/-- **A member that is seen again has the identity it had.** -/
theorem Honest.key_eq (h : a.Honest owner seen) {i j : ℕ} {p q : Process} (hp : Sighting owner a i p)
    (hq : Sighting owner a j q) (hij : i ≤ j) (hpid : p.key.pid = q.key.pid) (hg : p.key.pgid = owner.pgid) :
    q.key = p.key := by
  have h1 := h.groupKept i j p q hp hq hij hpid hg
  have h2 := h.groupKept i i p p hp hp le_rfl rfl hg
  have h3 := h.notReused i j p q hp hq hpid
  cases hp' : p.key
  cases hq' : q.key
  simp_all

/-- The opening scan is the group of the opening listing. -/
theorem Honest.opening_at (h : a.Honest owner seen) {i : ℕ} {item : Process}
    (hi : (findings owner a).scanBefore[i]? = some item) :
    ∃ anchor l, a.anchorBefore = .ok anchor ∧ a.opening = .ok l ∧ (groupOf owner l)[i]? = some item := by
  rcases (made_findings owner a).opening with e | ⟨anchor, l, hb, hl, e⟩
  · rw [e] at hi
    simp at hi
  · rw [e, h.scan_eq (.inl hl)] at hi
    exact ⟨anchor, l, hb, hl, hi⟩

/-- A member read again is read under its own identity. -/
theorem Honest.confirmed_key (h : a.Honest owner seen) {i : ℕ} {item : Process}
    (hi : (findings owner a).scanBefore[i]? = some item) {s : Stat} (hs : a.after i = .ok (some s)) :
    (Process.of item.key.pid s).key = item.key ∧ Sighting owner a 2 (.of item.key.pid s) := by
  obtain ⟨anchor, l, -, hl, hitem⟩ := h.opening_at hi
  have hafter : Sighting owner a 2 (.of item.key.pid s) := .after hl hitem hs
  obtain ⟨hsight, hg⟩ := (made_findings owner a).sighted_opening (List.mem_of_getElem? hi)
  exact ⟨h.key_eq hsight hafter (by omega) rfl hg, hafter⟩

theorem Honest.nodup_opening (h : a.Honest owner seen) :
    ((findings owner a).scanBefore.map (·.key.pid)).Nodup := by
  rcases (made_findings owner a).opening with e | ⟨anchor, l, -, hl, e⟩
  · rw [e]
    exact List.nodup_nil
  · rw [e, h.scan_eq (.inl hl)]
    exact nodup_groupOf (h.listedOnce l (.inl hl))

theorem Honest.nodup_closing (h : a.Honest owner seen) :
    ((findings owner a).scanAfter.map (·.key.pid)).Nodup := by
  rcases (made_findings owner a).closing with e | ⟨l, hl, e⟩
  · rw [e]
    exact List.nodup_nil
  · rw [e, h.scan_eq (.inr hl)]
    exact nodup_groupOf (h.listedOnce l (.inr hl))

/-- No two members are of one PID. -/
theorem Honest.nodup_members (h : a.Honest owner seen) :
    ((findings owner a).members.map (·.before.key.pid)).Nodup := by
  have hmissing : ∀ {before after : List Process}, (missing before after).map (·.before.key.pid) =
      (after.map (·.key.pid)).filter fun pid => decide (pid ∉ before.map (·.key.pid)) := by
    intro before after
    rw [missing, List.map_map, List.filter_map]
    rfl
  have hmeasured : ∀ {items : List Process}, (measureAll a 0 items).map (·.before.key.pid) =
      items.map (·.key.pid) := by
    intro items
    rw [← map_before_measureAll a items 0, List.map_map, map_before_measureAll]
    rfl
  rw [(made_findings owner a).members, List.map_append, hmeasured, hmissing, List.nodup_append]
  refine ⟨h.nodup_opening, h.nodup_closing.filter _, ?_⟩
  rintro x hx y hy rfl
  rw [List.mem_filter, decide_eq_true_eq] at hy
  exact hy.2 hx

/-- Where a member of the observation comes from. -/
theorem Honest.member_cases {m : Member} (hm : m ∈ (findings owner a).members) :
    (∃ i item, (findings owner a).scanBefore[i]? = some item ∧ m = measure item (a.rss i) (a.after i)) ∨
      ∃ p ∈ (findings owner a).scanAfter, p.key.pid ∉ (findings owner a).scanBefore.map (·.key.pid) ∧
        m = ⟨p, none, none, .missing⟩ := by
  rw [(made_findings owner a).members, List.mem_append] at hm
  rcases hm with hm | hm
  · exact .inl (mem_measured hm)
  · exact .inr (mem_missing.1 hm)

/-- **A member as the auditor wants it**, apart from the closing scan of a
live one. -/
theorem Honest.audited_measured (h : a.Honest owner seen) {i : ℕ} {item : Process}
    (hi : (findings owner a).scanBefore[i]? = some item)
    (hlive : (measure item (a.rss i) (a.after i)).label = .live →
      (foundAt (findings owner a).scanAfter item.key.pid).any (·.key = item.key) = true) :
    (measure item (a.rss i) (a.after i)).Audited owner (findings owner a).scanBefore
      (findings owner a).scanAfter := by
  have hmade := made_findings owner a
  have hmem := List.mem_of_getElem? hi
  obtain ⟨hsight, hg⟩ := hmade.sighted_opening hmem
  have hkey : ∀ s, a.after i = .ok (some s) → (Process.of item.key.pid s).key = item.key :=
    fun s hs => (h.confirmed_key hi hs).1
  -- The closing scan shows the same process, ended if it had.
  have hclosing : ∀ p, foundAt (findings owner a).scanAfter item.key.pid = some p →
      Sighting owner a 3 p ∧ p.key = item.key := by
    intro p hp
    obtain ⟨hp, hpid⟩ := mem_of_foundAt hp
    obtain ⟨hsp, -⟩ := hmade.sighted_closing hp
    exact ⟨hsp, h.key_eq hsight hsp (by omega) hpid.symm hg⟩
  refine ⟨?_, ?_, ?_, ?_, ?_, ?_⟩
  · rw [measure_before]
    exact h.belongs hsight hg
  · rw [measure_before, foundAt_of_mem h.nodup_opening hmem]
    rfl
  · exact fun n hn => h.rssInRange i n (measure_rss hn)
  · intro p hp
    rw [measure_before]
    obtain ⟨s, hs, rfl⟩ := measure_after hp
    obtain ⟨hk, hss⟩ := h.confirmed_key hi hs
    have hgroup : (Process.of item.key.pid s).key.pgid = owner.pgid := by rw [hk, hg]
    exact ⟨h.wellFormed 2 _ hss (.inr hgroup), hk, h.noRevival 1 2 _ _ hsight hss (by omega) hk.symm⟩
  · rw [measure_before, closingAllowed]
    cases hp : foundAt (findings owner a).scanAfter item.key.pid with
    | none => rfl
    | some p =>
      obtain ⟨hsp, hpk⟩ := hclosing p hp
      have hdead : isDead item.state = true ∨
          ((measure item (a.rss i) (a.after i)).after.map (·.state)).any isDead = true →
          isDead p.state = true := by
        rintro (hd | hd)
        · exact h.noRevival 1 3 _ _ hsight hsp (by omega) hpk.symm hd
        · rw [Option.any_map, Option.any_eq_true] at hd
          obtain ⟨q, hq, hd⟩ := hd
          obtain ⟨s, hs, rfl⟩ := measure_after hq
          obtain ⟨hk, hss⟩ := h.confirmed_key hi hs
          exact h.noRevival 2 3 _ _ hss hsp (by omega) (hk.trans hpk.symm) hd
      simp only [Bool.or_eq_true, Bool.not_eq_true', decide_eq_true_eq]
      by_cases hd : (isDead item.state ||
          ((measure item (a.rss i) (a.after i)).after.map (·.state)).any isDead) = true
      · exact .inr (hdead (by simpa using hd))
      · exact .inl (.inr (by simpa using hd))
  · rw [Member.Labelled]
    split
    · rename_i hl
      obtain ⟨n, s, hn, hs, hd, hds⟩ := (measure_live hkey).1 hl
      rw [measure_before]
      refine ⟨n, .of item.key.pid s, ?_, ?_, hds, hd, hlive hl⟩
      · rw [hn, hs, measure, if_neg (by simp [hd])]
        rfl
      · rw [hn, hs, measure, if_neg (by simp [hd])]
        rfl
    · rename_i hl
      obtain ⟨hd, hr, s, hs, ha⟩ := measure_zombie hkey hl
      obtain ⟨hk, hss⟩ := h.confirmed_key hi hs
      rw [measure_before]
      exact ⟨_, ha, h.noRevival 1 2 _ _ hsight hss (by omega) hk.symm hd, hd, hr⟩
    · rename_i hl
      exact measure_ne_identityChanged hkey hl
    · trivial

theorem Honest.audited_missing (h : a.Honest owner seen) {p : Process} (hp : p ∈ (findings owner a).scanAfter)
    (hn : p.key.pid ∉ (findings owner a).scanBefore.map (·.key.pid)) :
    Member.Audited owner (findings owner a).scanBefore (findings owner a).scanAfter ⟨p, none, none, .missing⟩ := by
  obtain ⟨hsight, hg⟩ := (made_findings owner a).sighted_closing hp
  have hfound := foundAt_of_mem h.nodup_closing hp
  refine ⟨h.belongs hsight hg, ?_, (fun n hn => nomatch hn), (fun q hq => nomatch hq), ?_, trivial⟩
  · show (foundAt _ p.key.pid).or (foundAt _ p.key.pid) = some p
    rw [foundAt_eq_none.2 hn, hfound]
    rfl
  · rw [closingAllowed]
    dsimp only
    rw [hfound]
    simp

/-- A member was shown in the group. -/
theorem Honest.member_sighted {m : Member} (hm : m ∈ (findings owner a).members) :
    ∃ i, Sighting owner a i m.before ∧ m.before.key.pgid = owner.pgid := by
  rcases member_cases hm with ⟨i, item, hi, rfl⟩ | ⟨p, hp, -, rfl⟩
  · rw [measure_before]
    exact ⟨1, (made_findings owner a).sighted_opening (List.mem_of_getElem? hi)⟩
  · exact ⟨3, (made_findings owner a).sighted_closing hp⟩

/-- The stream's memory of a PID the row has not reached yet. -/
theorem lookup_foldl_add : ∀ {ms : List Member} {t : Tally} {pid : ℤ},
    pid ∉ ms.map (·.before.key.pid) → (ms.foldl Tally.add t).seen.lookup pid = t.seen.lookup pid
  | [], t, pid, _ => rfl
  | m :: ms, t, pid, h => by
    rw [List.map_cons, List.mem_cons, not_or] at h
    rw [List.foldl_cons, lookup_foldl_add h.2]
    exact AList.lookup_insert_ne h.1

theorem mem_foldl_add : ∀ {ms : List Member} {t : Tally} {pid : ℤ},
    pid ∈ (ms.foldl Tally.add t).seen → pid ∈ t.seen ∨ pid ∈ ms.map (·.before.key.pid)
  | [], t, pid, h => .inl h
  | m :: ms, t, pid, h => by
    rw [List.foldl_cons] at h
    rcases mem_foldl_add h with h | h
    · rcases (AList.mem_insert _).1 h with rfl | h
      · exact .inr List.mem_cons_self
      · exact .inl h
    · exact .inr (List.mem_cons_of_mem _ h)

/-- **The row admits its members** one after another. -/
theorem Honest.admits (h : a.Honest owner seen) {i : ℕ} {m : Member}
    (hi : (findings owner a).members[i]? = some m) :
    (((findings owner a).members.take i).foldl Tally.add ⟨[], [], false, seen⟩).Admits m := by
  have hmem := List.mem_of_getElem? hi
  obtain ⟨j, hsight, hg⟩ := member_sighted hmem
  have hnew : m.before.key.pid ∉ ((findings owner a).members.take i).map (·.before.key.pid) := by
    intro hin
    rw [List.map_take] at hin
    obtain ⟨k, hk⟩ := List.mem_iff_getElem?.1 hin
    rw [List.getElem?_take] at hk
    split_ifs at hk with hki
    have hi' : ((findings owner a).members.map (·.before.key.pid))[i]? = some m.before.key.pid := by
      rw [List.getElem?_map, hi]
      rfl
    have hlt : k < ((findings owner a).members.map (·.before.key.pid)).length :=
      (List.getElem?_eq_some_iff.1 hk).1
    have := (List.getElem?_inj hlt h.nodup_members).1 (hk.trans hi'.symm)
    omega
  refine ⟨?_, fun ticks ht => ?_, ?_⟩
  · rw [Tally.foldl_members, List.nil_append, List.map_map]
    exact hnew
  · rw [lookup_foldl_add hnew] at ht
    exact h.seenKept j m.before hsight hg ticks ht
  · -- The stream remembers no PID that is not of the group.
    obtain ⟨pids, hcard, hseen, hpids⟩ := h.few
    have hmember : ∀ x ∈ (findings owner a).members, x.before.key.pid ∈ pids := by
      intro x hx
      obtain ⟨k, hk, hgk⟩ := member_sighted hx
      exact hpids k _ hk hgk
    have hsub : ∀ pid ∈ ((((findings owner a).members.take i).foldl Tally.add ⟨[], [], false, seen⟩).seen.insert
        m.before.key.pid m.before.key.startTicks).keys, pid ∈ pids := by
      intro pid hpid
      rcases (AList.mem_insert _).1 hpid with rfl | hpid
      · exact hmember m hmem
      · rcases mem_foldl_add hpid with hpid | hpid
        · exact hseen pid hpid
        · obtain ⟨x, hx, rfl⟩ := List.mem_map.1 hpid
          exact hmember x (List.mem_of_mem_take hx)
    rw [← List.toFinset_card_of_nodup (AList.keys_nodup _)]
    have hle := Finset.card_le_card fun x hx => hsub x (List.mem_toFinset.1 hx)
    have : maxMembers ≤ maxProcEntries := by decide
    exact hle.trans (hcard.trans this)

theorem Honest.length_members (h : a.Honest owner seen) : (findings owner a).members.length ≤ maxMembers := by
  refine h.length_le h.nodup_members fun m hm => ?_
  obtain ⟨i, hi, hg⟩ := member_sighted hm
  exact ⟨i, _, hi, hg, rfl⟩

/-- The members are those of the two scans. -/
theorem covered (pid : ℤ) : pid ∈ (findings owner a).members.map (·.before.key.pid) ↔
    pid ∈ ((findings owner a).scanBefore ++ (findings owner a).scanAfter).map (·.key.pid) := by
  have hmade := made_findings owner a
  generalize findings owner a = f at hmade ⊢
  rw [hmade.members, List.map_append, List.map_append, List.mem_append, List.mem_append]
  have hleft : pid ∈ (measureAll a 0 f.scanBefore).map (·.before.key.pid) ↔
      pid ∈ f.scanBefore.map (·.key.pid) := by
    have : (measureAll a 0 f.scanBefore).map (·.before.key.pid) = f.scanBefore.map (·.key.pid) := by
      rw [← map_before_measureAll a f.scanBefore 0, List.map_map,
        map_before_measureAll]
      rfl
    rw [this]
  rw [hleft]
  constructor
  · rintro (hp | hp)
    · exact .inl hp
    · obtain ⟨m, hm, rfl⟩ := List.mem_map.1 hp
      obtain ⟨p, hpa, -, rfl⟩ := mem_missing.1 hm
      exact .inr (List.mem_map.2 ⟨p, hpa, rfl⟩)
  · rintro (hp | hp)
    · exact .inl hp
    · by_cases hb : pid ∈ f.scanBefore.map (·.key.pid)
      · exact .inl hb
      · obtain ⟨p, hpa, rfl⟩ := List.mem_map.1 hp
        exact .inr (List.mem_map.2 ⟨_, mem_missing.2 ⟨p, hpa, hb, rfl⟩, rfl⟩)

/-- **Every member measured alive is in the closing scan**, of the
findings. -/
theorem Honest.liveStay_iff (h : a.Honest owner seen) : a.LiveStay owner ↔
    ∀ i item, (findings owner a).scanBefore[i]? = some item →
      (measure item (a.rss i) (a.after i)).label = .live →
      (foundAt (findings owner a).scanAfter item.key.pid).any (·.key = item.key) = true := by
  have hmade := made_findings owner a
  constructor
  · intro hstay i item hi hl
    obtain ⟨anchor, l, hb, ho, hitem⟩ := h.opening_at hi
    obtain ⟨n, s, hn, hs, hd, hds⟩ := (measure_live fun s hs => (h.confirmed_key hi hs).1).1 hl
    obtain ⟨l', s', hc, hmem⟩ := hstay anchor l i item n s hb ho hitem hd hn hs hds
    obtain ⟨hsight, hg⟩ := hmade.sighted_opening (List.mem_of_getElem? hi)
    have hsc : Sighting owner a 3 (.of item.key.pid s') := .closing hc hmem
    have hkey := h.key_eq hsight hsc (by omega) rfl hg
    have hscan : Process.of item.key.pid s' ∈ (findings owner a).scanAfter := by
      rw [hmade.closed anchor l l' hb ho hc, h.scan_eq (.inr hc)]
      refine mem_groupOf.2 ⟨_, s', hmem, ?_, rfl⟩
      rw [← Process.of_pgid item.key.pid s', hkey, hg]
    have hfound := foundAt_of_mem h.nodup_closing hscan
    rw [Process.of_pid] at hfound
    rw [hfound]
    simpa using hkey
  · intro hall anchor l i item n s hb ho hitem hd hn hs hds
    have hi : (findings owner a).scanBefore[i]? = some item := by
      rw [hmade.opened anchor l hb ho, h.scan_eq (.inl ho)]
      exact hitem
    have hl := (measure_live fun s hs => (h.confirmed_key hi hs).1).2 ⟨n, s, hn, hs, hd, hds⟩
    have hfound := hall i item hi hl
    rw [Option.any_eq_true] at hfound
    obtain ⟨p, hp, -⟩ := hfound
    obtain ⟨hp, hpid⟩ := mem_of_foundAt hp
    rcases hmade.closing with e | ⟨l', hc, e⟩
    · rw [e] at hp
      cases hp
    · rw [e, h.scan_eq (.inr hc)] at hp
      obtain ⟨pid, s', hs', -, rfl⟩ := mem_groupOf.1 hp
      rw [Process.of_pid] at hpid
      subst hpid
      exact ⟨l', s', hc, hs'⟩

/-- **What the auditor passes of an honest observation.** -/
theorem Honest.audited (h : a.Honest owner seen) (hstay : a.LiveStay owner) :
    (findings owner a).Audited owner seen := by
  have hmade := made_findings owner a
  refine ⟨fun p hp => ?_, fun p hp => ?_, ⟨?_, fun p hp => ?_, h.nodup_opening⟩,
    ⟨?_, fun p hp => ?_, h.nodup_closing⟩, h.length_members, fun m hm => ?_, fun i m hi => h.admits hi, covered,
    fun n hn => ?_, hmade.reason⟩
  · have hs := hmade.anchorBefore p hp
    have hpid : p.key.pid = owner.pid := by
      cases hs
      rfl
    exact ⟨h.ownerKept 0 p hs hpid, h.wellFormed 0 p hs (.inl hpid)⟩
  · have hs := hmade.anchorAfter p hp
    have hpid : p.key.pid = owner.pid := by
      cases hs
      rfl
    exact ⟨h.ownerKept 4 p hs hpid, h.wellFormed 4 p hs (.inl hpid)⟩
  · refine h.length_le h.nodup_opening fun p hp => ?_
    exact ⟨1, p, (hmade.sighted_opening hp).1, (hmade.sighted_opening hp).2, rfl⟩
  · exact h.belongs (hmade.sighted_opening hp).1 (hmade.sighted_opening hp).2
  · refine h.length_le h.nodup_closing fun p hp => ?_
    exact ⟨3, p, (hmade.sighted_closing hp).1, (hmade.sighted_closing hp).2, rfl⟩
  · exact h.belongs (hmade.sighted_closing hp).1 (hmade.sighted_closing hp).2
  · rcases member_cases hm with ⟨i, item, hi, rfl⟩ | ⟨p, hp, hn, rfl⟩
    · exact h.audited_measured hi (h.liveStay_iff.1 hstay i item hi)
    · exact h.audited_missing hp hn
  · exact h.availableInRange n (hmade.available n hn)

end

end Answers

/-- The phase of a caller that supplies an event: its kind, its time and
the owner it is about. -/
def eventPhase (owner : Identity) (phase : Phase) (ns : ℤ) : Value F :=
  .record [("name", .str (text phase.name)),
    ("event", .record [("kind", .str (text phase.event)), ("monotonic_ns", .int ns), ("owner", owner.toJson)])]

/-- **The phases a caller may give**: none, or an event not later than the
observation. -/
def PhaseGiven (owner : Identity) (startNs : ℤ) (phase : Option (Value F)) : Prop :=
  phase = none ∨ ∃ p ns, p ≠ .unknown ∧ 0 ≤ ns ∧ ns ≤ startNs ∧ phase = some (eventPhase owner p ns)

/-- The auditor passes them. -/
theorem PhaseGiven.checked {owner : Identity} {startNs : ℤ} {phase : Option (Value F)}
    (h : PhaseGiven owner startNs phase) (hv : owner.Valid) {row : Value F}
    (hrow : row.get "phase" = phase.getD unknownPhase) : ∃ p, checkPhase owner row startNs = .ok p := by
  unfold checkPhase
  rw [hrow]
  rcases h with rfl | ⟨p, ns, hp, h0, h1, rfl⟩
  · refine ⟨(.unknown, none), ?_⟩
    simp [unknownPhase, Value.get, Phase.ofName, Option.getD, bind, Except.bind, require, pure, Except.pure]
  · have hid := identity_toJson (F := F) (i := owner) (k := owner) |>.2 ⟨rfl, hv⟩
    have hevent : checkEvent owner p ((eventPhase owner p ns : Value F).get "event") startNs = .ok ns := by
      have hget : (eventPhase owner p ns : Value F).get "event" = .record [("kind", .str (text p.event)),
          ("monotonic_ns", .int ns), ("owner", owner.toJson)] := by simp [eventPhase, Value.get]
      rw [hget, checkEvent]
      simp [Value.get, hid, h0, h1, bind, Except.bind, require, pure, Except.pure]
    refine ⟨(p, some ns), ?_⟩
    have hname : Phase.ofName ((eventPhase owner p ns : Value F).get "name") = some p := by
      cases p <;> simp [eventPhase, Value.get, Phase.ofName, Phase.name]
    rw [Option.getD_some, hname]
    cases p with
    | unknown => exact absurd rfl hp
    | readiness => simp only [hevent]; rfl
    | workload => simp only [hevent]; rfl
    | cleanup => simp only [hevent]; rfl

/-- **When an honest observation is auditable.** The row is not invalid and
passes, with the status and the total it has, exactly where every member
measured alive is in the closing scan. -/
theorem observe_auditable_iff (owner : Identity) (runId : Text) (sequence lastEnd : ℤ)
    (phase : Option (Value F)) (site : Text) (seen : Table ℤ ℤ) (a : Answers) (hvalid : owner.Valid)
    (hanchor : owner.pid = owner.pgid ∧ owner.pgid = owner.sid) (hhonest : a.Honest owner seen)
    (htime : 0 ≤ a.startNs ∧ a.startNs ≤ a.endNs ∧ lastEnd ≤ a.startNs)
    (hphase : PhaseGiven owner a.startNs phase)
    (hsite : site = text "runner_monitor" ∨ site = text "cleanup_check") :
    let r : Row F := observe owner runId sequence phase site a
    (r.sampleStatus ≠ .invalid ∧
        ∃ v, sample r.toJson owner.toJson sequence lastEnd runId seen = .ok v ∧ v.status = r.sampleStatus ∧
          v.total = r.groupRssBytes) ↔
      a.LiveStay owner := by
  intro r
  have hreads := r.readsAs_toJson
  constructor
  · rintro ⟨-, v, hv, -⟩
    obtain ⟨-, haud, -⟩ := (sample_eq_ok hreads).1 hv
    rw [hhonest.liveStay_iff]
    intro i item hi hl
    have hmem : measure item (a.rss i) (a.after i) ∈ r.findings.members := by
      show _ ∈ (findings owner a).members
      rw [(made_findings owner a).members]
      refine List.mem_append_left _ (List.mem_iff_getElem?.2 ⟨i, ?_⟩)
      rw [getElem?_measureAll, hi, Nat.zero_add]
      rfl
    have hlab := (haud.members _ hmem).labelled
    rw [Member.Labelled, hl, measure_before] at hlab
    obtain ⟨n, q, -, -, -, -, hfound⟩ := hlab
    exact hfound
  · intro hstay
    have haud : r.findings.Audited owner seen := hhonest.audited hstay
    have hs : r.sampleStatus = r.findings.derived owner := status_eq_derived hhonest.notReused haud
    have ht : r.groupRssBytes = r.findings.derivedTotal owner := by
      show Findings.total owner r.findings = _
      rw [Findings.total, Findings.derivedTotal, ← hs]
      rfl
    refine ⟨fun hinv => Findings.derived_ne_invalid r.findings (hs.symm.trans hinv), ?_⟩
    obtain ⟨p, hp⟩ := hphase.checked hvalid hreads.phase
    refine ⟨_, (sample_eq_ok hreads).2 ⟨⟨rfl, rfl, htime, identity_toJson.2 ⟨rfl, hvalid⟩, hanchor, hvalid⟩,
      haud, ?_, ?_, p, hp, hsite, rfl⟩, hs.symm, ht.symm⟩
    · rw [hs]
      rfl
    · rw [ht]
      rfl

/-! ### A table -/

/-- A thread of the kernel, which is in no group. -/
def kthread : Stat := ⟨text "S", 0, 0, 0⟩

/-- A process of the session that has a group of its own. -/
def outsider : Stat := ⟨text "S", 102, 100, 9⟩

/-- And joins the leader's. -/
def joined : Stat := ⟨text "S", 100, 100, 9⟩

/-- A table of the leader and its child, which are measured alive, a thread
of the kernel and another process: the child may exit before the closing
listing, and the other join the group. -/
def busyAnswers (stays joins : Bool) : Answers :=
  { pairAnswers ([(2, .ok (some kthread)), (100, .ok (some sleeping))] ++
        (if stays then [(101, .ok (some sleeping))] else []) ++
        [(102, .ok (some (if joins then joined else outsider)))]) with
    opening := .ok [(2, .ok (some kthread)), (100, .ok (some sleeping)), (101, .ok (some sleeping)),
      (102, .ok (some outsider))] }

theorem groupOf_busyAnswers : groupOf leader [(2, .ok (some kthread)), (100, .ok (some sleeping)),
    (101, .ok (some sleeping)), (102, .ok (some outsider))] = [.of 100 sleeping, .of 101 sleeping] := by decide

theorem sighting_busyAnswers {stays joins : Bool} {i : ℕ} {p : Process}
    (h : Sighting leader (busyAnswers stays joins) i p) :
    p = .of 2 kthread ∨ p = .of 100 sleeping ∨ p = .of 101 sleeping ∨ (i = 1 ∧ p = .of 102 outsider) ∨
      (i = 3 ∧ p = .of 102 (if joins then joined else outsider)) := by
  cases h with
  | anchorBefore h =>
    obtain rfl := Option.some.inj (Except.ok.inj h)
    exact .inr (.inl rfl)
  | opening h hs =>
    obtain rfl := Except.ok.inj h
    simp only [List.mem_cons, Prod.mk.injEq, Except.ok.injEq, Option.some.injEq, List.not_mem_nil,
      or_false] at hs
    rcases hs with ⟨rfl, rfl⟩ | ⟨rfl, rfl⟩ | ⟨rfl, rfl⟩ | ⟨rfl, rfl⟩
    · exact .inl rfl
    · exact .inr (.inl rfl)
    · exact .inr (.inr (.inl rfl))
    · exact .inr (.inr (.inr (.inl ⟨rfl, rfl⟩)))
  | after h hi hs =>
    obtain rfl := Except.ok.inj h
    obtain rfl := Option.some.inj (Except.ok.inj hs)
    have hmem := List.mem_of_getElem? hi
    rw [groupOf_busyAnswers, List.mem_cons, List.mem_singleton] at hmem
    rcases hmem with rfl | rfl
    · exact .inr (.inl rfl)
    · exact .inr (.inr (.inl rfl))
  | closing h hs =>
    obtain rfl := Except.ok.inj h
    rw [List.mem_append, List.mem_append, List.mem_singleton] at hs
    rcases hs with (hs | hs) | hs
    · simp only [List.mem_cons, Prod.mk.injEq, Except.ok.injEq, Option.some.injEq, List.not_mem_nil,
        or_false] at hs
      rcases hs with ⟨rfl, rfl⟩ | ⟨rfl, rfl⟩
      · exact .inl rfl
      · exact .inr (.inl rfl)
    · split at hs
      · simp only [List.mem_singleton, Prod.mk.injEq, Except.ok.injEq, Option.some.injEq] at hs
        obtain ⟨rfl, rfl⟩ := hs
        exact .inr (.inr (.inl rfl))
      · cases hs
    · simp only [Prod.mk.injEq, Except.ok.injEq, Option.some.injEq] at hs
      obtain ⟨rfl, rfl⟩ := hs
      exact .inr (.inr (.inr (.inr ⟨rfl, rfl⟩)))
  | anchorAfter h =>
    obtain rfl := Option.some.inj (Except.ok.inj h)
    exact .inr (.inl rfl)

/-- What it shows in the group. -/
theorem grouped_busyAnswers {stays joins : Bool} {i : ℕ} {p : Process}
    (h : Sighting leader (busyAnswers stays joins) i p) (hg : p.key.pgid = leader.pgid) :
    p = .of 100 sleeping ∨ p = .of 101 sleeping ∨ (i = 3 ∧ joins = true ∧ p = .of 102 joined) := by
  rcases sighting_busyAnswers h with rfl | rfl | rfl | ⟨-, rfl⟩ | ⟨rfl, rfl⟩
  · exact absurd hg (by decide)
  · exact .inl rfl
  · exact .inr (.inl rfl)
  · exact absurd hg (by decide)
  · cases joins with
    | false => exact absurd hg (by decide)
    | true => exact .inr (.inr ⟨rfl, rfl, rfl⟩)

/-- A PID it shows has one start time. -/
theorem startTicks_busyAnswers {stays joins : Bool} {i : ℕ} {p : Process}
    (h : Sighting leader (busyAnswers stays joins) i p) :
    p.key.startTicks = if p.key.pid = 2 then 0 else if p.key.pid = 102 then 9 else 7 := by
  rcases sighting_busyAnswers h with rfl | rfl | rfl | ⟨-, rfl⟩ | ⟨-, rfl⟩
  · rfl
  · rfl
  · rfl
  · rfl
  · cases joins <;> rfl

/-- Such a table is honest, whatever the two do. -/
theorem honest_busyAnswers (stays joins : Bool) : (busyAnswers stays joins).Honest leader ∅ := by
  have halive : ∀ i p, Sighting leader (busyAnswers stays joins) i p → isDead p.state = false := by
    intro i p hp
    rcases sighting_busyAnswers hp with rfl | rfl | rfl | ⟨-, rfl⟩ | ⟨-, rfl⟩
    · rfl
    · rfl
    · rfl
    · rfl
    · cases joins <;> rfl
  have howner : ∀ i p, Sighting leader (busyAnswers stays joins) i p → p.key.pid = leader.pid →
      p = .of 100 sleeping := by
    intro i p hp hpid
    rcases sighting_busyAnswers hp with rfl | rfl | rfl | ⟨-, rfl⟩ | ⟨-, rfl⟩
    · exact absurd hpid (by decide)
    · rfl
    all_goals simp [leader] at hpid
  have hvalid : ∀ s ∈ [sleeping, joined], ∀ pid ∈ [(100 : ℤ), 101, 102], (Process.of pid s).Valid := by
    unfold Process.Valid Identity.Valid
    decide
  refine ⟨fun i p hp hours => ?_, fun l hl => ?_, fun i j p q hp _ _ _ hd => ?_, fun i j p q hp hq hpid => ?_,
    fun i p hp hpid => ?_, fun i p _ _ ticks ht => ?_, fun i j p q hp hq hij hpid hg => ?_,
    ⟨{100, 101, 102}, by decide, ?_, ?_⟩, ?_, ?_⟩
  · rcases hours with hpid | hg
    · rw [howner i p hp hpid]
      exact hvalid sleeping (by simp) 100 (by simp)
    · rcases grouped_busyAnswers hp hg with rfl | rfl | ⟨-, -, rfl⟩
      · exact hvalid sleeping (by simp) 100 (by simp)
      · exact hvalid sleeping (by simp) 101 (by simp)
      · exact hvalid joined (by simp) 102 (by simp)
  · rcases hl with hl | hl
    · obtain rfl := Except.ok.inj hl
      decide
    · obtain rfl := Except.ok.inj hl
      cases stays <;> cases joins <;> decide
  · rw [halive i p hp] at hd
    cases hd
  · rw [startTicks_busyAnswers hp, startTicks_busyAnswers hq, hpid]
  · rw [howner i p hp hpid]
    rfl
  · rw [AList.lookup_empty] at ht
    cases ht
  · rcases grouped_busyAnswers hp hg with rfl | rfl | ⟨rfl, rfl, rfl⟩
    · rw [howner j q hq hpid.symm]
      exact ⟨rfl, rfl⟩
    · rcases sighting_busyAnswers hq with rfl | rfl | rfl | ⟨-, rfl⟩ | ⟨-, rfl⟩
      · exact absurd hpid (by decide)
      · exact ⟨rfl, rfl⟩
      · exact ⟨rfl, rfl⟩
      all_goals simp at hpid
    · -- it is seen outside the group before it joins, and not after
      rcases sighting_busyAnswers hq with rfl | rfl | rfl | ⟨rfl, -⟩ | ⟨-, rfl⟩
      · exact absurd hpid (by decide)
      · exact ⟨rfl, rfl⟩
      · exact ⟨rfl, rfl⟩
      · omega
      · exact ⟨rfl, rfl⟩
  · intro pid hpid
    simp at hpid
  · intro i p hp hg
    rcases grouped_busyAnswers hp hg with rfl | rfl | ⟨-, -, rfl⟩ <;> decide
  · intro i n h
    obtain rfl := Except.ok.inj h
    decide
  · intro n h
    obtain rfl := Except.ok.inj h
    decide

/-- The reason of a refusal. -/
def refusal : Except String α → Option String
  | .ok _ => none
  | .error reason => some reason

/-- **A child that exits after its measurement.** The table is honest, the
observation is partial, and the auditor refuses it. -/
theorem exit_after_measurement_refused :
    leader.Valid ∧ (leader.pid = leader.pgid ∧ leader.pgid = leader.sid) ∧
      (busyAnswers false false).Honest leader ∅ ∧
      (observe (F := Empty) leader (text "run") 0 none (text "runner_monitor")
        (busyAnswers false false)).sampleStatus = .partly ∧
      refusal (sample (observe (F := Empty) leader (text "run") 0 none (text "runner_monitor")
          (busyAnswers false false)).toJson leader.toJson 0 (-1) (text "run") ∅) =
        some "live member missing from closing scan" := by
  refine ⟨⟨by decide, by decide, by decide, by decide⟩, ⟨rfl, rfl⟩, honest_busyAnswers false false, ?_, ?_⟩
  · decide +kernel
  · decide +kernel

/-- The child stays, whether the other joins or not. -/
theorem liveStay_busyAnswers (joins : Bool) : (busyAnswers true joins).LiveStay leader := by
  rintro anchor l i item n s - ho hi - - - -
  obtain rfl := Except.ok.inj ho
  have hmem := List.mem_of_getElem? hi
  rw [groupOf_busyAnswers, List.mem_cons, List.mem_singleton] at hmem
  rcases hmem with rfl | rfl
  · exact ⟨_, sleeping, rfl, by simp⟩
  · exact ⟨_, sleeping, rfl, by simp⟩

/-- With the child listed again the row passes: complete, and as a partial one
where another process joined the group. -/
theorem observe_auditable_busy :
    ((observe (F := Empty) leader (text "run") 0 none (text "runner_monitor")
        (busyAnswers true false)).sampleStatus ≠ .invalid ∧
      ∃ v, sample (observe (F := Empty) leader (text "run") 0 none (text "runner_monitor")
          (busyAnswers true false)).toJson leader.toJson 0 (-1) (text "run") ∅ = .ok v ∧
        v.status = .complete ∧ v.total = some 8192) ∧
    (observe (F := Empty) leader (text "run") 0 none (text "runner_monitor")
        (busyAnswers true true)).sampleStatus ≠ .invalid ∧
      ∃ v, sample (observe (F := Empty) leader (text "run") 0 none (text "runner_monitor")
          (busyAnswers true true)).toJson leader.toJson 0 (-1) (text "run") ∅ = .ok v ∧
        v.status = .partly ∧ v.total = none := by
  have hpasses := fun joins => (observe_auditable_iff (F := Empty) leader (text "run") 0 (-1) none
    (text "runner_monitor") ∅ (busyAnswers true joins) ⟨by decide, by decide, by decide, by decide⟩ ⟨rfl, rfl⟩
    (honest_busyAnswers true joins) (show (0 : ℤ) ≤ 10 ∧ (10 : ℤ) ≤ 20 ∧ (-1 : ℤ) ≤ 10 by decide) (.inl rfl) (.inl rfl)).2
    (liveStay_busyAnswers joins)
  obtain ⟨h1, v, hv, h2, h3⟩ := hpasses false
  obtain ⟨h1', v', hv', h2', h3'⟩ := hpasses true
  refine ⟨⟨h1, v, hv, h2.trans ?_, h3.trans ?_⟩, h1', v', hv', h2'.trans ?_, h3'.trans ?_⟩
  · decide +kernel
  · decide +kernel
  · decide +kernel
  · decide +kernel

end Bench

end ZkRuntime
