import ZkRuntime.Bench.Helpers.Rows
/-!
# What an observation finds

The members of the group in a listing are `groupOf`; a scan that stays
under the bound finds exactly them. An observation may stop at any read,
but whatever it has then fits together: its members are those of its
opening scan, measured, and those only its closing scan found
(`members_findings`), and its scans and anchors are answers of the table
(`Sighting`).
-/

namespace ZkRuntime

namespace Bench

open PyJson

/-- The process an entry of a listing is, if it is of the owner's group. -/
def memberOf (owner : Identity) (e : ℤ × Answer (Option Stat)) : Option Process :=
  match e.2 with
  | .ok (some s) => if s.pgid = owner.pgid then some (Process.of e.1 s) else none
  | _ => none

/-- **The members of the owner's group in a listing.** -/
def groupOf (owner : Identity) (l : Listing) : List Process := l.filterMap (memberOf owner)

theorem mem_groupOf {owner : Identity} {l : Listing} {p : Process} : p ∈ groupOf owner l ↔
    ∃ pid s, (pid, .ok (some s)) ∈ l ∧ s.pgid = owner.pgid ∧ p = Process.of pid s := by
  rw [groupOf, List.mem_filterMap]
  constructor
  · rintro ⟨⟨pid, answer⟩, he, hp⟩
    rw [memberOf] at hp
    split at hp
    · rename_i s hs
      dsimp only at hs
      subst hs
      split_ifs at hp with hg
      exact ⟨pid, s, he, hg, (Option.some.inj hp).symm⟩
    · cases hp
  · rintro ⟨pid, s, he, hg, rfl⟩
    refine ⟨(pid, .ok (some s)), he, ?_⟩
    rw [memberOf]
    dsimp only
    rw [if_pos hg]

/-- A listing that names no PID twice has no PID twice in the group. -/
theorem nodup_groupOf {owner : Identity} : ∀ {l : Listing}, (l.map (·.1)).Nodup →
    ((groupOf owner l).map (·.key.pid)).Nodup
  | [], _ => List.nodup_nil
  | e :: l, h => by
    rw [List.map_cons, List.nodup_cons] at h
    have ih : ((groupOf owner l).map (·.key.pid)).Nodup := nodup_groupOf h.2
    rw [groupOf, List.filterMap_cons]
    cases hm : memberOf owner e with
    | none => exact ih
    | some p =>
      rw [List.map_cons, List.nodup_cons]
      refine ⟨fun hmem => h.1 ?_, ih⟩
      obtain ⟨q, hq, e'⟩ := List.mem_map.1 hmem
      obtain ⟨pid, s, hs, -, rfl⟩ := mem_groupOf.1 hq
      obtain ⟨pid', s', hs', -, rfl⟩ := mem_groupOf.1 (List.mem_filterMap.2 ⟨e, List.mem_singleton_self e, hm⟩)
      obtain rfl := List.mem_singleton.1 hs'
      obtain rfl : pid = pid' := e'
      exact List.mem_map.2 ⟨_, hs, rfl⟩

/-- **A scan under the bound finds the group.** -/
theorem scanLoop_fst {owner : Identity} : ∀ {l : Listing} {found : List Process} {errors : List ScanError},
    (found ++ groupOf owner l).length ≤ maxMembers →
      (scanLoop owner l found errors).1 = found ++ groupOf owner l
  | [], found, errors, _ => by simp [scanLoop, groupOf]
  | (pid, answer) :: l, found, errors, h => by
    have hskip : memberOf owner (pid, answer) = none →
        groupOf owner ((pid, answer) :: l) = groupOf owner l := by
      intro hm
      rw [groupOf, List.filterMap_cons, hm]
      rfl
    rcases answer with fault | _ | s
    · rw [scanLoop]
      rw [hskip rfl] at h ⊢
      exact scanLoop_fst h
    · rw [scanLoop]
      rw [hskip rfl] at h ⊢
      exact scanLoop_fst h
    · rw [scanLoop]
      by_cases hg : s.pgid = owner.pgid
      · have hcons : groupOf owner ((pid, .ok (some s)) :: l) = Process.of pid s :: groupOf owner l := by
          rw [groupOf, List.filterMap_cons, memberOf]
          dsimp only
          rw [if_pos hg]
          rfl
        rw [hcons] at h ⊢
        have hlen : (found ++ [Process.of pid s]).length ≤ maxMembers := by
          simp only [List.length_append, List.length_cons, List.length_nil] at h ⊢
          omega
        rw [if_pos hg, if_neg (not_lt.2 hlen), scanLoop_fst]
        · simp
        · simpa using h
      · have hm : memberOf owner (pid, .ok (some s)) = none := by
          rw [memberOf]
          dsimp only
          rw [if_neg hg]
        rw [hskip hm] at h ⊢
        rw [if_neg hg]
        exact scanLoop_fst h

/-! ### Members -/

theorem getElem?_measureAll {a : Answers} : ∀ {items : List Process} {i j : ℕ},
    (measureAll a i items)[j]? = items[j]?.map fun item => measure item (a.rss (i + j)) (a.after (i + j))
  | [], i, j => by simp [measureAll]
  | item :: items, i, 0 => by simp [measureAll]
  | item :: items, i, j + 1 => by
    rw [measureAll, List.getElem?_cons_succ, getElem?_measureAll, List.getElem?_cons_succ]
    congr 1
    funext x
    rw [Nat.add_right_comm, Nat.add_assoc]

theorem confirm_before (item : Process) (rss : Option ℤ) (label : Label) (x : Answer (Option Stat)) :
    (confirm item rss label x).before = item := by
  unfold confirm
  split <;> rfl

theorem measure_before (item : Process) (rss : Answer ℤ) (after : Answer (Option Stat)) :
    (measure item rss after).before = item := by
  unfold measure
  split_ifs
  · exact confirm_before ..
  · split
    · rfl
    · exact confirm_before ..

theorem map_before_measureAll (a : Answers) : ∀ (items : List Process) (i : ℕ),
    (measureAll a i items).map (·.before) = items
  | [], i => rfl
  | item :: items, i => by
    rw [measureAll, List.map_cons, measure_before, map_before_measureAll]

/-- A member of the opening scan was measured; any other was missing from
it. -/
theorem mem_measured {a : Answers} {items : List Process} {m : Member} (h : m ∈ measureAll a 0 items) :
    ∃ i item, items[i]? = some item ∧ m = measure item (a.rss i) (a.after i) := by
  obtain ⟨i, hi⟩ := List.mem_iff_getElem?.1 h
  rw [getElem?_measureAll, Option.map_eq_some_iff] at hi
  obtain ⟨item, hitem, rfl⟩ := hi
  exact ⟨i, item, hitem, by rw [Nat.zero_add]⟩

theorem mem_missing {before after : List Process} {m : Member} : m ∈ missing before after ↔
    ∃ p ∈ after, p.key.pid ∉ before.map (·.key.pid) ∧ m = ⟨p, none, none, .missing⟩ := by
  rw [missing, List.mem_map]
  constructor
  · rintro ⟨p, hp, rfl⟩
    rw [List.mem_filter, decide_eq_true_eq] at hp
    exact ⟨p, hp.1, hp.2, rfl⟩
  · rintro ⟨p, hp, hn, rfl⟩
    exact ⟨p, List.mem_filter.2 ⟨hp, by simpa using hn⟩, rfl⟩

/-- What a member has of its second identity read. -/
theorem confirm_after {item p : Process} {rss : Option ℤ} {label : Label} {x : Answer (Option Stat)}
    (h : (confirm item rss label x).after = some p) : ∃ s, x = .ok (some s) ∧ p = Process.of item.key.pid s := by
  rcases x with fault | _ | s
  · cases h
  · cases h
  · exact ⟨s, rfl, (Option.some.inj h).symm⟩

theorem confirm_rss (item : Process) (rss : Option ℤ) (label : Label) (x : Answer (Option Stat)) :
    (confirm item rss label x).rssBytes = rss := by
  rcases x with fault | _ | s <;> rfl

theorem measure_after {item p : Process} {rss : Answer ℤ} {x : Answer (Option Stat)}
    (h : (measure item rss x).after = some p) : ∃ s, x = .ok (some s) ∧ p = Process.of item.key.pid s := by
  unfold measure at h
  split_ifs at h
  · exact confirm_after h
  · rcases rss with fault | n
    · cases h
    · exact confirm_after h

theorem measure_rss {item : Process} {rss : Answer ℤ} {x : Answer (Option Stat)} {n : ℤ}
    (h : (measure item rss x).rssBytes = some n) : rss = .ok n := by
  unfold measure at h
  split_ifs at h
  · rw [confirm_rss] at h
    cases h
  · rcases rss with fault | k
    · cases h
    · rw [confirm_rss] at h
      rw [Option.some.inj h]

/-- What a label other than a failure's takes. -/
theorem confirm_label {item : Process} {rss : Option ℤ} {label : Label} {x : Answer (Option Stat)}
    (h : (confirm item rss label x).label ≠ .vanished) (hu : (confirm item rss label x).label ≠ .unreadable) :
    ∃ s, x = .ok (some s) ∧ (confirm item rss label x).after = some (Process.of item.key.pid s) ∧
      ((Process.of item.key.pid s).key = item.key →
        (confirm item rss label x).label = label ∧ (s.state ≠ item.state → isDead s.state = false)) := by
  rcases x with fault | _ | s
  · cases fault
    · exact absurd rfl h
    · exact absurd rfl hu
    · exact absurd rfl hu
    · exact absurd rfl hu
  · exact absurd rfl h
  · refine ⟨s, rfl, rfl, fun hkey => ?_⟩
    have hne : ¬ ((Process.of item.key.pid s).state ≠ item.state ∧
        isDead (Process.of item.key.pid s).state = true) := by
      intro hd
      refine h ?_
      simp only [confirm, hkey, ne_eq, not_true_eq_false, if_false]
      rw [if_pos hd]
    refine ⟨?_, fun hs => ?_⟩
    · simp only [confirm, hkey, ne_eq, not_true_eq_false, if_false]
      rw [if_neg hne]
    · exact Bool.eq_false_iff.2 fun hd => hne ⟨hs, hd⟩

/-- **A member measured alive** was alive before and after. -/
theorem measure_live {item : Process} {rss : Answer ℤ} {x : Answer (Option Stat)}
    (hkey : ∀ s, x = .ok (some s) → (Process.of item.key.pid s).key = item.key) :
    (measure item rss x).label = .live ↔ ∃ n s, rss = .ok n ∧ x = .ok (some s) ∧ isDead item.state = false ∧
      isDead s.state = false := by
  constructor
  · intro h
    unfold measure at h
    split_ifs at h with hd
    · -- A process that had ended is not measured.
      obtain ⟨s, hx, -, hl⟩ := confirm_label (by rw [h]; decide) (by rw [h]; decide)
      rw [(hl (hkey s hx)).1] at h
      cases h
    · rcases rss with fault | n
      · cases fault <;> cases h
      · obtain ⟨s, hx, -, hl⟩ := confirm_label (by rw [h]; decide) (by rw [h]; decide)
        refine ⟨n, s, rfl, hx, by simpa using hd, ?_⟩
        by_cases hs : s.state = item.state
        · rw [hs]
          simpa using hd
        · exact (hl (hkey s hx)).2 hs
  · rintro ⟨n, s, rfl, rfl, hd, hs⟩
    have hk := hkey s rfl
    unfold measure
    rw [if_neg (by simp [hd])]
    simp only [confirm, hk, ne_eq, not_true_eq_false, if_false]
    rw [if_neg]
    rintro ⟨-, hdead⟩
    exact absurd (hs.symm.trans hdead) (by decide)

/-- A member measured as a zombie had ended before. -/
theorem measure_zombie {item : Process} {rss : Answer ℤ} {x : Answer (Option Stat)}
    (hkey : ∀ s, x = .ok (some s) → (Process.of item.key.pid s).key = item.key)
    (h : (measure item rss x).label = .zombie) :
    isDead item.state = true ∧ (measure item rss x).rssBytes = none ∧
      ∃ s, x = .ok (some s) ∧ (measure item rss x).after = some (Process.of item.key.pid s) := by
  unfold measure at h ⊢
  split_ifs at h ⊢ with hd
  · obtain ⟨s, hx, ha, -⟩ := confirm_label (by rw [h]; decide) (by rw [h]; decide)
    exact ⟨hd, confirm_rss .., s, hx, ha⟩
  · exfalso
    rcases rss with fault | n
    · cases fault <;> cases h
    · obtain ⟨s, hx, -, hl⟩ := confirm_label (by rw [h]; decide) (by rw [h]; decide)
      rw [(hl (hkey s hx)).1] at h
      cases h

/-- No member read again under its own identity is labelled changed. -/
theorem measure_ne_identityChanged {item : Process} {rss : Answer ℤ} {x : Answer (Option Stat)}
    (hkey : ∀ s, x = .ok (some s) → (Process.of item.key.pid s).key = item.key) :
    (measure item rss x).label ≠ .identityChanged := by
  intro h
  unfold measure at h
  split_ifs at h
  · obtain ⟨s, hx, -, hl⟩ := confirm_label (by rw [h]; decide) (by rw [h]; decide)
    rw [(hl (hkey s hx)).1] at h
    cases h
  · rcases rss with fault | n
    · cases fault <;> cases h
    · obtain ⟨s, hx, -, hl⟩ := confirm_label (by rw [h]; decide) (by rw [h]; decide)
      rw [(hl (hkey s hx)).1] at h
      cases h

/-! ### The reads that were made -/

/-- **What the table has shown**, by the moment: the owner before, an entry
of the opening listing, a member read again, an entry of the closing
listing, the owner after. -/
inductive Sighting (owner : Identity) (a : Answers) : ℕ → Process → Prop where
  | anchorBefore {s : Stat} (h : a.anchorBefore = .ok (some s)) : Sighting owner a 0 (.of owner.pid s)
  | opening {l : Listing} {pid : ℤ} {s : Stat} (h : a.opening = .ok l) (hs : (pid, .ok (some s)) ∈ l) :
      Sighting owner a 1 (.of pid s)
  | after {l : Listing} {i : ℕ} {item : Process} {s : Stat} (h : a.opening = .ok l)
      (hi : (groupOf owner l)[i]? = some item) (hs : a.after i = .ok (some s)) :
      Sighting owner a 2 (.of item.key.pid s)
  | closing {l : Listing} {pid : ℤ} {s : Stat} (h : a.closing = .ok l) (hs : (pid, .ok (some s)) ∈ l) :
      Sighting owner a 3 (.of pid s)
  | anchorAfter {s : Stat} (h : a.anchorAfter = .ok (some s)) : Sighting owner a 4 (.of owner.pid s)

/-- Where the scan of a listing comes from. -/
theorem scan_eq_ok {owner : Identity} {x : Answer Listing} {found : List Process} {errors : List ScanError}
    (h : scan owner x = .ok (found, errors)) :
    (∃ l, x = .ok l ∧ (scanLoop owner l [] []).1 = found) ∨ found = [] ∧ errors ≠ [] := by
  unfold scan at h
  split at h
  · rename_i l
    have := Except.ok.inj h
    exact .inl ⟨l, rfl, by rw [this]⟩
  · cases h
  · obtain ⟨rfl, rfl⟩ := Prod.mk.inj (Except.ok.inj h)
    exact .inr ⟨rfl, by simp⟩

/-- **What an observation has, wherever it stopped.** -/
structure Findings.Made (owner : Identity) (a : Answers) (f : Findings) : Prop where
  /-- Its members are those of its opening scan, measured, and those only
  its closing scan found. -/
  members : f.members = measureAll a 0 f.scanBefore ++ missing f.scanBefore f.scanAfter
  anchorBefore : ∀ p, f.anchorBefore = some p → Sighting owner a 0 p
  anchorAfter : ∀ p, f.anchorAfter = some p → Sighting owner a 4 p
  opening : f.scanBefore = [] ∨ ∃ anchor l, a.anchorBefore = .ok anchor ∧ a.opening = .ok l ∧
    f.scanBefore = (scanLoop owner l [] []).1
  closing : f.scanAfter = [] ∨ ∃ l, a.closing = .ok l ∧ f.scanAfter = (scanLoop owner l [] []).1
  /-- The scans are made once what stands before them was read. -/
  opened : ∀ anchor l, a.anchorBefore = .ok anchor → a.opening = .ok l →
    f.scanBefore = (scanLoop owner l [] []).1
  closed : ∀ anchor l l', a.anchorBefore = .ok anchor → a.opening = .ok l → a.closing = .ok l' →
    f.scanAfter = (scanLoop owner l' [] []).1
  available : ∀ n, f.memAvailableBytes = some n → a.available = .ok n
  reason : f.memAvailableBytes = none → f.samplingErrors ≠ []

/-- Reading the available memory changes nothing else. -/
theorem readAvailable_frame (f : Findings) (x : Answer ℤ) :
    (readAvailable f x).members = f.members ∧ (readAvailable f x).anchorBefore = f.anchorBefore ∧
      (readAvailable f x).anchorAfter = f.anchorAfter ∧ (readAvailable f x).scanBefore = f.scanBefore ∧
      (readAvailable f x).scanAfter = f.scanAfter := by
  unfold readAvailable
  split <;> exact ⟨rfl, rfl, rfl, rfl, rfl⟩

theorem readAvailable_available {f : Findings} {x : Answer ℤ} (h : f.memAvailableBytes = none) :
    (∀ n, (readAvailable f x).memAvailableBytes = some n → x = .ok n) ∧
      ((readAvailable f x).memAvailableBytes = none → (readAvailable f x).samplingErrors ≠ []) := by
  unfold readAvailable
  split
  · refine ⟨fun n hn => ?_, fun hn => nomatch hn⟩
    rw [Option.some.inj hn]
  · refine ⟨fun n hn => ?_, fun _ => by simp [Findings.interrupted]⟩
    exact absurd (h.symm.trans hn) (by simp)
  · refine ⟨fun n hn => ?_, fun _ => by simp⟩
    exact absurd (h.symm.trans hn) (by simp)

/-- What stood before the closing scan. -/
structure Findings.Opened (owner : Identity) (a : Answers) (f : Findings) : Prop where
  members : f.members = measureAll a 0 f.scanBefore
  anchorBefore : ∀ p, f.anchorBefore = some p → Sighting owner a 0 p
  anchorAfter : f.anchorAfter = none
  opening : f.scanBefore = [] ∨ ∃ anchor l, a.anchorBefore = .ok anchor ∧ a.opening = .ok l ∧
    f.scanBefore = (scanLoop owner l [] []).1
  opened : ∀ anchor l, a.anchorBefore = .ok anchor → a.opening = .ok l →
    f.scanBefore = (scanLoop owner l [] []).1
  closing : f.scanAfter = []
  available : f.memAvailableBytes = none

/-- An observation that ends before its closing scan. -/
theorem Findings.Opened.interrupted {owner : Identity} {a : Answers} {f : Findings} (h : f.Opened owner a)
    (hc : ∀ anchor l l', a.anchorBefore = .ok anchor → a.opening = .ok l → a.closing = .ok l' → False) :
    f.interrupted.Made owner a where
  members := by
    show f.members = measureAll a 0 f.scanBefore ++ missing f.scanBefore f.scanAfter
    rw [h.members, h.closing]
    simp [missing]
  anchorBefore := h.anchorBefore
  anchorAfter p hp := absurd (h.anchorAfter.symm.trans hp) (by simp)
  opening := h.opening
  closing := .inl h.closing
  opened := h.opened
  closed anchor l l' h1 h2 h3 := (hc anchor l l' h1 h2 h3).elim
  available n hn := absurd (h.available.symm.trans hn) (by simp)
  reason _ := by simp [Findings.interrupted]

theorem made_readAnchorAfter {owner : Identity} {a : Answers} {f : Findings} (h : f.Opened owner a)
    {after : List Process} {errors : List ScanError} (hs : scan owner a.closing = .ok (after, errors)) :
    (readAnchorAfter owner a { f with
      scanAfter := after, scanErrors := f.scanErrors ++ errors,
      members := f.members ++ missing f.scanBefore after }).Made owner a := by
  have hmembers : f.members ++ missing f.scanBefore after =
      measureAll a 0 f.scanBefore ++ missing f.scanBefore after := by rw [h.members]
  have hclosing : after = [] ∨ ∃ l, a.closing = .ok l ∧ after = (scanLoop owner l [] []).1 := by
    rcases scan_eq_ok hs with ⟨l, hl, e⟩ | ⟨e, -⟩
    · exact .inr ⟨l, hl, e.symm⟩
    · exact .inl e
  have hclosed : ∀ l', a.closing = .ok l' → after = (scanLoop owner l' [] []).1 := by
    intro l' hl'
    rw [hl', scan] at hs
    exact (Prod.mk.inj (Except.ok.inj hs)).1.symm
  unfold readAnchorAfter
  split
  · refine ⟨hmembers, h.anchorBefore, fun p hp => ?_, h.opening, hclosing, h.opened,
      fun _ _ l' _ _ hl' => hclosed l' hl', fun n hn => ?_, fun _ => by simp [Findings.interrupted]⟩
    · exact absurd (h.anchorAfter.symm.trans hp) (by simp)
    · exact absurd (h.available.symm.trans hn) (by simp)
  · rename_i anchor hanchor
    generalize hg : ({ f with
      scanAfter := after, scanErrors := f.scanErrors ++ errors, members := f.members ++ missing f.scanBefore after,
      anchorAfter := anchor.map (Process.of owner.pid) } : Findings) = g
    obtain ⟨e1, e2, e3, e4, e5⟩ := readAvailable_frame g a.available
    have hav := readAvailable_available (f := g) (x := a.available) (by rw [← hg]; exact h.available)
    subst hg
    refine ⟨?_, ?_, ?_, ?_, ?_, ?_, ?_, hav.1, hav.2⟩
    · rw [e1, e4, e5]
      exact hmembers
    · rw [e2]
      exact h.anchorBefore
    · rw [e3]
      intro p hp
      obtain ⟨s, rfl, rfl⟩ := Option.map_eq_some_iff.1 hp
      exact .anchorAfter hanchor
    · rw [e4]
      exact h.opening
    · rw [e5]
      exact hclosing
    · rw [e4]
      exact h.opened
    · rw [e5]
      exact fun _ _ l' _ _ hl' => hclosed l' hl'

theorem made_findings (owner : Identity) (a : Answers) : (findings owner a).Made owner a := by
  unfold findings
  split
  · rename_i fault hb
    refine Findings.Opened.interrupted ⟨rfl, (fun p hp => nomatch hp), rfl, .inl rfl, ?_, rfl, rfl⟩ ?_
    · intro anchor l h
      rw [hb] at h
      cases h
    · intro anchor l l' h
      rw [hb] at h
      cases h
  · rename_i anchor hb
    have hanchor : ∀ p, anchor.map (Process.of owner.pid) = some p → Sighting owner a 0 p := by
      intro p hp
      obtain ⟨s, rfl, rfl⟩ := Option.map_eq_some_iff.1 hp
      exact .anchorBefore hb
    split
    · rename_i fault ho
      have hno : ∀ l, a.opening ≠ .ok l := by
        intro l hl
        rw [hl, scan] at ho
        cases ho
      refine Findings.Opened.interrupted ⟨rfl, hanchor, rfl, .inl rfl, ?_, rfl, rfl⟩ ?_
      · exact fun _ l _ hl => absurd hl (hno l)
      · exact fun _ l _ _ hl _ => hno l hl
    · rename_i before errors ho
      have hopened : Findings.Opened owner a {
          anchorBefore := anchor.map (Process.of owner.pid), scanBefore := before, scanErrors := errors,
          members := measureAll a 0 before } := by
        refine ⟨rfl, hanchor, rfl, ?_, ?_, rfl, rfl⟩
        · rcases scan_eq_ok ho with ⟨l, hl, e⟩ | ⟨e, -⟩
          · exact .inr ⟨anchor, l, hb, hl, e.symm⟩
          · exact .inl e
        · intro _ l _ hl
          rw [hl, scan] at ho
          exact (Prod.mk.inj (Except.ok.inj ho)).1.symm
      unfold readClosing
      split
      · rename_i fault hc
        refine hopened.interrupted fun _ _ l' _ _ hl' => ?_
        rw [hl', scan] at hc
        cases hc
      · rename_i after errors' hc
        exact made_readAnchorAfter hopened hc

end Bench

end ZkRuntime
