import ZkRuntime.Bench.Helpers.Summary
import ZkRuntime.Bench.FrameTransport
/-!
# The chronology of a stream

What the auditor's loop finds of the rows it accepts, taken together: their
intervals follow one another, the phases come in their order, and the
readiness rows end before the release is acknowledged. All rows are of one
owner, and their processes have one start time for a PID; that a process with
the owner's PID is the owner is not checked.
-/

namespace ZkRuntime

namespace Bench

namespace Chronology

open PyJson

variable {F : Type}

/-- **A verdict says what its row says.** -/
structure Says (runId : Text) (row : Value F) (v : Verdict) : Prop where
  runId : row.get "run_id" = .str runId
  startNs : row.get "start_ns" = .int v.startNs
  endNs : row.get "end_ns" = .int v.endNs
  owner : identity (row.get "owner") = .ok v.owner
  phase : (row.get "phase").get "name" = .str (text v.phase.name)
  event : ∀ ns, v.eventNs = some ns → ((row.get "phase").get "event").get "monotonic_ns" = .int ns
  total : row.get "group_rss_bytes" = orNull .int v.total
  names : ∀ i, Names row i → i ∈ v.members
  namesLast : row.get "sample_status" ≠ .str (text "PARTIAL") → ∀ i, NamesLast row i → i ∈ v.members
  owns : ∀ i, Owns row i → i = v.owner

/-- **The rows are in order.** -/
structure Chronological (vs : List Verdict) : Prop where
  intervals : ∀ v ∈ vs, v.startNs ≤ v.endNs
  ordered : vs.Pairwise fun v w => v.endNs ≤ w.startNs
  phases : vs.Pairwise fun v w => v.phase ≠ .unknown → w.phase ≠ .unknown → v.phase.rank ≤ w.phase.rank
  before : ∀ v ∈ vs, v.phase ≠ .unknown → ∃ ns, v.eventNs = some ns ∧ ns ≤ v.startNs
  acknowledged : ∀ v ∈ vs, ∀ w ∈ vs, v.phase = .readiness → w.phase = .workload →
    ∀ ns, w.eventNs = some ns → v.endNs ≤ ns
  ready : ∀ earlier w later, vs = earlier ++ w :: later → w.phase = .workload → ∃ v ∈ earlier, v.phase = .readiness
  cleaned : ∀ v ∈ vs.takeWhile (·.phase ≠ .cleanup), ∀ w ∈ vs, w.phase = .cleanup →
    ∀ ns, w.eventNs = some ns → v.endNs ≤ ns
  oneOwner : ∀ v ∈ vs, ∀ w ∈ vs, v.owner = w.owner
  oneStart : ∀ v ∈ vs, ∀ w ∈ vs, ∀ k ∈ v.members, ∀ k' ∈ w.members, k.pid = k'.pid → k.startTicks = k'.startTicks

/-- **What the ledger remembers** of the rows behind it. -/
structure Chronicle (l : Ledger F) (vs : List Verdict) : Prop where
  chronological : Chronological vs
  last : ∀ v ∈ vs, v.endNs ≤ l.last
  rank : ∀ v ∈ vs, v.phase ≠ .unknown → v.phase.rank ≤ l.lastRank
  readinessEnd : ∀ v ∈ vs, v.phase = .readiness → ∃ e, l.readinessEnd = some e ∧ v.endNs ≤ e
  counted : 0 < (l.folds.phases .readiness).samples → ∃ v ∈ vs, v.phase = .readiness
  uncleaned : l.cleanupBoundary = none → ∀ v ∈ vs, v.phase ≠ .cleanup
  boundary : ∀ b, l.cleanupBoundary = some b → (∃ w ∈ vs, w.phase = .cleanup) ∧
    ∀ v ∈ vs.takeWhile (·.phase ≠ .cleanup), v.endNs ≤ b
  peaks : ∀ p b, (l.folds.phases p).peakBytes = some b → ∃ v ∈ vs, v.phase = p ∧ v.total = some b
  owner : (vs = [] ∧ l.owner = .null) ∨ ∃ o, identity l.owner = .ok o ∧ ∀ v ∈ vs, v.owner = o
  seen : ∀ v ∈ vs, ∀ k ∈ v.members, l.seen.lookup k.pid = some k.startTicks

theorem chronicle_nil : Chronicle ({} : Ledger F) [] where
  chronological := by constructor <;> simp
  last := by simp
  rank := by simp
  readinessEnd := by simp
  counted h := absurd h (Nat.lt_irrefl 0)
  uncleaned := by simp
  boundary b h := by cases h
  peaks p b h := by cases h
  owner := .inl ⟨rfl, rfl⟩
  seen := by simp

/-- **What a row that passes finds.** -/
structure Follows (l l' : Ledger F) (v : Verdict) : Prop where
  rank : v.phase ≠ .unknown → l.lastRank ≤ v.phase.rank
  lastRank : l'.lastRank = if v.phase = .unknown then l.lastRank else v.phase.rank
  workload : v.phase = .workload → 0 < (l.folds.phases .readiness).samples ∧
    ∀ ns, v.eventNs = some ns → ∀ e, l.readinessEnd = some e → e ≤ ns
  readinessEnd : l'.readinessEnd = if v.phase = .readiness then some v.endNs else l.readinessEnd
  cleanup : v.phase = .cleanup → ∀ ns, v.eventNs = some ns → l.cleanupBoundary.getD l.last ≤ ns
  boundary : l'.cleanupBoundary =
    if v.phase = .cleanup then some (l.cleanupBoundary.getD l.last) else l.cleanupBoundary

theorem follows_of_checkOrder {l l' : Ledger F} {v : Verdict} (h : checkOrder l v = .ok l')
    (hnone : v.phase = .unknown → v.eventNs = none) (hsome : v.phase ≠ .unknown → ∃ ns, v.eventNs = some ns) :
    Follows l l' v := by
  cases hp : v.phase with
  | unknown =>
    rw [checkOrder, hnone hp] at h
    rw [return_eq_ok] at h
    subst h
    constructor <;> simp [hp]
  | readiness =>
    obtain ⟨ns, hns⟩ := hsome (by rw [hp]; simp)
    obtain ⟨hrank, -, l₁, h1, rfl⟩ := (checkOrder_some hns).1 h
    rw [checkBoundary, hp] at h1
    rw [return_eq_ok] at h1
    subst h1
    rw [hp] at hrank
    constructor <;> simp [hp, hrank]
  | workload =>
    obtain ⟨ns, hns⟩ := hsome (by rw [hp]; simp)
    obtain ⟨hrank, -, l₁, h1, rfl⟩ := (checkOrder_some hns).1 h
    rw [checkBoundary, hp] at h1
    rw [require_bind_eq_ok, require_bind_eq_ok, return_eq_ok] at h1
    obtain ⟨hready, hall, rfl⟩ := h1
    rw [decide_eq_true_eq] at hready
    rw [hp] at hrank
    refine ⟨fun _ => hp ▸ hrank, by simp [hp], fun _ => ⟨hready, ?_⟩, by simp [hp], by simp [hp], by simp [hp]⟩
    intro ns' hns' e he
    obtain rfl := Option.some.inj (hns.symm.trans hns')
    rw [he] at hall
    simpa using hall
  | cleanup =>
    obtain ⟨ns, hns⟩ := hsome (by rw [hp]; simp)
    obtain ⟨hrank, -, l₁, h1, rfl⟩ := (checkOrder_some hns).1 h
    rw [checkBoundary, hp] at h1
    rw [require_bind_eq_ok, return_eq_ok] at h1
    obtain ⟨hle, rfl⟩ := h1
    rw [decide_eq_true_eq] at hle
    rw [hp] at hrank
    refine ⟨fun _ => hp ▸ hrank, by simp [hp], by simp [hp], by simp [hp], fun _ ns' hns' => ?_, by simp [hp]⟩
    obtain rfl := Option.some.inj (hns.symm.trans hns')
    exact hle

/-- What stops the reading earlier stops it. -/
theorem takeWhile_snoc {α : Type} {p : α → Bool} {x : α} : ∀ {xs : List α}, (∃ y ∈ xs, p y = false) →
    (xs ++ [x]).takeWhile p = xs.takeWhile p
  | [], h => by
    obtain ⟨y, hy, -⟩ := h
    cases hy
  | y :: ys, h => by
    rw [List.cons_append, List.takeWhile_cons, List.takeWhile_cons]
    cases hp : p y with
    | false => rfl
    | true =>
      obtain ⟨z, hz, hpz⟩ := h
      rcases List.mem_cons.1 hz with rfl | hz
      · rw [hp] at hpz
        cases hpz
      · rw [if_pos rfl, if_pos rfl, takeWhile_snoc ⟨z, hz, hpz⟩]

theorem not_cleanup_of_mem {vs : List Verdict} {v : Verdict} (h : v ∈ vs.takeWhile (·.phase ≠ .cleanup)) :
    v ∈ vs ∧ v.phase ≠ .cleanup :=
  ⟨(List.takeWhile_prefix _).subset h, by simpa using List.mem_takeWhile_imp h⟩

/-! ### One more row -/

section Next

variable {l l' : Ledger F} {vs : List Verdict} {v : Verdict}

/-- Nothing is added to the rows before the first cleanup row once there is
one. -/
theorem Chronicle.takeWhile_eq (h : Chronicle l vs) {b : ℤ} (hb : l.cleanupBoundary = some b) :
    (vs ++ [v]).takeWhile (·.phase ≠ .cleanup) = vs.takeWhile (·.phase ≠ .cleanup) := by
  obtain ⟨w, hw, hp⟩ := (h.boundary b hb).1
  exact takeWhile_snoc ⟨w, hw, by simp [hp]⟩

/-- The boundary a cleanup row finds, or sets. -/
theorem Chronicle.le_boundary (h : Chronicle l vs) (hp : v.phase = .cleanup) {w : Verdict}
    (hw : w ∈ (vs ++ [v]).takeWhile (·.phase ≠ .cleanup)) : w.endNs ≤ l.cleanupBoundary.getD l.last := by
  cases hb : l.cleanupBoundary with
  | none =>
    obtain ⟨hmem, hne⟩ := not_cleanup_of_mem hw
    rcases List.mem_append.1 hmem with hmem | hmem
    · exact h.last w hmem
    · rw [List.mem_singleton.1 hmem] at hne
      exact absurd hp hne
  | some b =>
    rw [h.takeWhile_eq hb] at hw
    exact (h.boundary b hb).2 w hw

/-- The owner a row is audited against is that of the rows before. -/
theorem Chronicle.owner_eq (h : Chronicle l vs) {row : Value F} (hgiven : identity (l.ownerFor row) = .ok v.owner) :
    ∀ w ∈ vs, w.owner = v.owner := by
  intro w hw
  rcases h.owner with ⟨rfl, -⟩ | ⟨o, ho, hall⟩
  · cases hw
  · rw [Ledger.ownerFor, if_neg, ho] at hgiven
    · exact (hall w hw).trans (Except.ok.inj hgiven)
    · intro hnull
      rw [Value.isNull_iff.1 hnull] at ho
      exact identity_null ho

theorem Chronicle.learnt (h : Chronicle l vs) (hl : Learnt l.seen v.seen v.members) :
    ∀ w ∈ vs ++ [v], ∀ k ∈ w.members, v.seen.lookup k.pid = some k.startTicks := by
  intro w hw k hk
  rcases List.mem_append.1 hw with hw | hw
  · exact hl.kept _ _ (h.seen w hw k hk)
  · rw [List.mem_singleton.1 hw] at hk
    exact hl.learnt k hk

/-- The phases a row finds behind it. -/
theorem Chronicle.rank_le (h : Chronicle l vs) (hf : Follows l l' v) :
    ∀ w ∈ vs, w.phase ≠ .unknown → v.phase ≠ .unknown → w.phase.rank ≤ v.phase.rank :=
  fun w hw hp hp' => (h.rank w hw hp).trans (hf.rank hp')

/-- No readiness row ends after an acknowledgement. -/
theorem Chronicle.acknowledged (h : Chronicle l vs) (hf : Follows l l' v) :
    ∀ w ∈ vs ++ [v], ∀ u ∈ vs ++ [v], w.phase = .readiness → u.phase = .workload →
      ∀ ns, u.eventNs = some ns → w.endNs ≤ ns := by
  intro w hw u hu hp hp' ns hns
  rcases List.mem_append.1 hw with hw | hw
  · rcases List.mem_append.1 hu with hu | hu
    · exact h.chronological.acknowledged w hw u hu hp hp' ns hns
    · rw [List.mem_singleton.1 hu] at hp' hns
      obtain ⟨e, he, hwe⟩ := h.readinessEnd w hw hp
      exact hwe.trans ((hf.workload hp').2 ns hns e he)
  · rw [List.mem_singleton.1 hw] at hp
    rcases List.mem_append.1 hu with hu | hu
    · -- a readiness row behind a workload row would reverse the phases
      have := h.rank_le hf u hu (by rw [hp']; simp) (by rw [hp]; simp)
      rw [hp, hp'] at this
      exact absurd this (by decide)
    · rw [List.mem_singleton.1 hu, hp] at hp'
      cases hp'

/-- No row before the first cleanup row ends after a cleanup. -/
theorem Chronicle.cleaned (h : Chronicle l vs) (hf : Follows l l' v) :
    ∀ w ∈ (vs ++ [v]).takeWhile (·.phase ≠ .cleanup), ∀ u ∈ vs ++ [v], u.phase = .cleanup →
      ∀ ns, u.eventNs = some ns → w.endNs ≤ ns := by
  intro w hw u hu hp ns hns
  rcases List.mem_append.1 hu with hu | hu
  · cases hb : l.cleanupBoundary with
    | none => exact absurd hp (h.uncleaned hb u hu)
    | some b =>
      rw [h.takeWhile_eq hb] at hw
      exact h.chronological.cleaned w hw u hu hp ns hns
  · rw [List.mem_singleton.1 hu] at hp hns
    exact (h.le_boundary hp hw).trans (hf.cleanup hp ns hns)

/-- **The rows with one more** are in order. -/
theorem Chronicle.chronological_next (h : Chronicle l vs) (hf : Follows l l' v) {row owner : Value F} {sequence : ℤ}
    {runId : Text} (hacc : Accepted row owner sequence l.last runId l.seen v) (hsame : ∀ w ∈ vs, w.owner = v.owner) :
    Chronological (vs ++ [v]) := by
  obtain ⟨-, hle, hstart⟩ := hacc.interval
  have hc := h.chronological
  have hlearnt := h.learnt hacc.learnt
  refine ⟨?_, ?_, ?_, ?_, h.acknowledged hf, ?_, h.cleaned hf, ?_, ?_⟩
  · intro w hw
    rcases List.mem_append.1 hw with hw | hw
    · exact hc.intervals w hw
    · rw [List.mem_singleton.1 hw]
      exact hle
  · refine List.pairwise_append.2 ⟨hc.ordered, List.pairwise_singleton _ _, fun w hw u hu => ?_⟩
    rw [List.mem_singleton.1 hu]
    exact (h.last w hw).trans hstart
  · refine List.pairwise_append.2 ⟨hc.phases, List.pairwise_singleton _ _, fun w hw u hu => ?_⟩
    rw [List.mem_singleton.1 hu]
    exact h.rank_le hf w hw
  · intro w hw hp
    rcases List.mem_append.1 hw with hw | hw
    · exact hc.before w hw hp
    · rw [List.mem_singleton.1 hw] at hp ⊢
      obtain ⟨ns, hns, -, -, hbound⟩ := hacc.event hp
      exact ⟨ns, hns, hbound⟩
  · intro earlier w later heq hp
    rcases List.eq_nil_or_concat later with rfl | ⟨later', u, rfl⟩
    · obtain ⟨rfl, hv⟩ := List.append_inj' heq rfl
      obtain rfl := (List.cons.inj hv).1
      exact h.counted (hf.workload hp).1
    · rw [List.concat_eq_append, ← List.cons_append, ← List.append_assoc] at heq
      exact hc.ready earlier w later' (List.append_inj' heq rfl).1 hp
  · have hall : ∀ w ∈ vs ++ [v], w.owner = v.owner := by
      intro w hw
      rcases List.mem_append.1 hw with hw | hw
      · exact hsame w hw
      · rw [List.mem_singleton.1 hw]
    exact fun w hw u hu => (hall w hw).trans (hall u hu).symm
  · intro w hw u hu k hk k' hk' hpid
    have hseen' := hlearnt u hu k' hk'
    rw [← hpid, hlearnt w hw k hk] at hseen'
    exact Option.some.inj hseen'

/-- The counts with one more row. -/
theorem Chronicle.counted_tally (h : Chronicle l vs) {last : ℤ}
    (hpos : 0 < ((l.folds.tally v last).phases .readiness).samples) : ∃ w ∈ vs ++ [v], w.phase = .readiness := by
  by_cases hp : v.phase = .readiness
  · exact ⟨v, List.mem_append_right _ (List.mem_singleton_self v), hp⟩
  · rw [Folds.tally] at hpos
    dsimp only at hpos
    rw [Function.update_of_ne (Ne.symm hp)] at hpos
    obtain ⟨u, hu, hpu⟩ := h.counted hpos
    exact ⟨u, List.mem_append_left _ hu, hpu⟩

/-- The peaks with one more row. -/
theorem Chronicle.peaks_tally (h : Chronicle l vs) {last : ℤ} {p : Phase} {b : ℤ}
    (hb : ((l.folds.tally v last).phases p).peakBytes = some b) : ∃ w ∈ vs ++ [v], w.phase = p ∧ w.total = some b := by
  have hold : (l.folds.phases p).peakBytes = some b → ∃ w ∈ vs ++ [v], w.phase = p ∧ w.total = some b := by
    intro hb
    obtain ⟨u, hu, hpu⟩ := h.peaks p b hb
    exact ⟨u, List.mem_append_left _ hu, hpu⟩
  rw [Folds.tally] at hb
  dsimp only at hb
  by_cases hp : p = v.phase
  · subst hp
    rw [Function.update_self] at hb
    dsimp only at hb
    cases ht : v.total with
    | none =>
      rw [ht] at hb
      exact hold hb
    | some t =>
      rw [ht] at hb
      rcases eq_or_of_raise hb with rfl | hb
      · exact ⟨v, List.mem_append_right _ (List.mem_singleton_self v), rfl, ht⟩
      · exact hold hb
  · rw [Function.update_of_ne hp] at hb
    exact hold hb

end Next

/-- **A row that passes** is in order with those before it. -/
theorem Chronicle.next {l l' : Ledger F} {vs : List Verdict} {runId : Text} {row : Value F} {v : Verdict}
    (h : Chronicle l vs) (hrow : auditRow runId l row = .ok (l', v)) : Chronicle l' (vs ++ [v]) := by
  obtain ⟨hacc, hfolds, hlast, howner, hseen⟩ := auditRow_folds hrow
  obtain ⟨-, -, l₁, horder, rfl⟩ := auditRow_eq_ok.1 hrow
  have hf : Follows l l₁ v := by
    have := follows_of_checkOrder horder hacc.eventless fun hp => (hacc.event hp).imp fun _ hns => hns.1
    exact ⟨this.rank, this.lastRank, this.workload, this.readinessEnd, this.cleanup, this.boundary⟩
  obtain ⟨-, hle, hstart⟩ := hacc.interval
  have hsame := h.owner_eq hacc.given
  have hearlier : ∀ w ∈ vs, w.endNs ≤ v.endNs := fun w hw => ((h.last w hw).trans hstart).trans hle
  refine ⟨h.chronological_next hf hacc hsame, ?_, ?_, ?_, fun hpos => h.counted_tally (hfolds ▸ hpos), ?_, ?_,
    fun p b hb => h.peaks_tally (hfolds ▸ hb), .inr ⟨v.owner, ?_, fun w hw => ?_⟩,
    fun w hw k hk => hseen ▸ h.learnt hacc.learnt w hw k hk⟩
  · intro w hw
    rcases List.mem_append.1 hw with hw | hw
    · exact hearlier w hw
    · rw [List.mem_singleton.1 hw]
  · intro w hw hp
    show w.phase.rank ≤ l₁.lastRank
    rw [hf.lastRank]
    rcases List.mem_append.1 hw with hw | hw
    · split
      · exact h.rank w hw hp
      next hv => exact h.rank_le hf w hw hp hv
    · rw [List.mem_singleton.1 hw] at hp ⊢
      rw [if_neg hp]
  · intro w hw hp
    show ∃ e, l₁.readinessEnd = some e ∧ w.endNs ≤ e
    rw [hf.readinessEnd]
    rcases List.mem_append.1 hw with hw | hw
    · split
      · exact ⟨_, rfl, hearlier w hw⟩
      · exact h.readinessEnd w hw hp
    · rw [List.mem_singleton.1 hw] at hp ⊢
      rw [if_pos hp]
      exact ⟨_, rfl, le_rfl⟩
  · intro hb w hw
    have hb : l₁.cleanupBoundary = none := hb
    rw [hf.boundary] at hb
    split at hb
    · cases hb
    next hv =>
      rcases List.mem_append.1 hw with hw | hw
      · exact h.uncleaned hb w hw
      · rw [List.mem_singleton.1 hw]
        exact hv
  · intro b hb
    have hb : l₁.cleanupBoundary = some b := hb
    rw [hf.boundary] at hb
    split at hb
    next hv =>
      obtain rfl := Option.some.inj hb
      exact ⟨⟨v, List.mem_append_right _ (List.mem_singleton_self v), hv⟩, fun w hw => h.le_boundary hv hw⟩
    · obtain ⟨⟨w, hw, hp⟩, hall⟩ := h.boundary b hb
      refine ⟨⟨w, List.mem_append_left _ hw, hp⟩, fun u hu => ?_⟩
      rw [h.takeWhile_eq hb] at hu
      exact hall u hu
  · rw [howner]
    exact hacc.given
  · rcases List.mem_append.1 hw with hw | hw
    · exact hsame w hw
    · rw [List.mem_singleton.1 hw]

/-! ### Streams -/

theorem exists_of_forall₂ {α β : Type} {R : α → β → Prop} {xs : List α} {ys : List β} (h : List.Forall₂ R xs ys)
    {x : α} (hx : x ∈ xs) : ∃ y ∈ ys, R x y := by
  induction h with
  | nil => cases hx
  | cons hr _ ih =>
    rcases List.mem_cons.1 hx with rfl | hx
    · exact ⟨_, List.mem_cons_self, hr⟩
    · obtain ⟨y, hy, hxy⟩ := ih hx
      exact ⟨y, List.mem_cons_of_mem _ hy, hxy⟩

theorem says_of_accepted {row owner : Value F} {sequence lastEnd : ℤ} {runId : Text} {seen : Table ℤ ℤ} {v : Verdict}
    (h : Accepted row owner sequence lastEnd runId seen v) : Says runId row v where
  runId := h.runId
  startNs := h.startNs
  endNs := h.endNs
  owner := h.owner
  phase := h.phase
  total := h.total
  names := h.names
  namesLast hs := h.namesLast fun hp => hs (by rw [h.status, hp]; rfl)
  event ns hns := by
    by_cases hp : v.phase = .unknown
    · rw [h.eventless hp] at hns
      cases hns
    · obtain ⟨ns', hns', hget, -⟩ := h.event hp
      obtain rfl := Option.some.inj (hns'.symm.trans hns)
      exact hget
  owns := h.owns

/-- **The lines in turn**, behind those the ledger remembers. -/
theorem Chronicle.lines [Floats F] {runId : Text} : ∀ {raws : List Bytes} {l l' : Ledger F} {before vs : List Verdict},
    Chronicle l before → auditLines runId l raws = .ok (l', vs) →
      Chronicle l' (before ++ vs) ∧ ∃ rows : List (Value F), raws.map loadsBytes = rows.map some ∧
        List.Forall₂ (Says runId) rows vs
  | [], l, l', before, vs, h, hlines => by
    rw [auditLines, return_eq_ok, Prod.mk.injEq] at hlines
    obtain ⟨rfl, rfl⟩ := hlines
    rw [List.append_nil]
    exact ⟨h, [], rfl, .nil⟩
  | raw :: raws, l, l', before, vs, h, hlines => by
    rw [auditLines, bind_eq_ok] at hlines
    obtain ⟨⟨l₁, v⟩, hline, hlines⟩ := hlines
    dsimp only at hlines
    rw [bind_eq_ok] at hlines
    obtain ⟨⟨l₂, vs'⟩, hrest, hlines⟩ := hlines
    rw [return_eq_ok, Prod.mk.injEq] at hlines
    obtain ⟨rfl, rfl⟩ := hlines
    obtain ⟨-, -, row, hread, hrow⟩ := auditLine_eq_ok.1 hline
    have hstamp : Chronicle (l.stamp raw) before := ⟨h.chronological, h.last, h.rank, h.readinessEnd, h.counted,
      h.uncleaned, h.boundary, h.peaks, h.owner, h.seen⟩
    obtain ⟨hall, rows, hreads, hsays⟩ := (hstamp.next hrow).lines hrest
    rw [List.append_assoc] at hall
    refine ⟨hall, row :: rows, ?_, .cons (says_of_accepted (auditRow_folds hrow).1) hsays⟩
    rw [List.map_cons, List.map_cons, hread, hreads]

/-- A start time a row gives for a PID among its processes: in its opening
scan or its members, and in its closing scan where the sample is not
partial. -/
def Gives (row : Value F) (i : Identity) : Prop :=
  Names row i ∨ row.get "sample_status" ≠ .str (text "PARTIAL") ∧ NamesLast row i

/-- **What the auditor accepts is in order.** The verdicts say what the rows
of the stream say, their intervals and phases are in order, the processes of
a PID have one start time, what says whose the stream is says the same in
every row, and a peak is that of a row of its phase. -/
theorem chronology [Floats F] {raw summaryBytes : Bytes} {result : Option Bytes} {report : Report F}
    (h : audit raw summaryBytes result = .ok report) : ∃ runId, ∃ rows : List (Value F),
    (lines raw).map loadsBytes = rows.map some ∧ List.Forall₂ (Says runId) rows report.verdicts ∧
    Chronological report.verdicts ∧
    (∀ row ∈ rows, ∀ row' ∈ rows, ∀ i j, Gives row i → Gives row' j → i.pid = j.pid → i.startTicks = j.startTicks) ∧
    (∀ row ∈ rows, ∀ row' ∈ rows, ∀ i j, Owns row i → Owns row' j → i = j) ∧
    ∀ p b, (report.derived.phases p).peakBytes = some b → ∃ v ∈ report.verdicts, v.phase = p ∧ v.total = some b := by
  obtain ⟨-, summary, -, runId, -, l, verdicts, hlines, -, -, -, hreport⟩ := audit_eq_ok.1 h
  have hverdicts : report.verdicts = verdicts := by rw [hreport]
  have hderived : report.derived = l.folds := by rw [hreport]
  rw [← hverdicts] at hlines
  obtain ⟨hall, rows, hreads, hsays⟩ := chronicle_nil.lines hlines
  rw [List.nil_append] at hall
  have hgives : ∀ row ∈ rows, ∀ i, Gives row i → ∃ v ∈ report.verdicts, i ∈ v.members := by
    intro row hrow i hi
    obtain ⟨v, hv, hsaid⟩ := exists_of_forall₂ hsays hrow
    rcases hi with hi | ⟨hstatus, hi⟩
    · exact ⟨v, hv, hsaid.names i hi⟩
    · exact ⟨v, hv, hsaid.namesLast hstatus i hi⟩
  refine ⟨runId, rows, hreads, hsays, hall.chronological, ?_, ?_, hderived ▸ hall.peaks⟩
  · intro row hrow row' hrow' i j hi hj hpid
    obtain ⟨v, hv, hiv⟩ := hgives row hrow i hi
    obtain ⟨w, hw, hjw⟩ := hgives row' hrow' j hj
    exact hall.chronological.oneStart v hv w hw i hiv j hjw hpid
  · intro row hrow row' hrow' i j hi hj
    obtain ⟨v, hv, hsaid⟩ := exists_of_forall₂ hsays hrow
    obtain ⟨w, hw, hsaid'⟩ := exists_of_forall₂ hsays hrow'
    rw [hsaid.owns i hi, hsaid'.owns j hj]
    exact hall.chronological.oneOwner v hv w hw

/-! ### Streams of one row -/

/-- A process of the group, as a scan lists it. -/
def listed (pid ticks : ℤ) : Value Unit :=
  .record [("pid", .int pid), ("start_ticks", .int ticks), ("pgid", .int 7), ("sid", .int 7), ("state", .str (text "S"))]

/-- A member. -/
def measured (before after rss : Value Unit) (label : String) : Value Unit :=
  .record [("before", before), ("after", after), ("rss_bytes", rss), ("status", .str (text label))]

/-- A row of the group of the process 7, which began at 1: both scans list one
process. -/
def loneRow (anchor opening closing member : Value Unit) (status : String) (total : Value Unit) : Value Unit :=
  .record [("schema_version", .int version), ("run_id", .str (text "00000000000000000000000000000000")),
    ("sequence", .int 0), ("start_ns", .int 0), ("end_ns", .int 0),
    ("owner", .record [("pid", .int 7), ("start_ticks", .int 1), ("pgid", .int 7), ("sid", .int 7)]),
    ("anchor_before", anchor), ("anchor_after", anchor), ("scan_before", .arr [opening]), ("scan_after", .arr [closing]),
    ("scan_errors", .arr []), ("sampling_errors", .arr []), ("membership_scan_status", .str (text "complete")),
    ("members", .arr [member]), ("mem_available_bytes", .int 0), ("sample_status", .str (text status)),
    ("group_rss_bytes", total), ("phase", .record [("name", .str (text "unknown")), ("event", .null)]),
    ("site", .str (text "runner_monitor"))]

/-- A process is gone when it is measured, and its PID is another's in the
closing scan. -/
def reusedRow : Value Unit :=
  loneRow .null (listed 8 2) (listed 8 3) (measured (listed 8 2) .null .null "VANISHED") "PARTIAL" .null

/-- Both anchors are the owner, and both scans and the member have its PID and
another start time. -/
def impostorRow : Value Unit :=
  loneRow (listed 7 1) (listed 7 2) (listed 7 2) (measured (listed 7 2) (listed 7 2) (.int 4096) "LIVE") "COMPLETE"
    (.int 4096)

theorem wf_listed (pid ticks : ℤ) : (listed pid ticks).Wf :=
  Value.wf_record (by simp [Value.Wf.int, Value.Wf.str (proper_text _)])

theorem wf_singleton {v : Value Unit} (h : v.Wf) : (Value.arr [v]).Wf :=
  .arr fun w hw => by rwa [List.mem_singleton.1 hw]

theorem wf_measured {before after rss : Value Unit} (label : String) (hb : before.Wf) (ha : after.Wf) (hr : rss.Wf) :
    (measured before after rss label).Wf :=
  Value.wf_record (by simp [hb, ha, hr, Value.Wf.str (proper_text _)])

theorem wf_loneRow {anchor opening closing member total : Value Unit} (status : String) (ha : anchor.Wf)
    (ho : opening.Wf) (hc : closing.Wf) (hm : member.Wf) (ht : total.Wf) :
    (loneRow anchor opening closing member status total).Wf := by
  have hint : ∀ n : ℤ, (Value.int n : Value Unit).Wf := .int
  have hnull : (Value.null : Value Unit).Wf := .null
  have htext : ∀ t : String, (Value.str (text t) : Value Unit).Wf := fun t => .str (proper_text t)
  have hempty : (Value.arr [] : Value Unit).Wf := .arr (by simp)
  have howner : (Value.record [("pid", .int 7), ("start_ticks", .int 1), ("pgid", .int 7), ("sid", .int 7)] :
      Value Unit).Wf := Value.wf_record (by simp [hint])
  have hphase : (Value.record [("name", .str (text "unknown")), ("event", .null)] : Value Unit).Wf :=
    Value.wf_record (by simp [hnull, htext])
  have hopening := wf_singleton ho
  have hclosing := wf_singleton hc
  have hmember := wf_singleton hm
  exact Value.wf_record (by simp [hint, htext, hempty, howner, hphase, ha, hopening, hclosing, hmember, ht])

theorem wf_reusedRow : reusedRow.Wf :=
  wf_loneRow _ .null (wf_listed 8 2) (wf_listed 8 3) (wf_measured _ (wf_listed 8 2) .null .null) .null

theorem wf_impostorRow : impostorRow.Wf :=
  wf_loneRow _ (wf_listed 7 1) (wf_listed 7 2) (wf_listed 7 2)
    (wf_measured _ (wf_listed 7 2) (wf_listed 7 2) (.int 4096)) (.int 4096)

/-- The line of a row. -/
def loneStream (row : Value Unit) : Bytes := (rowLine row).getD []

/-- The summary its recorder closes with. -/
def loneSummary (row : Value Unit) : Bytes :=
  let empty : Recorder := .new (text "00000000000000000000000000000000") maxStreamBytes maxSamples
  encodeText ((dumps (((empty.append row).getD empty).close true none : Value Unit)).getD [])

/-- **The auditor accepts the stream of one row.** -/
def Passes (row : Value Unit) : Prop :=
  (∃ report : Report Unit, audit (loneStream row) (loneSummary row) none = .ok report) ∧
    (lines (loneStream row)).map loadsBytes = [some row]

/-- A row that passes, and that the recorder appends. -/
theorem passes_of_wf {row : Value Unit} (hwf : row.Wf)
    (happ : ((Recorder.new (text "00000000000000000000000000000000") maxStreamBytes maxSamples).append row).isSome = true)
    (hpass : (auditRows (text "00000000000000000000000000000000") ({} : Ledger Unit) [row]).toOption.isSome = true) :
    Passes row := by
  obtain ⟨rec, hrec⟩ := Option.isSome_iff_exists.1 happ
  have hall : (Recorder.new (text "00000000000000000000000000000000") maxStreamBytes maxSamples).appendAll [row] =
      some rec := by
    rw [Recorder.appendAll, hrec]
    rfl
  have hw : ∀ r ∈ [row], r.Wf := fun r hr => List.mem_singleton.1 hr ▸ hwf
  obtain ⟨hls, happended⟩ := lines_stream hw hall
  obtain ⟨line, hline, -, -, -, -, hcount⟩ := Recorder.append_inv hrec
  have hstream : loneStream row = rec.stream := by
    have hrest : rec.stream = [] ++ [line].flatten := (Recorder.appended_of_count hcount).stream
    rw [loneStream, hline, Option.getD_some, hrest, List.nil_append, List.flatten_singleton]
  obtain ⟨x, hp⟩ := exists_of_isSome hpass
  obtain ⟨l, ha⟩ := exists_ledger hw hall hp
  have hid : isRunId rec.runId = true := by
    rw [show rec.runId = _ from happended.runId]
    decide
  have hnone : ∀ n, (none : Option ℤ) = some n → Short n := by rintro _ ⟨⟩
  obtain ⟨t, ht, hlen, hread⟩ := exists_close (F := Unit) (g := []) narrow_oneLine (folds_eq hw hall ha).2
    happended.error hid true hnone (by simp) (by simp)
  have hsummary : loneSummary row = encodeText (t ++ []) := by
    rw [loneSummary, hrec, Option.getD_some, dumps, ht, Option.getD_some, List.append_nil]
  rw [Passes, hstream, hsummary, loads_lines hw hls]
  obtain ⟨report, haudit, -⟩ := exists_report (by decide) (by simp) hw hp hall hlen hread fun _ _ => checkLegacy_none
  exact ⟨⟨report, haudit⟩, rfl⟩

theorem reused_passes : Passes reusedRow :=
  passes_of_wf wf_reusedRow (by decide +kernel) (by decide +kernel)

theorem impostor_passes : Passes impostorRow :=
  passes_of_wf wf_impostorRow (by decide +kernel) (by decide +kernel)

theorem chronology_reused : ∃ report : Report Unit,
    audit (loneStream reusedRow) (loneSummary reusedRow) none = .ok report ∧ Chronological report.verdicts := by
  obtain ⟨report, h⟩ := reused_passes.1
  obtain ⟨-, -, -, -, hc, -⟩ := chronology h
  exact ⟨report, h, hc⟩

/-- **A PID may be given two start times**: by the closing scan of a sample
that is partial, and by the scans and members of a complete one against the
owner and the anchors. -/
theorem reused_accepted :
    (Passes reusedRow ∧ reusedRow.get "sample_status" = .str (text "PARTIAL") ∧
      ∃ i j, Names reusedRow i ∧ NamesLast reusedRow j ∧ i.pid = j.pid ∧ i.startTicks ≠ j.startTicks) ∧
    Passes impostorRow ∧ impostorRow.get "sample_status" = .str (text "COMPLETE") ∧
      ∃ i j, Owns impostorRow i ∧ Names impostorRow j ∧ NamesLast impostorRow j ∧ i.pid = j.pid ∧
        i.startTicks ≠ j.startTicks := by
  refine ⟨⟨reused_passes, rfl, ⟨8, 2, 7, 7⟩, ⟨8, 3, 7, 7⟩, ?_, ?_, rfl, by decide⟩, impostor_passes, rfl,
    ⟨7, 1, 7, 7⟩, ⟨7, 2, 7, 7⟩, ?_, ?_, ?_, rfl, by decide⟩
  · exact .opening rfl (List.mem_singleton_self (listed 8 2)) rfl
  · exact ⟨[listed 8 3], listed 8 3, rfl, List.mem_singleton_self _, rfl⟩
  · exact .anchorBefore (show identity (listed 7 1) = _ from rfl)
  · exact .opening rfl (List.mem_singleton_self (listed 7 2)) rfl
  · exact ⟨[listed 7 2], listed 7 2, rfl, List.mem_singleton_self _, rfl⟩

end Chronology

end Bench

end ZkRuntime
