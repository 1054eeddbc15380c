import ZkRuntime.Bench.Helpers.Exchange
/-!
# The order of events

What an exchange accepts, whatever is offered to it, is a beginning of the
five events, and the causality the checks are for holds of it (`Causal`):
one owner, stamps in order, the row of readiness between the first two, the
release behind it, the row of workload behind the acknowledgement. The first
message refused ends the exchange.
-/

namespace ZkRuntime

namespace Bench

namespace Events

open PyJson

variable {F : Type}

/-- An event: what an accepted message says beside its place. -/
structure Event where
  owner : Identity
  stamp : ℤ
  sample : Option Receipt
  deriving DecidableEq, Repr

/-- **The message of an event** in place `n`. -/
structure Stands (runId : Text) (n : ℕ) (message : Value F) (e : Event) : Prop where
  head : Says runId n message e.stamp
  owner : ∃ v, message.find? "owner" = some v ∧ Owns v e.owner
  sample : ∃ v, message.find? "sample" = some v ∧
    match e.sample with
    | none => v = .null
    | some r => Receives v r

/-- **The causality of the events**, as many of the five as there are. -/
structure Causal (es : List Event) : Prop where
  short : es.length ≤ 5
  owner : ∀ a ∈ es, ∀ b ∈ es, a.owner = b.owner
  stamps : es.Pairwise fun a b => a.stamp ≤ b.stamp
  nonneg : ∀ e ∈ es, 0 ≤ e.stamp
  samples : ∀ n e, es[n]? = some e → (e.sample.isSome = true ↔ n = 1 ∨ n = 4)
  readiness : ∀ a b r, es[0]? = some a → es[1]? = some b → b.sample = some r →
    r.sequence = 0 ∧ a.stamp ≤ r.startNs ∧ r.startNs ≤ r.endNs ∧ r.endNs ≤ b.stamp
  release : ∀ b c r, es[1]? = some b → es[2]? = some c → b.sample = some r → r.endNs ≤ c.stamp
  workload : ∀ b d e q r, es[1]? = some b → es[3]? = some d → es[4]? = some e → b.sample = some q →
    e.sample = some r → r.sequence = 1 ∧ d.stamp ≤ r.startNs ∧ r.startNs ≤ r.endNs ∧ r.endNs ≤ e.stamp ∧
      q.rawBytes < r.rawBytes

/-- **What the exchange remembers** of the events it accepted. -/
structure Remembers (s : State) (es : List Event) : Prop where
  unfailed : s.failed = false
  sequence : s.sequence = es.length
  last : ∀ e ∈ es, e.stamp ≤ s.lastNs
  lastOf : ∀ e, es.getLast? = some e → s.lastNs = e.stamp
  owner : ∀ e ∈ es, s.owner = some e.owner
  ready : s.ready = es[1]?.bind Event.sample
  ackNs : s.ackNs = es[3]?.map Event.stamp
  causal : Causal es

theorem causal_nil : Causal [] := by
  constructor <;> simp

theorem remembers_new (runId : Text) : Remembers (State.new runId) [] := by
  constructor <;> simp [State.new, causal_nil]

/-- The fourth place is only reached with what it needs. -/
theorem Remembers.memory {s : State} {es : List Event} (h : Remembers s es) (h4 : s.sequence = 4) :
    (∃ a, s.ackNs = some a) ∧ ∃ q, s.ready = some q := by
  have hlen : es.length = 4 := h.sequence.symm.trans h4
  obtain ⟨b, hb⟩ : ∃ b, es[1]? = some b := ⟨_, List.getElem?_eq_getElem (by omega)⟩
  obtain ⟨d, hd⟩ : ∃ d, es[3]? = some d := ⟨_, List.getElem?_eq_getElem (by omega)⟩
  obtain ⟨q, hq⟩ := Option.isSome_iff_exists.1 ((h.causal.samples 1 b hb).2 (.inl rfl))
  refine ⟨⟨d.stamp, ?_⟩, q, ?_⟩
  · rw [h.ackNs, hd, Option.map_some]
  · rw [h.ready, hb, Option.bind_some, hq]

theorem getElem?_snoc {α : Type} (es : List α) (e : α) (n : ℕ) :
    (es ++ [e])[n]? = if n = es.length then some e else es[n]? := by
  by_cases hn : n = es.length
  · rw [if_pos hn, hn, List.getElem?_concat_length]
  · rw [if_neg hn]
    rcases Nat.lt_or_gt_of_ne hn with hlt | hgt
    · rw [List.getElem?_append_left hlt]
    · rw [List.getElem?_eq_none (by rw [List.length_append, List.length_singleton]; omega),
        List.getElem?_eq_none (by omega)]

/-- **What one more event has to meet**, in the state it is offered to. -/
structure Follows (s : State) (es : List Event) (e : Event) : Prop where
  place : es.length < 5
  chronology : 0 ≤ e.stamp ∧ s.lastNs ≤ e.stamp
  owner : s.owner = none ∨ s.owner = some e.owner
  sample : e.sample.isSome = true ↔ es.length = 1 ∨ es.length = 4
  readiness : es.length = 1 → ∀ r, e.sample = some r →
    r.sequence = 0 ∧ s.lastNs ≤ r.startNs ∧ r.startNs ≤ r.endNs ∧ r.endNs ≤ e.stamp
  release : es.length = 2 → ∀ q, s.ready = some q → q.endNs ≤ e.stamp
  workload : es.length = 4 → ∀ r q a, e.sample = some r → s.ready = some q → s.ackNs = some a →
    r.sequence = 1 ∧ a ≤ r.startNs ∧ r.startNs ≤ r.endNs ∧ r.endNs ≤ e.stamp ∧ q.rawBytes < r.rawBytes

variable {s s' : State} {es : List Event} {e : Event}

/-- **Causality is kept** by an event that follows. -/
theorem Causal.snoc (h : Remembers s es) (hf : Follows s es e) : Causal (es ++ [e]) := by
  have hc := h.causal
  refine ⟨?_, ?_, ?_, ?_, ?_, ?_, ?_, ?_⟩
  · have := hf.place
    rw [List.length_append, List.length_singleton]
    omega
  · have hsame : ∀ a ∈ es, a.owner = e.owner := by
      intro a ha
      rcases hf.owner with hnone | hsome
      · rw [h.owner a ha] at hnone
        cases hnone
      · rw [h.owner a ha] at hsome
        exact Option.some.inj hsome
    intro a ha b hb
    rw [List.mem_append, List.mem_singleton] at ha hb
    rcases ha with ha | rfl <;> rcases hb with hb | rfl
    · exact hc.owner a ha b hb
    · exact hsame a ha
    · exact (hsame b hb).symm
    · rfl
  · refine List.pairwise_append.2 ⟨hc.stamps, List.pairwise_singleton _ _, fun a ha b hb => ?_⟩
    rw [List.mem_singleton.1 hb]
    exact (h.last a ha).trans hf.chronology.2
  · intro a ha
    rw [List.mem_append, List.mem_singleton] at ha
    rcases ha with ha | rfl
    · exact hc.nonneg a ha
    · exact hf.chronology.1
  · intro n a ha
    rw [getElem?_snoc] at ha
    split_ifs at ha with hn
    · cases ha
      rw [hf.sample, hn]
    · exact hc.samples n a ha
  · intro a b r ha hb hr
    rw [getElem?_snoc] at ha hb
    split_ifs at ha hb with h0 h1 h1
    · omega
    · -- the second event is not there before the first
      rw [List.getElem?_eq_none (by omega)] at hb
      cases hb
    · cases hb
      obtain ⟨hrow, hlow, hrest⟩ := hf.readiness h1.symm r hr
      have hlast : s.lastNs = a.stamp := by
        refine h.lastOf a ?_
        rw [List.getLast?_eq_getElem?, ← h1]
        exact ha
      exact ⟨hrow, hlast ▸ hlow, hrest⟩
    · exact hc.readiness a b r ha hb hr
  · intro b c r hb hcc hr
    rw [getElem?_snoc] at hb hcc
    split_ifs at hb hcc with h1 h2 h2
    · omega
    · rw [List.getElem?_eq_none (by omega)] at hcc
      cases hcc
    · cases hcc
      refine hf.release h2.symm r ?_
      rw [h.ready, hb, Option.bind_some, hr]
    · exact hc.release b c r hb hcc hr
  · intro b d x q r hb hd hx hq hr
    rw [getElem?_snoc] at hb hd hx
    by_cases h4 : 4 = es.length
    · rw [if_pos h4] at hx
      rw [if_neg (by omega)] at hb hd
      cases hx
      refine hf.workload h4.symm r q d.stamp hr ?_ ?_
      · rw [h.ready, hb, Option.bind_some, hq]
      · rw [h.ackNs, hd, Option.map_some]
    · rw [if_neg h4] at hx
      have hlt : 4 < es.length := by
        by_contra hno
        rw [List.getElem?_eq_none (by omega)] at hx
        cases hx
      rw [if_neg (by omega)] at hb hd
      exact hc.workload b d x q r hb hd hx hq hr

/-- **And it is remembered** by the state behind it. -/
theorem Remembers.snoc (h : Remembers s es) (hf : Follows s es e) (hfailed : s'.failed = false)
    (hsequence : s'.sequence = es.length + 1) (hlast : s'.lastNs = e.stamp) (howner : s'.owner = some e.owner)
    (hready : s'.ready = if es.length = 1 then e.sample else s.ready)
    (hack : s'.ackNs = if es.length = 3 then some e.stamp else s.ackNs) : Remembers s' (es ++ [e]) := by
  have hcausal := Causal.snoc h hf
  refine ⟨hfailed, ?_, ?_, ?_, ?_, ?_, ?_, hcausal⟩
  · rw [hsequence, List.length_append, List.length_singleton]
  · intro a ha
    rw [List.mem_append, List.mem_singleton] at ha
    rw [hlast]
    rcases ha with ha | rfl
    · exact (h.last a ha).trans hf.chronology.2
    · exact le_rfl
  · intro a ha
    rw [List.getLast?_concat, Option.some.injEq] at ha
    rw [hlast, ha]
  · intro a ha
    rw [howner, hcausal.owner a ha e (by simp)]
  · rw [hready, getElem?_snoc, h.ready]
    by_cases h1 : es.length = 1
    · rw [if_pos h1, if_pos h1.symm, Option.bind_some]
    · rw [if_neg h1, if_neg (fun h => h1 h.symm)]
  · rw [hack, getElem?_snoc, h.ackNs]
    by_cases h3 : es.length = 3
    · rw [if_pos h3, if_pos h3.symm, Option.map_some]
    · rw [if_neg h3, if_neg (fun h => h3 h.symm)]

variable {message : Value F} {now stamp : ℤ} {o : Identity}

theorem Says.place {runId : Text} {n : ℕ} (h : Says runId n message stamp) : n < 5 := by
  obtain ⟨x, hx, -⟩ := h.event
  by_contra hno
  rw [List.getElem?_eq_none (by simpa [order] using hno)] at hx
  cases hx

/-- **One message**: what is accepted is the next event. -/
theorem Accepted.next (h : Remembers s es) (ha : Accepted s message now o stamp s') :
    ∃ e, Stands s.runId es.length message e ∧ e.stamp ≤ now ∧ Remembers s' (es ++ [e]) ∧ s'.runId = s.runId := by
  have hseq := h.sequence
  obtain ⟨v, s₁, hv, hsampled, hreleased, rfl⟩ := ha.sample
  have hsaid := ha.head
  rw [hseq] at hsaid
  have hplace := hsaid.place
  by_cases h1 : s.sequence = 1
  · obtain ⟨r, hr, rfl⟩ := hsampled.persisted h1
    refine ⟨⟨o, stamp, some r⟩, ⟨hsaid, ha.owner, v, hv, hr.toReceives⟩, ha.chronology.2.2, ?_, rfl⟩
    refine h.snoc ⟨hplace, ⟨ha.chronology.1, ha.chronology.2.1⟩, ha.unchanged, ?_, ?_, ?_, ?_⟩ ha.unfailed ?_ rfl rfl ?_ ?_
    · exact ⟨fun _ => .inl (hseq ▸ h1), fun _ => rfl⟩
    · rintro - r' hr'
      cases hr'
      exact ⟨hr.row, hr.between⟩
    · intro h2
      omega
    · intro h4
      omega
    · exact congrArg (· + 1) hseq
    · rw [if_pos (hseq ▸ h1)]
      rfl
    · show (if s.sequence = 3 then some stamp else s.ackNs) = _
      rw [hseq]
  by_cases h4 : s.sequence = 4
  · obtain ⟨hs₁, r, a, q, hr, hack, hready, horder, hbytes⟩ := hsampled.complete h4
    subst hs₁
    refine ⟨⟨o, stamp, some r⟩, ⟨hsaid, ha.owner, v, hv, hr.toReceives⟩, ha.chronology.2.2, ?_, rfl⟩
    refine h.snoc ⟨hplace, ⟨ha.chronology.1, ha.chronology.2.1⟩, ha.unchanged, ?_, ?_, ?_, ?_⟩ ha.unfailed ?_ rfl rfl ?_ ?_
    · exact ⟨fun _ => .inr (hseq ▸ h4), fun _ => rfl⟩
    · intro h1'
      omega
    · intro h2
      omega
    · rintro - r' q' a' hr' hq' ha'
      cases hr'
      rw [hready] at hq'
      rw [hack] at ha'
      cases hq'
      cases ha'
      exact ⟨hr.row, horder, hr.between.2.1, hr.between.2.2, hbytes⟩
    · exact congrArg (· + 1) hseq
    · rw [if_neg (hseq ▸ h1)]
      rfl
    · show (if s.sequence = 3 then some stamp else s.ackNs) = _
      rw [hseq]
  · obtain ⟨rfl, hs₁⟩ := hsampled.other h1 h4
    subst hs₁
    refine ⟨⟨o, stamp, none⟩, ⟨hsaid, ha.owner, _, hv, rfl⟩, ha.chronology.2.2, ?_, rfl⟩
    refine h.snoc ⟨hplace, ⟨ha.chronology.1, ha.chronology.2.1⟩, ha.unchanged, ?_, ?_, ?_, ?_⟩ ha.unfailed ?_ rfl rfl ?_ ?_
    · rw [hseq] at h1 h4
      exact ⟨fun h => absurd h Bool.false_ne_true, fun h => absurd h (not_or.2 ⟨h1, h4⟩)⟩
    · intro h1'
      exact absurd (hseq.trans h1') h1
    · intro h2 q hq
      obtain ⟨q', hq', hle⟩ := hreleased (hseq.trans h2)
      rw [show s.ready = some q' from hq'] at hq
      cases hq
      exact hle
    · intro h4'
      exact absurd (hseq.trans h4') h4
    · exact congrArg (· + 1) hseq
    · rw [if_neg (hseq ▸ h1)]
      rfl
    · show (if s.sequence = 3 then some stamp else s.ackNs) = _
      rw [hseq]

/-! ## Runs -/

/-- A refusal, with its reason. -/
def IsRefusal (r : Checked Unit) : Prop := ∃ reason, r = .error (.interface reason)

theorem offer_failed (hs : s.failed = true) (ms : List (Value F × ℤ)) :
    (s.offer ms).1 = List.replicate ms.length (.error (.interface "channel already failed")) ∧ (s.offer ms).2 = s := by
  induction ms with
  | nil => exact ⟨rfl, rfl⟩
  | cons m ms ih =>
    rw [State.offer, accept_failed hs]
    exact ⟨congrArg (_ :: ·) ih.1, ih.2⟩

/-- **What came of the messages**: as many events as were accepted, and of
every beginning the state behind it. -/
structure Outcome (s : State) (es₀ : List Event) (ms : List (Value F × ℤ)) (es : List Event) : Prop where
  results : ∃ rs, (s.offer ms).1 = List.replicate es.length (.ok ()) ++ rs ∧ (∀ r ∈ rs, IsRefusal r) ∧
    es.length + rs.length = ms.length
  stands : ∀ n m e, ms[n]? = some m → es[n]? = some e →
    Stands s.runId (es₀.length + n) m.1 e ∧ e.stamp ≤ m.2
  causal : Causal (es₀ ++ es)
  behind : ∀ n ≤ ms.length, (s.offer (ms.take n)).2.sequence = es₀.length + min n es.length ∧
    ((s.offer (ms.take n)).2.failed = true ↔ es.length < n)

/-- **Any messages, in any state of the exchange.** The induction is on the
messages; the first refusal leaves the rest to `offer_failed`. -/
theorem exists_outcome (h : Remembers s es) (ms : List (Value F × ℤ)) : ∃ es', Outcome s es ms es' := by
  induction ms generalizing s es with
  | nil =>
    refine ⟨[], ⟨[], rfl, by simp, rfl⟩, by simp, ?_, ?_⟩
    · rw [List.append_nil]
      exact h.causal
    · intro n hn
      obtain rfl := Nat.le_zero.1 hn
      exact ⟨h.sequence, by rw [List.take_zero]; simp [State.offer, h.unfailed]⟩
  | cons m ms ih =>
    have hzero : (s.offer ((m :: ms).take 0)).2 = s := rfl
    rcases accept_cases m.1 m.2 h.memory with ⟨o, stamp, s', hx, hacc⟩ | ⟨reason, o, hx⟩
    · obtain ⟨e, hstands, hnow, hrem, hrun⟩ := hacc.next h
      obtain ⟨es', ⟨rs, hrs, hrefused, hlen⟩, hstands', hcausal, hbehind⟩ := ih hrem
      refine ⟨e :: es', ⟨rs, ?_, hrefused, ?_⟩, ?_, ?_, ?_⟩
      · rw [State.offer, hx]
        dsimp only
        rw [hrs]
        rfl
      · rw [List.length_cons, List.length_cons]
        omega
      · intro n m' e' hm he
        cases n with
        | zero =>
          cases hm
          cases he
          exact ⟨hstands, hnow⟩
        | succ n =>
          have hnext := hstands' n m' e' hm he
          rw [hrun, List.length_append, List.length_singleton, Nat.add_assoc, Nat.add_comm 1 n] at hnext
          exact hnext
      · rwa [List.append_assoc, List.singleton_append] at hcausal
      · intro n hn
        cases n with
        | zero =>
          rw [hzero, Nat.zero_min]
          exact ⟨h.sequence, by simp [h.unfailed]⟩
        | succ n =>
          have hnext := hbehind n (by rw [List.length_cons] at hn; omega)
          have hoffer : (s.offer ((m :: ms).take (n + 1))).2 = (s'.offer (ms.take n)).2 := by
            rw [List.take_succ_cons, State.offer, hx]
          rw [hoffer, hnext.1, hnext.2, List.length_append, List.length_singleton, List.length_cons]
          omega
    · -- the first refusal
      obtain ⟨hresults, hstate⟩ := offer_failed (s := { s with owner := o, failed := true }) rfl ms
      have hlist : (s.offer (m :: ms)).1 = .error (.interface reason) ::
          List.replicate ms.length (.error (.interface "channel already failed")) := by
        rw [State.offer, hx]
        exact congrArg (_ :: ·) hresults
      refine ⟨[], ⟨_, hlist, ?_, ?_⟩, by simp, ?_, ?_⟩
      · intro r hr
        rcases List.mem_cons.1 hr with rfl | hr
        · exact ⟨reason, rfl⟩
        · exact ⟨_, List.eq_of_mem_replicate hr⟩
      · rw [List.length_nil, List.length_cons, List.length_replicate, List.length_cons]
        omega
      · rw [List.append_nil]
        exact h.causal
      · intro n hn
        cases n with
        | zero =>
          rw [hzero]
          exact ⟨h.sequence, by simp [h.unfailed]⟩
        | succ n =>
          have hoffer : (s.offer ((m :: ms).take (n + 1))).2 = { s with owner := o, failed := true } := by
            rw [List.take_succ_cons, State.offer, hx]
            dsimp only
            exact (offer_failed (s := { s with owner := o, failed := true }) rfl (ms.take n)).2
          rw [hoffer]
          exact ⟨by simpa using h.sequence, by simp⟩

/-- **The order of events.** Of any messages, offered at any times, a
beginning is accepted: each is the next event of the order, stamped no later
than it was offered, and the events have their causality. The rest is refused
with an `InterfaceError`, the exchange has failed since the first refusal, and
its place is where it was. -/
theorem offer_order (runId : Text) (ms : List (Value F × ℤ)) : ∃ es, Outcome (State.new runId) [] ms es :=
  exists_outcome (remembers_new runId) ms

end Events

end Bench

end ZkRuntime
