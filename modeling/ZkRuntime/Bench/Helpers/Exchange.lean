import ZkRuntime.Common.Refusal
import ZkRuntime.Bench.Model.Events
/-!
# Helpers — what a message is checked for

The checks of the exchange in the order they are made. Each lemma says what
is known behind the check and that nothing but an `InterfaceError` is raised
by it: a key is looked up only in a value that has it, and integers alone
are ordered.
-/

namespace ZkRuntime

namespace Bench

namespace Events

open PyJson

variable {F : Type} {value message sample : Value F} {k : String}

/-- An `InterfaceError`. -/
def Refused (e : Raised) : Prop := ∃ reason, e = .interface reason

/-- **A check**: where it passes, `P` holds. -/
abbrev Passes (c : Checked Bool) (P : Prop) : Prop := Legal Refused c fun b => b = true → P

theorem legal_require {c : Checked Bool} {P : Prop} (reason : String) (h : Passes c P) :
    Legal Refused (require c reason) fun _ => P := by
  refine h.bind fun b hb => .ite (fun hc => ?_) fun _ => ?_
  · exact Legal.pure (hb hc)
  · exact Legal.throw ⟨reason, rfl⟩

/-- The second condition is looked at where the first one holds. -/
theorem passes_then {a b : Checked Bool} {P Q : Prop} (ha : Passes a P) (hb : P → Passes b Q) :
    Passes (both a b) Q := by
  refine ha.bind fun x hx => .ite (fun hc => hb (hx hc)) fun _ => ?_
  exact Legal.pure fun h => absurd h Bool.false_ne_true

theorem passes_both {a b : Checked Bool} {P Q : Prop} (ha : Passes a P) (hb : P → Passes b Q) :
    Passes (both a b) (P ∧ Q) :=
  passes_then ha fun hp => (hb hp).mono fun _ hq hc => ⟨hp, hq hc⟩

theorem passes_return {b : Bool} {P : Prop} (h : b = true → P) : Passes (return b) P := h

theorem item_eq {v : Value F} (h : value.find? k = some v) : item value k = .ok v := by
  rw [item, h]

/-- **A value with these keys** answers for each of them. -/
theorem find?_of_hasKeys {keys : List String} (h : hasKeys value keys = true) (hk : k ∈ keys) :
    ∃ v, value.find? k = some v := by
  unfold hasKeys at h
  split at h
  · rw [Bool.and_eq_true] at h
    exact Option.isSome_iff_exists.1 (List.all_eq_true.1 h.2 k hk)
  · cases h

variable {v : Value F}

theorem passes_isInt (h : value.find? k = some v) : Passes (isInt value k) (∃ n, value.find? k = some (.int n)) := by
  rw [isInt, item_eq h]
  refine passes_return fun hsome => ?_
  obtain ⟨n, hn⟩ := Option.isSome_iff_exists.1 hsome
  exact ⟨n, by rw [h, Value.int?_eq_some.1 hn]⟩

theorem passes_isStr {s : Text} (h : value.find? k = some v) :
    Passes (isStr value k s) (value.find? k = some (.str s)) := by
  rw [isStr, item_eq h]
  refine passes_return fun heq => ?_
  rw [h, Value.str?_eq_some.1 (beq_iff_eq.1 heq)]

theorem passes_atLeast {n low : ℤ} (h : value.find? k = some (.int n)) : Passes (atLeast value k low) (low ≤ n) := by
  rw [atLeast, item_eq h]
  exact passes_return of_decide_eq_true

/-- An integer under a key is an operand. -/
theorem legal_number {β : Type} {f : ℤ → Checked β} {P : β → Prop} {n : ℤ} (h : value.find? k = some (.int n))
    (hf : Legal Refused (f n) P) : Legal Refused (item value k >>= fun v => number v >>= f) P := by
  rw [item_eq h]
  exact hf

theorem legal_item {β : Type} {f : Value F → Checked β} {P : β → Prop} (h : value.find? k = some v)
    (hf : Legal Refused (f v) P) : Legal Refused (item value k >>= f) P := by
  rw [item_eq h]
  exact hf

/-- An integer, and no smaller than a bound. -/
theorem passes_intAtLeast {low : ℤ} (h : value.find? k = some v) :
    Passes (both (isInt value k) (atLeast value k low)) (∃ n, value.find? k = some (.int n) ∧ low ≤ n) := by
  refine passes_then (passes_isInt h) ?_
  rintro ⟨n, hn⟩
  exact (passes_atLeast hn).mono fun b hb hc => ⟨n, hn, hb hc⟩

/-! ## The owner -/

/-- **The identity a value states.** -/
structure Owns (value : Value F) (o : Identity) : Prop where
  pid : value.find? "pid" = some (.int o.pid)
  startTicks : value.find? "start_ticks" = some (.int o.startTicks)
  pgid : value.find? "pgid" = some (.int o.pgid)
  sid : value.find? "sid" = some (.int o.sid)
  leads : 1 < o.pid ∧ o.pgid = o.pid ∧ o.sid = o.pid
  start : 0 ≤ o.startTicks

theorem legal_owner (value : Value F) : Legal Refused (owner value) (Owns value) := by
  refine (legal_require (P := hasKeys value ownerKeys = true) _ (passes_return id)).bind fun _ hkeys => ?_
  obtain ⟨p, hp⟩ := find?_of_hasKeys (k := "pid") hkeys (by decide)
  obtain ⟨g, hg⟩ := find?_of_hasKeys (k := "pgid") hkeys (by decide)
  obtain ⟨s, hs⟩ := find?_of_hasKeys (k := "sid") hkeys (by decide)
  obtain ⟨t, ht⟩ := find?_of_hasKeys (k := "start_ticks") hkeys (by decide)
  have hids : Passes (allOf (["pid", "pgid", "sid"].map fun k => both (isInt value k) (atLeast value k 2)))
      ((∃ n, value.find? "pid" = some (.int n) ∧ 2 ≤ n) ∧ (∃ n, value.find? "pgid" = some (.int n) ∧ 2 ≤ n) ∧
        (∃ n, value.find? "sid" = some (.int n) ∧ 2 ≤ n) ∧ True) :=
    passes_both (passes_intAtLeast hp) fun _ => passes_both (passes_intAtLeast hg) fun _ =>
      passes_both (passes_intAtLeast hs) fun _ => passes_return fun _ => trivial
  refine (legal_require (P := ∃ o, Owns value o) _ ?_).bind ?_
  · refine passes_then hids ?_
    rintro ⟨⟨p, hp, hlow⟩, ⟨g, hg, -⟩, ⟨s, hs, -⟩, -⟩
    have hsame : Passes (do return (← number (← item value "pid")) == (← number (← item value "pgid"))) (p = g) :=
      legal_number hp (legal_number hg (passes_return beq_iff_eq.1))
    have hsame' : Passes (do return (← number (← item value "pgid")) == (← number (← item value "sid"))) (g = s) :=
      legal_number hg (legal_number hs (passes_return beq_iff_eq.1))
    refine (passes_both hsame fun _ => passes_both hsame' fun _ => passes_intAtLeast ht).mono fun b hb hc => ?_
    obtain ⟨rfl, rfl, t, ht, hstart⟩ := hb hc
    exact ⟨⟨p, t, p, p⟩, hp, ht, hg, hs, ⟨show 1 < p by omega, rfl, rfl⟩, hstart⟩
  · rintro - ⟨o, ho⟩
    exact legal_number ho.pid (legal_number ho.startTicks (legal_number ho.pgid (legal_number ho.sid ho)))

/-! ## The head of a message -/

/-- **What the head of a message says** in place `n`. -/
structure Says (runId : Text) (n : ℕ) (message : Value F) (stamp : ℤ) : Prop where
  keys : hasKeys message messageKeys = true
  schema : message.find? "schema" = some (.int 1)
  contract : message.find? "contract" = some (.str (text contract))
  runId : message.find? "run_id" = some (.str runId)
  sequence : message.find? "sequence" = some (.int n)
  event : ∃ e, order[n]? = some e ∧ message.find? "event" = some (.str (text e))
  state : ∃ e, states[n]? = some e ∧ message.find? "state" = some (.str (text e))
  stamp : message.find? "monotonic_ns" = some (.int stamp)

theorem legal_entry {β : Type} {f : String → Checked β} {P : β → Prop} {xs : List String} {n : ℕ} {x : String}
    (h : xs[n]? = some x) (hf : Legal Refused (f x) P) : Legal Refused (entry xs n >>= f) P := by
  rw [entry, h]
  exact hf

theorem legal_head (s : State) (message : Value F) (now : ℤ) : Legal Refused (s.head message now) fun stamp =>
    s.failed = false ∧ Says s.runId s.sequence message stamp ∧ 0 ≤ stamp ∧ s.lastNs ≤ stamp ∧ stamp ≤ now := by
  refine (legal_require (P := s.failed = false) _ (passes_return fun h => ?_)).bind fun _ hfailed => ?_
  · rwa [Bool.not_eq_true'] at h
  refine (legal_require (P := hasKeys message messageKeys = true) _ (passes_return id)).bind fun _ hkeys => ?_
  have hfind : ∀ k ∈ messageKeys, ∃ v, message.find? k = some v := fun k hk => find?_of_hasKeys hkeys hk
  obtain ⟨schema, hschema⟩ := hfind "schema" (by decide)
  obtain ⟨contract', hcontract⟩ := hfind "contract" (by decide)
  obtain ⟨runId, hrunId⟩ := hfind "run_id" (by decide)
  obtain ⟨sequence, hsequence⟩ := hfind "sequence" (by decide)
  obtain ⟨event, hevent⟩ := hfind "event" (by decide)
  obtain ⟨state, hstate⟩ := hfind "state" (by decide)
  obtain ⟨stamp, hstamp⟩ := hfind "monotonic_ns" (by decide)
  have hversion : Passes (do return (← item message "schema").int? == some 1) (message.find? "schema" = some (.int 1)) := by
    refine legal_item hschema (passes_return fun h => ?_)
    rw [hschema, Value.int?_eq_some.1 (beq_iff_eq.1 h)]
  refine (legal_require _ (passes_both hversion fun _ => passes_both (passes_isStr hcontract) fun _ =>
    passes_isStr hrunId)).bind ?_
  rintro - ⟨hschema, hcontract, hrunId⟩
  refine (legal_require (P := message.find? "sequence" = some (.int s.sequence) ∧ s.sequence < 5) _ ?_).bind ?_
  · refine passes_then (passes_isInt hsequence) ?_
    rintro ⟨n, hn⟩
    have hplace : Passes (do return (← number (← item message "sequence")) == s.sequence) (n = s.sequence) :=
      legal_number hn (passes_return beq_iff_eq.1)
    refine (passes_both hplace fun _ => passes_return of_decide_eq_true).mono fun b hb hc => ?_
    obtain ⟨rfl, hlt⟩ := hb hc
    exact ⟨hn, hlt⟩
  rintro - ⟨hsequence, hlt⟩
  obtain ⟨e, he⟩ : ∃ e, order[s.sequence]? = some e := ⟨_, List.getElem?_eq_getElem hlt⟩
  obtain ⟨e', he'⟩ : ∃ e, states[s.sequence]? = some e := ⟨_, List.getElem?_eq_getElem hlt⟩
  refine (legal_require _ (passes_both (legal_entry he (passes_isStr hevent)) fun _ =>
    legal_entry he' (passes_isStr hstate))).bind ?_
  rintro - ⟨hevent, hstate⟩
  refine (legal_require (P := ∃ t, message.find? "monotonic_ns" = some (.int t) ∧ 0 ≤ t ∧ s.lastNs ≤ t ∧ t ≤ now)
    _ ?_).bind ?_
  · refine passes_then (passes_isInt hstamp) ?_
    rintro ⟨t, ht⟩
    have hnow : Passes (do return decide ((← number (← item message "monotonic_ns")) ≤ now)) (t ≤ now) :=
      legal_number ht (passes_return of_decide_eq_true)
    refine (passes_both (passes_atLeast ht) fun _ => passes_both (passes_atLeast ht) fun _ => hnow).mono
      fun b hb hc => ?_
    exact ⟨t, ht, hb hc⟩
  rintro - ⟨t, ht, hpos, hlast, hnow⟩
  refine legal_item ht ?_
  exact ⟨hfailed, ⟨hkeys, hschema, hcontract, hrunId, hsequence, ⟨e, he, hevent⟩, ⟨e', he', hstate⟩, ht⟩, hpos, hlast,
    hnow⟩

/-! ## Samples -/

/-- **The receipt a sample states.** -/
structure Receives (sample : Value F) (r : Receipt) : Prop where
  sequence : sample.find? "sequence" = some (.int r.sequence)
  startNs : sample.find? "start_ns" = some (.int r.startNs)
  endNs : sample.find? "end_ns" = some (.int r.endNs)
  rawBytes : sample.find? "raw_bytes" = some (.int r.rawBytes)
  rawSha256 : sample.find? "raw_sha256" = some (.str r.rawSha256)

/-- A receipt of row `row`, between two stamps. -/
structure Receipts (lastNs stamp row : ℤ) (sample : Value F) (r : Receipt) : Prop extends Receives sample r where
  row : r.sequence = row
  between : lastNs ≤ r.startNs ∧ r.startNs ≤ r.endNs ∧ r.endNs ≤ stamp
  bytes : 1 ≤ r.rawBytes ∧ r.rawBytes ≤ 16 * 1024 * 1024
  digest : isSha256 r.rawSha256 = true

theorem legal_checkSample (lastNs stamp row : ℤ) (sample : Value F) :
    Legal Refused (checkSample lastNs stamp row sample) (Receipts lastNs stamp row sample) := by
  refine (legal_require (P := hasKeys sample receiptKeys = true) _ (passes_return id)).bind fun _ hkeys => ?_
  have hfind : ∀ k ∈ receiptKeys, ∃ v, sample.find? k = some v := fun k hk => find?_of_hasKeys hkeys hk
  obtain ⟨sequence, hsequence⟩ := hfind "sequence" (by decide)
  obtain ⟨start, hstart⟩ := hfind "start_ns" (by decide)
  obtain ⟨finish, hfinish⟩ := hfind "end_ns" (by decide)
  obtain ⟨bytes, hbytes⟩ := hfind "raw_bytes" (by decide)
  obtain ⟨digest, hdigest⟩ := hfind "raw_sha256" (by decide)
  have hints : Passes (allOf (["sequence", "start_ns", "end_ns", "raw_bytes"].map (isInt sample)))
      ((∃ n, sample.find? "sequence" = some (.int n)) ∧ (∃ n, sample.find? "start_ns" = some (.int n)) ∧
        (∃ n, sample.find? "end_ns" = some (.int n)) ∧ (∃ n, sample.find? "raw_bytes" = some (.int n)) ∧ True) :=
    passes_both (passes_isInt hsequence) fun _ => passes_both (passes_isInt hstart) fun _ =>
      passes_both (passes_isInt hfinish) fun _ => passes_both (passes_isInt hbytes) fun _ => passes_return fun _ => trivial
  refine (legal_require (P := ∃ r, Receipts lastNs stamp row sample r) _ ?_).bind ?_
  · refine passes_then hints ?_
    rintro ⟨⟨n, hn⟩, ⟨a, ha⟩, ⟨z, hz⟩, ⟨b, hb⟩, -⟩
    have hrow : Passes (do return (← item sample "sequence").int? == some row) (n = row) :=
      legal_item hn (passes_return fun h => Option.some.inj (beq_iff_eq.1 h))
    have hordered : Passes (do return decide ((← number (← item sample "start_ns")) ≤ (← number (← item sample "end_ns"))))
        (a ≤ z) := legal_number ha (legal_number hz (passes_return of_decide_eq_true))
    have hended : Passes (do return decide ((← number (← item sample "end_ns")) ≤ stamp)) (z ≤ stamp) :=
      legal_number hz (passes_return of_decide_eq_true)
    have hbounded : Passes (do return decide ((← number (← item sample "raw_bytes")) ≤ 16 * 1024 * 1024))
        (b ≤ 16 * 1024 * 1024) := legal_number hb (passes_return of_decide_eq_true)
    have hhashed : Passes (do return ((← item sample "raw_sha256").str?.any isSha256))
        (∃ t, sample.find? "raw_sha256" = some (.str t) ∧ isSha256 t = true) := by
      refine legal_item hdigest (passes_return fun h => ?_)
      obtain ⟨t, ht, hsha⟩ := (Option.any_eq_true _ _).1 h
      exact ⟨t, by rw [hdigest, Value.str?_eq_some.1 ht], hsha⟩
    refine (passes_both hrow fun _ => passes_both (passes_atLeast ha) fun _ => passes_both hordered fun _ =>
      passes_both hended fun _ => passes_both (passes_atLeast hb) fun _ => passes_both hbounded fun _ => hhashed).mono
      fun c hc htrue => ?_
    obtain ⟨hrow, hlow, hordered, hended, hpos, hbounded, t, ht, hsha⟩ := hc htrue
    exact ⟨⟨n, a, z, b, t⟩, ⟨hn, ha, hz, hb, ht⟩, hrow, ⟨hlow, hordered, hended⟩, ⟨hpos, hbounded⟩, hsha⟩
  · rintro - ⟨r, hr⟩
    refine legal_number hr.sequence (legal_number hr.startNs (legal_number hr.endNs (legal_number hr.rawBytes ?_)))
    exact legal_item hr.rawSha256 hr

/-- **What is known of a message's sample**, in its place: the row it is
of, and what the exchange remembers of it. -/
structure Sampled (s : State) (sample : Value F) (stamp : ℤ) (s' : State) : Prop where
  persisted : s.sequence = 1 → ∃ r, Receipts s.lastNs stamp 0 sample r ∧ s' = { s with ready := some r }
  complete : s.sequence = 4 → s' = s ∧ ∃ r a q, Receipts s.lastNs stamp 1 sample r ∧ s.ackNs = some a ∧
    s.ready = some q ∧ a ≤ r.startNs ∧ q.rawBytes < r.rawBytes
  other : s.sequence ≠ 1 → s.sequence ≠ 4 → sample = .null ∧ s' = s

theorem legal_sampled {s : State} (sample : Value F) (stamp : ℤ)
    (hmemory : s.sequence = 4 → (∃ a, s.ackNs = some a) ∧ ∃ q, s.ready = some q) :
    Legal Refused (s.sampled sample stamp) (Sampled s sample stamp) := by
  refine .ite (fun h1 => ?_) fun h1 => .ite (fun h4 => ?_) fun h4 => ?_
  · refine (legal_checkSample _ _ _ _).bind fun r hr => ?_
    exact ⟨fun _ => ⟨r, hr, rfl⟩, fun h => by omega, fun h => absurd h1 h⟩
  · obtain ⟨⟨a, ha⟩, q, hq⟩ := hmemory h4
    refine (legal_checkSample _ _ _ _).bind fun r hr => ?_
    refine (legal_require (P := a ≤ r.startNs ∧ q.rawBytes < r.rawBytes) _ ?_).bind fun _ horder => ?_
    · rw [ha, hq]
      exact passes_both (passes_return of_decide_eq_true) fun _ => passes_return of_decide_eq_true
    · exact ⟨fun h => absurd h h1, fun _ => ⟨rfl, r, a, q, hr, ha, hq, horder⟩, fun _ h => absurd h4 h⟩
  · refine (legal_require (P := sample = .null) _ (passes_return Value.isNull_iff.1)).bind fun _ hnull => ?_
    exact ⟨fun h => absurd h h1, fun h => absurd h h4, fun _ _ => ⟨hnull, rfl⟩⟩

theorem legal_released (s : State) (stamp : ℤ) : Legal Refused (s.released stamp) fun _ =>
    s.sequence = 2 → ∃ q, s.ready = some q ∧ q.endNs ≤ stamp := by
  refine .ite (fun h2 => ?_) fun h2 => Legal.pure fun h => absurd h h2
  refine (legal_require (P := ∃ q, s.ready = some q ∧ q.endNs ≤ stamp) _ (passes_return fun h => ?_)).mono
    fun _ h _ => h
  split at h
  · rename_i q hq
    exact ⟨q, hq, of_decide_eq_true h⟩
  · cases h

/-! ## A message -/

/-- **An accepted message**: the place it takes, and the state behind it. -/
structure Accepted (s : State) (message : Value F) (now : ℤ) (o : Identity) (stamp : ℤ) (s' : State) : Prop where
  unfailed : s.failed = false
  head : Says s.runId s.sequence message stamp
  chronology : 0 ≤ stamp ∧ s.lastNs ≤ stamp ∧ stamp ≤ now
  owner : ∃ v, message.find? "owner" = some v ∧ Owns v o
  unchanged : s.owner = none ∨ s.owner = some o
  sample : ∃ v s₁, message.find? "sample" = some v ∧ Sampled { s with owner := some o } v stamp s₁ ∧
    (s₁.sequence = 2 → ∃ q, s₁.ready = some q ∧ q.endNs ≤ stamp) ∧ s' = s₁.advance stamp

/-- **A message is accepted as it should be, or refused**; and of what is
refused nothing but an owner is left behind. -/
theorem accept'_cases {s : State} (message : Value F) (now : ℤ)
    (hmemory : s.sequence = 4 → (∃ a, s.ackNs = some a) ∧ ∃ q, s.ready = some q) :
    (∃ o stamp s', s.accept' message now = (.ok (), s') ∧ Accepted s message now o stamp s') ∨
      ∃ reason o, s.accept' message now = (.error (.interface reason), { s with owner := o }) := by
  have hhead := legal_head s message now
  rw [State.accept']
  cases hx : s.head message now with
  | error e =>
    obtain ⟨reason, rfl⟩ := hhead.of_eq_error hx
    exact .inr ⟨reason, s.owner, rfl⟩
  | ok stamp =>
    obtain ⟨hfailed, hsaid, hpos, hlast, hnow⟩ := hhead.of_eq_ok hx
    obtain ⟨target, htarget⟩ := find?_of_hasKeys (k := "owner") hsaid.keys (by decide)
    obtain ⟨sample, hsample⟩ := find?_of_hasKeys (k := "sample") hsaid.keys (by decide)
    dsimp only
    rw [item_eq htarget]
    dsimp only
    have howner := legal_owner target
    rw [State.bind]
    cases ho : Events.owner target with
    | error e =>
      obtain ⟨reason, rfl⟩ := howner.of_eq_error ho
      exact .inr ⟨reason, s.owner, rfl⟩
    | ok o =>
      have howns := howner.of_eq_ok ho
      dsimp only
      by_cases hsame : s.owner = none ∨ s.owner = some o
      · rw [if_pos hsame]
        dsimp only
        have htail : Legal Refused (({ s with owner := some o } : State).tail message stamp) fun s' =>
            ∃ s₁, Sampled { s with owner := some o } sample stamp s₁ ∧
              (s₁.sequence = 2 → ∃ q, s₁.ready = some q ∧ q.endNs ≤ stamp) ∧ s' = s₁.advance stamp := by
          refine legal_item hsample ((legal_sampled (s := { s with owner := some o }) sample stamp hmemory).bind fun s₁ h₁ => ?_)
          exact (legal_released s₁ stamp).bind fun _ hrel => Legal.pure ⟨s₁, h₁, hrel, rfl⟩
        cases ht : ({ s with owner := some o } : State).tail message stamp with
        | error e =>
          obtain ⟨reason, rfl⟩ := htail.of_eq_error ht
          exact .inr ⟨reason, some o, rfl⟩
        | ok s' =>
          obtain ⟨s₁, h₁, hrel, rfl⟩ := htail.of_eq_ok ht
          exact .inl ⟨o, stamp, _, rfl, hfailed, hsaid, ⟨hpos, hlast, hnow⟩, ⟨target, htarget, howns⟩, hsame,
            sample, s₁, hsample, h₁, hrel, rfl⟩
      · rw [if_neg hsame]
        exact .inr ⟨_, s.owner, rfl⟩

theorem accept_cases {s : State} (message : Value F) (now : ℤ)
    (hmemory : s.sequence = 4 → (∃ a, s.ackNs = some a) ∧ ∃ q, s.ready = some q) :
    (∃ o stamp s', s.accept message now = (.ok (), s') ∧ Accepted s message now o stamp s') ∨
      ∃ reason o, s.accept message now = (.error (.interface reason), { s with owner := o, failed := true }) := by
  rw [State.accept]
  rcases accept'_cases message now hmemory with ⟨o, stamp, s', hx, hacc⟩ | ⟨reason, o, hx⟩
  · rw [hx]
    exact .inl ⟨o, stamp, s', rfl, hacc⟩
  · rw [hx]
    exact .inr ⟨reason, o, rfl⟩

/-- A failed exchange accepts nothing. -/
theorem accept_failed {s : State} (h : s.failed = true) (message : Value F) (now : ℤ) :
    s.accept message now = (.error (.interface "channel already failed"), s) := by
  have hhead : s.head message now = .error (.interface "channel already failed") := by
    rw [State.head, h]
    rfl
  have hs : { s with failed := true } = s := by rw [← h]
  rw [State.accept, State.accept', hhead]
  dsimp only
  rw [hs]

end Events

end Bench

end ZkRuntime
