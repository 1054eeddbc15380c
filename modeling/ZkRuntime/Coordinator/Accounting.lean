import ZkRuntime.Coordinator.Finalization
/-!
# The events of a session

What a session emits, over all its steps. Every attempt it publishes is
started once and finished once, by whichever of the exits of the attempt
loop it takes; an attempt is rejected where it is finished as fenced or by
its proof, and nowhere else; and `JobTerminal` goes with the one terminal
`Save` that succeeded, if there is one. `Ledger` says so of the trace of a
session, and each step keeps it.
-/

namespace ZkRuntime

namespace Coordinator

variable {isPrint : ℕ → Bool}

/-! ## Events -/

def Event.isFinished : Event → Bool
  | .attemptFinished _ => true
  | _ => false

/-- The state `JobTerminal` reports. -/
def Event.terminal? : Event → Option JobState
  | .jobTerminal st => some st
  | _ => none

/-- The step of `publishAttempt` that makes it succeed. -/
def Effect.publishes : Effect → Bool
  | .publish _ => true
  | _ => false

/-- A terminal `Save` that returned success: the state it stored. -/
def terminalSave (c : Choice) (e : Effect) : Option JobState :=
  match c, e with
  | .go, .save r true => if r.state.isTerminal then some r.state else none
  | _, _ => none

/-- An attempt is published, and not finished. -/
def Pc.attempting : Pc → Bool
  | .spawn .. | .select _ | .received .. | .fence .. | .verify .. | .accept .. | .commit .. => true
  | _ => false

/-! ## The trace of a session -/

/-- What a step of the run is for the session `sid`. -/
def takenAt (r : (coordinator isPrint).Run) (sid : SessionID) (n : ℕ) : Option (Choice × Move) :=
  match r.act n with
  | .session i c =>
    if i = sid then
      (((r.state n).sessions sid).bind fun x => x.move (r.state n) isPrint c).map fun m => (c, m)
    else none
  | _ => none

/-- **The steps of the session before `n`**, in order. -/
def trace (r : (coordinator isPrint).Run) (sid : SessionID) : ℕ → List (Choice × Move)
  | 0 => []
  | n + 1 => trace r sid n ++ (takenAt r sid n).toList

section Trace

variable (t : List (Choice × Move))

/-- The events of a trace. -/
def events : List Event := t.flatMap fun p => p.2.events

/-- The calls of `publishAttempt` that succeeded. -/
def published : ℕ := t.countP fun p => p.2.effect.publishes

/-- The terminal calls of `Save` that succeeded, with what they stored. -/
def terminalSaves : List JobState := t.filterMap fun p => terminalSave p.1 p.2.effect

end Trace

/-! ## One step -/

/-- **What a step emits**, against what it does. -/
structure Accounts (x : Session) (c : Choice) (m : Move) : Prop where
  started : m.events.count .attemptStarted = m.effect.publishes.toNat
  balance : m.events.countP Event.isFinished + (m.next.any fun x' => x'.pc.attempting).toNat =
    x.pc.attempting.toNat + m.events.count .attemptStarted
  fenced : m.events.count (.attemptRejected .fencing) = m.events.count (.attemptFinished .fenced)
  proof : m.events.count (.attemptRejected .proof) =
    m.events.count (.attemptFinished .proofRejected)
  terminal : m.events.filterMap Event.terminal? = (terminalSave c m.effect).toList
  last : terminalSave c m.effect ≠ none → ∃ x' out, m.next = some x' ∧ x'.pc = .release out

variable {s : State} {x : Session} {c : Choice} {m : Move}

/-- A step that emits nothing, and neither begins nor ends an attempt. -/
theorem accounts_of_silent (he : m.events = []) (hp : m.effect.publishes = false)
    (hs : terminalSave c m.effect = none)
    (ha : (m.next.any fun x' => x'.pc.attempting) = x.pc.attempting) : Accounts x c m := by
  refine ⟨?_, ?_, ?_, ?_, ?_, fun h => absurd hs h⟩ <;> simp [he, hp, hs, ha]

/-- A step that ends an attempt and says so once. -/
theorem accounts_of_finished {o : AttemptOutcome} {x' : Session} (he : m.events = [.attemptFinished o])
    (ho : o ≠ .fenced ∧ o ≠ .proofRejected) (hp : m.effect.publishes = false)
    (hs : terminalSave c m.effect = none) (hn : m.next = some x') (hx' : x'.pc.attempting = false)
    (hx : x.pc.attempting = true) : Accounts x c m := by
  refine ⟨?_, ?_, ?_, ?_, ?_, fun h => absurd hs h⟩ <;>
    simp [he, hp, hs, hn, hx', hx, ho, Event.isFinished, Event.terminal?]

/-- A step that ends an attempt by rejecting it. -/
theorem accounts_of_rejected {reason : AttemptRejectReason} {o : AttemptOutcome} {x' : Session}
    (he : m.events = [.attemptRejected reason, .attemptFinished o])
    (ho : (reason = .fencing ∧ o = .fenced) ∨ (reason = .proof ∧ o = .proofRejected))
    (hp : m.effect.publishes = false) (hs : terminalSave c m.effect = none)
    (hn : m.next = some x') (hx' : x'.pc.attempting = false) (hx : x.pc.attempting = true) :
    Accounts x c m := by
  rcases ho with ⟨rfl, rfl⟩ | ⟨rfl, rfl⟩ <;>
    refine ⟨?_, ?_, ?_, ?_, ?_, fun h => absurd hs h⟩ <;>
    simp [he, hp, hs, hn, hx', hx, Event.isFinished, Event.terminal?]

/-- A step that stores a terminal state, and reports it. -/
theorem accounts_of_terminal {st : JobState} {row : JobRecord} {x' : Session} {out : Outcome}
    (hc : c = .go) (he : m.effect = .save row true) (hst : row.state = st)
    (hterm : st.isTerminal = true) (hn : m.next = some x') (hx' : x'.pc = .release out)
    (hev : (m.events = [.jobTerminal st] ∧ x.pc.attempting = false) ∨
      (m.events = [.jobTerminal st, .attemptFinished (acceptedOutcome st)] ∧
        x.pc.attempting = true)) : Accounts x c m := by
  have hs : terminalSave c m.effect = some st := by simp [terminalSave, hc, he, hst, hterm]
  have hacc : acceptedOutcome st ≠ .fenced ∧ acceptedOutcome st ≠ .proofRejected := by
    cases st <;> decide
  have hp : m.effect.publishes = false := by rw [he]; rfl
  have ha : x'.pc.attempting = false := by rw [hx']; rfl
  rcases hev with ⟨hev, hx⟩ | ⟨hev, hx⟩ <;>
    refine ⟨?_, ?_, ?_, ?_, ?_, fun _ => ⟨x', out, hn, hx'⟩⟩ <;>
    simp [hev, hs, hp, hn, hx, ha, hacc, Event.isFinished, Event.terminal?]

/-- **Every step accounts for what it emits.** -/
theorem accounts_of_move (ht : Tracks s x) (hm : x.move s isPrint c = some m) :
    Accounts x c m := by
  unfold Session.move at hm
  cases hpc : x.pc <;> simp only [hpc] at hm
  case reload =>
    unfold Session.reload at hm
    (repeat' split at hm) <;> cases hm <;> exact accounts_of_silent rfl rfl rfl (by rw [hpc]; rfl)
  case readInitial =>
    unfold Session.readInitial at hm
    split at hm <;> cases hm
    exact accounts_of_silent rfl rfl rfl (by rw [hpc]; rfl)
  case enter =>
    unfold Session.enter at hm
    (repeat' split at hm) <;> cases hm <;> exact accounts_of_silent rfl rfl rfl (by rw [hpc]; rfl)
  case loop =>
    unfold Session.loop at hm
    (repeat' split at hm) <;> cases hm <;> exact accounts_of_silent rfl rfl rfl (by rw [hpc]; rfl)
  case pick =>
    unfold Session.pick at hm
    (repeat' split at hm) <;> cases hm <;> exact accounts_of_silent rfl rfl rfl (by rw [hpc]; rfl)
  case publishLoad w =>
    unfold Session.publishLoad at hm
    split at hm <;> cases hm <;> exact accounts_of_silent rfl rfl rfl (by rw [hpc]; rfl)
  case publishSave w next =>
    unfold Session.publishSave at hm
    split at hm
    · cases hm
      exact accounts_of_silent rfl rfl rfl (by rw [hpc]; rfl)
    · cases hm
      refine ⟨rfl, ?_, rfl, rfl, rfl, fun h => absurd rfl h⟩
      rw [hpc]
      rfl
    · cases hm
  case spawn w a =>
    unfold Session.spawn at hm
    split at hm <;> cases hm
    exact accounts_of_silent rfl rfl rfl (by rw [hpc]; rfl)
  case select att =>
    unfold Session.select at hm
    (repeat' split at hm) <;> cases hm
    · exact accounts_of_silent rfl rfl rfl (by rw [hpc]; rfl)
    · exact accounts_of_finished rfl (by decide) rfl rfl rfl rfl (by rw [hpc]; rfl)
    · exact accounts_of_finished rfl (by decide) rfl rfl rfl rfl (by rw [hpc]; rfl)
  case received att res =>
    unfold Session.received at hm
    (repeat' split at hm) <;> cases hm
    · exact accounts_of_finished rfl (by decide) rfl rfl rfl rfl (by rw [hpc]; rfl)
    · exact accounts_of_finished rfl (by decide) rfl rfl rfl rfl (by rw [hpc]; rfl)
    · exact accounts_of_silent rfl rfl rfl (by rw [hpc]; rfl)
  case fence att resp =>
    unfold Session.fence at hm
    (repeat' split at hm) <;> cases hm
    · exact accounts_of_rejected rfl (.inl ⟨rfl, rfl⟩) rfl rfl rfl rfl (by rw [hpc]; rfl)
    · exact accounts_of_rejected rfl (.inl ⟨rfl, rfl⟩) rfl rfl rfl rfl (by rw [hpc]; rfl)
    · exact accounts_of_finished rfl (by decide) rfl rfl rfl rfl (by rw [hpc]; rfl)
    · exact accounts_of_silent rfl rfl rfl (by rw [hpc]; rfl)
  case verify att resp st =>
    unfold Session.verify at hm
    (repeat' split at hm) <;> cases hm
    · exact accounts_of_rejected rfl (.inr ⟨rfl, rfl⟩) rfl rfl rfl rfl (by rw [hpc]; rfl)
    · exact accounts_of_silent rfl rfl rfl (by rw [hpc]; rfl)
    · exact accounts_of_silent rfl rfl rfl (by rw [hpc]; rfl)
  case accept att resp st =>
    unfold Session.accept at hm
    (repeat' split at hm) <;> cases hm
    · exact accounts_of_finished rfl (by decide) rfl rfl rfl rfl (by rw [hpc]; rfl)
    · exact accounts_of_silent rfl rfl rfl (by rw [hpc]; rfl)
    · exact accounts_of_rejected rfl (.inl ⟨rfl, rfl⟩) rfl rfl rfl rfl (by rw [hpc]; rfl)
  case commit att resp st =>
    -- The status was one `jobStateFromStatus` knows, so the state is terminal.
    have hterm : st.isTerminal = true := by
      simp only [Tracks, hpc] at ht
      rcases terminal_of_status ht.2.2.status with rfl | rfl | rfl <;> rfl
    unfold Session.commit at hm
    split at hm <;> cases hm
    · exact accounts_of_finished rfl (by decide) rfl rfl rfl rfl (by rw [hpc]; rfl)
    · exact accounts_of_terminal rfl rfl rfl hterm rfl rfl (.inr ⟨rfl, by rw [hpc]; rfl⟩)
  case exhausted =>
    unfold Session.exhausted at hm
    (repeat' split at hm) <;> cases hm <;> exact accounts_of_silent rfl rfl rfl (by rw [hpc]; rfl)
  case failed e =>
    unfold Session.failed at hm
    dsimp only at hm
    (repeat' split at hm) <;> cases hm <;> exact accounts_of_silent rfl rfl rfl (by rw [hpc]; rfl)
  case failLoad a cause =>
    unfold Session.failLoad at hm
    (repeat' split at hm) <;> cases hm <;> exact accounts_of_silent rfl rfl rfl (by rw [hpc]; rfl)
  case failCheck a cause current =>
    unfold Session.failCheck at hm
    (repeat' split at hm) <;> cases hm <;> exact accounts_of_silent rfl rfl rfl (by rw [hpc]; rfl)
  case failSave a cause current =>
    unfold Session.failSave at hm
    split at hm <;> cases hm
    · exact accounts_of_silent rfl rfl rfl (by rw [hpc]; rfl)
    · exact accounts_of_terminal rfl rfl rfl rfl rfl rfl (.inl ⟨rfl, by rw [hpc]; rfl⟩)
  case cancelCheck e =>
    unfold Session.cancelCheck at hm
    (repeat' split at hm) <;> cases hm <;> exact accounts_of_silent rfl rfl rfl (by rw [hpc]; rfl)
  case cancelLoad e =>
    unfold Session.cancelLoad at hm
    (repeat' split at hm) <;> cases hm <;> exact accounts_of_silent rfl rfl rfl (by rw [hpc]; rfl)
  case cancelSave e current =>
    unfold Session.cancelSave at hm
    split at hm <;> cases hm
    · exact accounts_of_silent rfl rfl rfl (by rw [hpc]; rfl)
    · exact accounts_of_terminal rfl rfl rfl rfl rfl rfl (.inl ⟨rfl, by rw [hpc]; rfl⟩)
  case repairLoad e a =>
    unfold Session.repairLoad at hm
    (repeat' split at hm) <;> cases hm <;> exact accounts_of_silent rfl rfl rfl (by rw [hpc]; rfl)
  case repairSave e current =>
    unfold Session.repairSave at hm
    split at hm <;> cases hm
    · exact accounts_of_silent rfl rfl rfl (by rw [hpc]; rfl)
    · exact accounts_of_silent rfl rfl rfl (by rw [hpc]; rfl)
  case release out =>
    unfold Session.release at hm
    split at hm <;> cases hm
    exact accounts_of_silent rfl rfl rfl (by rw [hpc]; rfl)

/-! ## All steps of a session -/

/-- **The books of a session**, with an attempt under way or not. -/
structure Ledger (t : List (Choice × Move)) (under : Bool) : Prop where
  started : (events t).count .attemptStarted = published t
  balance : (events t).countP Event.isFinished + under.toNat = published t
  fenced : (events t).count (.attemptRejected .fencing) =
    (events t).count (.attemptFinished .fenced)
  proof : (events t).count (.attemptRejected .proof) =
    (events t).count (.attemptFinished .proofRejected)
  terminal : (events t).filterMap Event.terminal? = terminalSaves t

variable {t : List (Choice × Move)}

theorem events_concat : events (t ++ [(c, m)]) = events t ++ m.events := by
  simp [events]

theorem published_concat : published (t ++ [(c, m)]) = published t + m.effect.publishes.toNat := by
  cases h : m.effect.publishes <;> simp [published, h]

theorem terminalSaves_concat :
    terminalSaves (t ++ [(c, m)]) = terminalSaves t ++ (terminalSave c m.effect).toList := by
  cases h : terminalSave c m.effect <;> simp [terminalSaves, h]

theorem ledger_nil : Ledger [] false := ⟨rfl, rfl, rfl, rfl, rfl⟩

/-- **A step keeps the books.** -/
theorem Ledger.concat (h : Ledger t x.pc.attempting) (ha : Accounts x c m) :
    Ledger (t ++ [(c, m)]) (m.next.any fun x' => x'.pc.attempting) := by
  have hs := ha.started
  have hb := ha.balance
  have h1 := h.started
  have h2 := h.balance
  refine ⟨?_, ?_, ?_, ?_, ?_⟩
  · rw [events_concat, published_concat, List.count_append]
    omega
  · rw [events_concat, published_concat, List.countP_append]
    omega
  · rw [events_concat, List.count_append, List.count_append, h.fenced, ha.fenced]
  · rw [events_concat, List.count_append, List.count_append, h.proof, ha.proof]
  · rw [events_concat, terminalSaves_concat, List.filterMap_append, h.terminal, ha.terminal]

variable {r : (coordinator isPrint).Run} {sid : SessionID} {n : ℕ}

theorem trace_of_takes (ht : TakesAt r n sid x c m) :
    trace r sid (n + 1) = trace r sid n ++ [(c, m)] := by
  simp [trace, takenAt, ht.act, ht.took.live, ht.took.move]

theorem trace_of_other (h : ∀ c, r.act n ≠ .session sid c) : trace r sid (n + 1) = trace r sid n := by
  have hnone : takenAt r sid n = none := by
    unfold takenAt
    split
    · rename_i i c ha
      rw [if_neg]
      rintro rfl
      exact h c ha
    · rfl
  simp [trace, hnone]

/-- **The session and its books.** -/
structure Booked (r : (coordinator isPrint).Run) (sid : SessionID) (n : ℕ) (under : Bool) :
    Prop where
  ledger : Ledger (trace r sid n) under
  once : (terminalSaves (trace r sid n)).length ≤ 1
  live : ∀ x, (r.state n).sessions sid = some x → under = x.pc.attempting ∧
    (terminalSaves (trace r sid n) ≠ [] → ∃ out, x.pc = .release out)
  unborn : (r.state n).nextSession ≤ sid → trace r sid n = []

/-- A session that is about to release its job does nothing else. -/
theorem last_of_release (h : ∃ out, x.pc = .release out) (hm : x.move s isPrint c = some m) :
    m.next = none ∧ terminalSave c m.effect = none := by
  obtain ⟨out, hpc⟩ := h
  simp only [Session.move, hpc] at hm
  unfold Session.release at hm
  split at hm <;> cases hm
  exact ⟨rfl, rfl⟩

/-- **The books are kept over a whole run.** -/
theorem booked (r : (coordinator isPrint).Run) (sid : SessionID) (n : ℕ) :
    ∃ under, Booked r sid n under := by
  induction n with
  | zero =>
    refine ⟨false, ledger_nil, Nat.zero_le _, fun x hx => ?_, fun _ => rfl⟩
    have hs : r.state 0 = (r.state 0).restart .down (r.state 0).config := r.start
    rw [hs] at hx
    cases hx
  | succ n ih =>
    obtain ⟨under, hb⟩ := ih
    by_cases hact : ∃ c, r.act n = .session sid c
    · -- The session's own step.
      obtain ⟨c, hact⟩ := hact
      obtain ⟨x, m, ht⟩ := takesAt_of_act r hact
      obtain ⟨rfl, hover⟩ := hb.live x ht.took.live
      have hacc := accounts_of_move ((tracked r n).tracks ht.took.live) ht.took.move
      refine ⟨m.next.any fun x' => x'.pc.attempting, ?_, ?_, fun x' hx' => ?_, fun hle => ?_⟩
      · rw [trace_of_takes ht]
        exact hb.ledger.concat hacc
      · rw [trace_of_takes ht, terminalSaves_concat, List.length_append]
        by_cases hs : terminalSaves (trace r sid n) = []
        · rw [hs]
          cases terminalSave c m.effect <;> simp
        · rw [(last_of_release (hover hs) ht.took.move).2]
          simpa using hb.once
      · rw [ht.sessions_eq] at hx'
        refine ⟨by simp [hx'], fun hne => ?_⟩
        rw [trace_of_takes ht, terminalSaves_concat] at hne
        by_cases hs : terminalSaves (trace r sid n) = []
        · have hsave : terminalSave c m.effect ≠ none := by
            intro hnone
            simp [hs, hnone] at hne
          obtain ⟨y, out, hy, hpc⟩ := hacc.last hsave
          rw [hx'] at hy
          cases hy
          exact ⟨out, hpc⟩
        · rw [(last_of_release (hover hs) ht.took.move).1] at hx'
          cases hx'
      · have hfresh := (tracked r n).owned.fresh ht.took.live
        have hmono := nextSession_le (steps_of_step (r.next n))
        exact absurd hle (Nat.not_le.2 (Nat.lt_of_lt_of_le hfresh hmono))
    · -- A step of others: the session is as it was, or begins.
      have hact' : ∀ c, r.act n ≠ .session sid c := fun c hc => hact ⟨c, hc⟩
      have htrace := trace_of_other hact'
      refine ⟨under, by rw [htrace]; exact hb.ledger, by rw [htrace]; exact hb.once,
        fun x' hx' => ?_, fun hle => ?_⟩
      · rcases session_before (steps_of_step (r.next n)) hx' with
          ⟨x, hx, hidle⟩ | ⟨x, c, m, hc, -⟩ | ⟨hbegin, -, hsid, -⟩
        · rw [htrace, hidle.pc]
          exact hb.live x hx
        · exact absurd hc (hact' c)
        · have hnil := hb.unborn (Nat.le_of_eq hsid.symm)
          have hunder : under = false := by
            have hbal := hb.ledger.balance
            rw [hnil] at hbal
            cases under with
            | false => rfl
            | true => simp [events, published] at hbal
          rw [htrace, hnil, hunder]
          refine ⟨?_, fun h => absurd rfl h⟩
          generalize r.act n = a at hbegin
          cases hbegin <;> rfl
      · rw [htrace]
        exact hb.unborn (Nat.le_trans (nextSession_le (steps_of_step (r.next n))) hle)

/-- A session that is gone does nothing more. -/
theorem trace_of_gone (hgone : (r.state n).sessions sid = none)
    (hsid : sid < (r.state n).nextSession) {m : ℕ} (hnm : n ≤ m) :
    trace r sid m = trace r sid n := by
  have hstay : ∀ d, (r.state (n + d)).sessions sid = none ∧
      sid < (r.state (n + d)).nextSession ∧ trace r sid (n + d) = trace r sid n := by
    intro d
    induction d with
    | zero => exact ⟨hgone, hsid, rfl⟩
    | succ d ih =>
      obtain ⟨hnone, hlt, htrace⟩ := ih
      have hs := steps_of_step (r.next (n + d))
      have hother : ∀ c, r.act (n + d) ≠ .session sid c := by
        intro c hc
        obtain ⟨x, m, ht⟩ := takesAt_of_act r hc
        rw [ht.took.live] at hnone
        cases hnone
      refine ⟨?_, Nat.lt_of_lt_of_le hlt (nextSession_le hs), ?_⟩
      · by_contra hsome
        obtain ⟨x', hx'⟩ := Option.ne_none_iff_exists'.1 hsome
        rcases session_before hs hx' with ⟨x, hx, -⟩ | ⟨x, c, m, hc, -⟩ | ⟨-, -, heq, -⟩
        · rw [hx] at hnone
          cases hnone
        · exact hother c hc
        · exact absurd hlt (by rw [heq]; exact Nat.lt_irrefl _)
      · exact (trace_of_other hother).trans htrace
  have h := (hstay (m - n)).2.2
  rwa [Nat.add_sub_cancel' hnm] at h

/-- **Behind its release** a session has finished what it started, for good. -/
theorem ReleasesAt.balanced {out : Outcome} (h : ReleasesAt r n sid x out) {m : ℕ} (hnm : n < m) :
    (events (trace r sid m)).countP Event.isFinished =
      (events (trace r sid m)).count .attemptStarted := by
  obtain ⟨mv, ht⟩ := h.takes
  obtain ⟨under, hb⟩ := booked r sid n
  obtain ⟨rfl, -⟩ := hb.live x ht.took.live
  have hacc := accounts_of_move ((tracked r n).tracks ht.took.live) ht.took.move
  have hnone := (last_of_release ⟨out, h.pc⟩ ht.took.move).1
  have hgone : (r.state (n + 1)).sessions sid = none := ht.sessions_eq.trans hnone
  have hfresh : sid < (r.state (n + 1)).nextSession :=
    Nat.lt_of_lt_of_le ((tracked r n).owned.fresh ht.took.live)
      (nextSession_le (steps_of_step (r.next n)))
  rw [trace_of_gone hgone hfresh hnm]
  have hl := hb.ledger.concat hacc
  rw [← trace_of_takes ht, hnone] at hl
  have hbal := hl.balance
  rw [hl.started, ← hbal]
  simp

/-- **One attempt is finished once**: from its publication to where no
attempt is under way again. -/
theorem finished_once {p : Choice × Move} {k : ℕ} (hk : takenAt r sid k = some p)
    (hp : p.2.effect.publishes = true)
    (hpub : published (trace r sid n) = published (trace r sid (k + 1)))
    (hx : (r.state n).sessions sid = some x) (hidle : x.pc.attempting = false) :
    (events (trace r sid n)).countP Event.isFinished =
      (events (trace r sid k)).countP Event.isFinished + 1 := by
  have hact : ∃ c, r.act k = .session sid c := by
    by_contra hno
    have hlen := congrArg List.length (trace_of_other fun c hc => hno ⟨c, hc⟩)
    simp [trace, hk] at hlen
  obtain ⟨c, hact⟩ := hact
  obtain ⟨y, m, ht⟩ := takesAt_of_act r hact
  have hpm : p = (c, m) := by
    simpa [takenAt, ht.act, ht.took.live, ht.took.move] using hk.symm
  subst hpm
  -- Before its publication the session has no attempt under way.
  obtain ⟨under, hb⟩ := booked r sid k
  obtain ⟨under', hb'⟩ := booked r sid n
  obtain ⟨rfl, -⟩ := hb.live y ht.took.live
  obtain ⟨rfl, -⟩ := hb'.live x hx
  have hy : y.pc.attempting = false := by
    have hmoves := ht.took.moves
    generalize m.effect = e at hmoves hp
    generalize m.next = next at hmoves
    cases hmoves with
    | published h => rw [h]; rfl
    | _ => cases hp
  have h1 := hb.ledger.balance
  have h2 := hb'.ledger.balance
  have h3 : published (trace r sid (k + 1)) = published (trace r sid k) + 1 := by
    rw [trace_of_takes ht, published_concat, hp]
    rfl
  rw [hy] at h1
  rw [hidle] at h2
  simp only [Bool.toNat_false, Nat.add_zero] at h1 h2
  omega

/-- **The accounts of a session**: it starts as many attempts as its calls of
`publishAttempt` succeeded; behind its release it has finished as many, and
each once; a step rejects an attempt exactly where it finishes it as fenced
or by its proof; and `JobTerminal` reports the terminal calls of `Save` that
succeeded, with what they stored, and there is at most one. -/
theorem accounting (r : (coordinator isPrint).Run) (sid : SessionID) :
    (∀ n, (events (trace r sid n)).count .attemptStarted = published (trace r sid n)) ∧
    (∀ n m x out, ReleasesAt r n sid x out → n < m →
      (events (trace r sid m)).countP Event.isFinished =
        (events (trace r sid m)).count .attemptStarted) ∧
    (∀ k n p x, takenAt r sid k = some p → p.2.effect.publishes = true →
      published (trace r sid n) = published (trace r sid (k + 1)) →
      (r.state n).sessions sid = some x → x.pc.attempting = false →
      (events (trace r sid n)).countP Event.isFinished =
        (events (trace r sid k)).countP Event.isFinished + 1) ∧
    (∀ n c m, takenAt r sid n = some (c, m) →
      m.events.count (.attemptRejected .fencing) = m.events.count (.attemptFinished .fenced) ∧
      m.events.count (.attemptRejected .proof) = m.events.count (.attemptFinished .proofRejected)) ∧
    ∀ n, (events (trace r sid n)).filterMap Event.terminal? = terminalSaves (trace r sid n) ∧
      (terminalSaves (trace r sid n)).length ≤ 1 := by
  refine ⟨fun n => ?_, fun n m x out h hnm => h.balanced hnm,
    fun k n p x hk hp hpub hx hidle => finished_once hk hp hpub hx hidle, fun n c m hm => ?_,
    fun n => ?_⟩
  · obtain ⟨under, hb⟩ := booked r sid n
    exact hb.ledger.started
  · have hmove : ∃ x, (r.state n).sessions sid = some x ∧ x.move (r.state n) isPrint c = some m := by
      unfold takenAt at hm
      split at hm
      · split at hm
        · obtain ⟨m', hm', heq⟩ := Option.map_eq_some_iff.1 hm
          cases heq
          exact Option.bind_eq_some_iff.1 hm'
        · cases hm
      · cases hm
    obtain ⟨x, hx, hmv⟩ := hmove
    have hacc := accounts_of_move ((tracked r n).tracks hx) hmv
    exact ⟨hacc.fenced, hacc.proof⟩
  · obtain ⟨under, hb⟩ := booked r sid n
    exact ⟨hb.ledger.terminal, hb.once⟩

theorem accounting_retry : ∃ (r : (coordinator asciiPrint).Run) (x : Session) (out : Outcome),
    ReleasesAt r 28 0 x out ∧ published (trace r 0 (28 + 1)) = 2 ∧
      (events (trace r 0 (28 + 1))).countP Event.isFinished = 2 ∧
      (events (trace r 0 (28 + 1))).filterMap Event.terminal? = [.succeeded] := by
  obtain ⟨x, m, ht, hpc, -⟩ := takesAt_scripted plays_retryScript 28 0 .go
    (.release (.accepted ⟨exampleWorker, 2, 1, 5000000000⟩
      ⟨7, ascii "SUCCEEDED", ascii "ok", [], 2⟩)) exampleSpec rfl (by decide +kernel)
  have hpub : published (trace (scripted _ _ plays_retryScript) 0 (28 + 1)) = 2 := by
    decide +kernel
  have hsave : terminalSaves (trace (scripted _ _ plays_retryScript) 0 (28 + 1)) =
      [.succeeded] := by decide +kernel
  obtain ⟨hstart, hbal, -, -, hterm⟩ := accounting (scripted _ _ plays_retryScript) 0
  have hfin := hbal 28 (28 + 1) x _ ⟨⟨m, ht⟩, hpc⟩ (Nat.lt_succ_self 28)
  rw [hstart, hpub] at hfin
  exact ⟨_, x, _, ⟨⟨m, ht⟩, hpc⟩, hpub, hfin, (hterm (28 + 1)).1.trans hsave⟩

end Coordinator

end ZkRuntime
