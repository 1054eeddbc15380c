import ZkRuntime.Coordinator.Helpers.StoreLaw
/-!
# Where a session came from and where it goes

A live session was just begun, or took this step, or did not; and from its
place in a state of a run the step that brought it there can be recovered.
-/

namespace ZkRuntime

namespace Coordinator

variable {isPrint : ℕ → Bool} {s s' : State} {a : Action} {sid : SessionID} {x x' : Session}

/-- The session did not take this step; its context may have ended by it. -/
structure Idle (x x' : Session) : Prop where
  eq : x' = { x with ctxErr := x'.ctxErr }
  ended : x.ctxErr ≠ none → x'.ctxErr = x.ctxErr

/-- The session took this step. -/
structure Took (isPrint : ℕ → Bool) (s s' : State) (sid : SessionID) (x : Session) (c : Choice)
    (m : Move) : Prop where
  live : s.sessions sid = some x
  move : x.move s isPrint c = some m
  eq : s' = s.advance sid x m

theorem Took.moves {c : Choice} {m : Move} (h : Took isPrint s s' sid x c m) :
    Moves isPrint s x c m.effect m.next := moves_of_move h.move

theorem idle_rfl : Idle x x := ⟨rfl, fun _ => rfl⟩

theorem Idle.pc (h : Idle x x') : x'.pc = x.pc := by rw [h.eq]

theorem Idle.spec (h : Idle x x') : x'.spec = x.spec := by rw [h.eq]

theorem Idle.jobID (h : Idle x x') : x'.jobID = x.jobID := by rw [Session.jobID, h.spec]; rfl

theorem Idle.source (h : Idle x x') : x'.source = x.source := by rw [h.eq]

theorem Idle.lastPublished (h : Idle x x') : x'.lastPublished = x.lastPublished := by rw [h.eq]

/-- A session as it begins. -/
inductive Begins (isPrint : ℕ → Bool) : Action → Session → Prop
  | submit {req : SubmitJobRequest} {spec : JobSpec}
      (hv : validateJobSpec (jobSpecFromRequest req) = .ok spec) :
      Begins isPrint (.submit req none) (State.submitSession req spec)
  | recover {snapshot : JobRecord} {ctxErr : Option ContextError} :
      Begins isPrint (.recover snapshot ctxErr) (State.recoverySession isPrint snapshot ctxErr)

/-- **Where a live session was before a step.** -/
theorem session_before (hs : Steps isPrint s a s') (hx' : s'.sessions sid = some x') :
    (∃ x, s.sessions sid = some x ∧ Idle x x') ∨
      (∃ x c m, a = .session sid c ∧ Took isPrint s s' sid x c m ∧ m.next = some x') ∨
      (Begins isPrint a x' ∧ s' = s.claim x' ∧ sid = s.nextSession ∧ x'.jobID ∉ s.activeJobs) := by
  have hclaim : ∀ {y}, (s.claim y).sessions sid = some x' → y.jobID ∉ s.activeJobs →
      (∃ x, s.sessions sid = some x ∧ Idle x x') ∨
        (x' = y ∧ sid = s.nextSession ∧ y.jobID ∉ s.activeJobs) := by
    intro y hy hj
    simp only [State.claim] at hy
    by_cases hi : sid = s.nextSession
    · subst hi
      rw [Function.update_self] at hy
      cases hy
      exact .inr ⟨rfl, rfl, hj⟩
    · rw [Function.update_of_ne hi] at hy
      exact .inl ⟨_, hy, idle_rfl⟩
  cases hs with
  | stopped => simp [State.restart] at hx'
  | booted cfg => simp [State.restart] at hx'
  | mark_fails hp => simp [State.restart] at hx'
  | submitted _ _ _ hv hj =>
    rcases hclaim hx' hj with h | ⟨rfl, h1, h2⟩
    · exact .inl h
    · exact .inr (.inr ⟨.submit hv, rfl, h1, h2⟩)
  | recovered _ _ _ hj =>
    rcases hclaim hx' hj with h | ⟨rfl, h1, h2⟩
    · exact .inl h
    · exact .inr (.inr ⟨.recover, rfl, h1, h2⟩)
  | @cancelled i e y hy hctx =>
    dsimp only at hx'
    by_cases hi : sid = i
    · subst hi
      rw [Function.update_self] at hx'
      cases hx'
      exact .inl ⟨y, hy, rfl, fun h => absurd hctx h⟩
    · rw [Function.update_of_ne hi] at hx'
      exact .inl ⟨_, hx', idle_rfl⟩
  | @session i c y m hy hmu hm =>
    rcases sessions_advance hx' with ⟨rfl, hn⟩ | ⟨-, hx⟩
    · exact .inr (.inl ⟨y, c, m, rfl, ⟨hy, hm, rfl⟩, hn⟩)
    · exact .inl ⟨_, hx, idle_rfl⟩
  | _ => exact .inl ⟨_, hx', idle_rfl⟩

/-- **Where a live session is after a step**, unless its process is gone. -/
theorem session_after (ht : Tracked s) (hs : Steps isPrint s a s') (hx : s.sessions sid = some x) :
    (∃ c m, a = .session sid c ∧ Took isPrint s s' sid x c m) ∨
      (∃ x', s'.sessions sid = some x' ∧ Idle x x' ∧ a.session? ≠ some sid) ∨
      a.running = false := by
  have hclaim : ∀ y, (s.claim y).sessions sid = some x := fun y => by
    have hne : sid ≠ s.nextSession := Nat.ne_of_lt (ht.owned.fresh hx)
    simp [State.claim, Function.update_of_ne hne, hx]
  cases hs with
  | stopped ha => exact .inr (.inr (Action.running_of_stops ha))
  | booted cfg => exact .inr (.inr rfl)
  | mark_fails hp => exact .inr (.inr rfl)
  | submitted => exact .inr (.inl ⟨x, hclaim _, idle_rfl, by simp [Action.session?]⟩)
  | recovered => exact .inr (.inl ⟨x, hclaim _, idle_rfl, by simp [Action.session?]⟩)
  | registry r ha => exact .inr (.inl ⟨x, hx, idle_rfl, by simp [ha]⟩)
  | refused ha => exact .inr (.inl ⟨x, hx, idle_rfl, by simp [ha]⟩)
  | @cancelled i e y hy hctx =>
    by_cases hi : sid = i
    · subst hi
      rw [hx] at hy
      cases hy
      exact .inr (.inl ⟨_, Function.update_self _ _ _, ⟨rfl, fun h => absurd hctx h⟩,
        by simp [Action.session?]⟩)
    · exact .inr (.inl ⟨x, by simp [Function.update_of_ne hi, hx], idle_rfl,
        by simp [Action.session?]⟩)
  | @session i c y m hy hmu hm =>
    by_cases hi : sid = i
    · subst hi
      rw [hx] at hy
      cases hy
      exact .inl ⟨c, m, rfl, hx, hm, rfl⟩
    · exact .inr (.inl ⟨x, by rw [sessions_advance_of_ne hi]; exact hx, idle_rfl,
        by simpa [Action.session?] using fun h => hi h.symm⟩)
  | _ => exact .inr (.inl ⟨x, hx, idle_rfl, by simp [Action.session?]⟩)

/-! ## Over a run -/

variable (r : (coordinator isPrint).Run)

/-- The session `sid` takes the step `m` of the run, from `x`. -/
structure TakesAt (n : ℕ) (sid : SessionID) (x : Session) (c : Choice) (m : Move) : Prop where
  act : r.act n = .session sid c
  took : Took isPrint (r.state n) (r.state (n + 1)) sid x c m

theorem takesAt_of_act {n : ℕ} {sid : SessionID} {c : Choice} (h : r.act n = .session sid c) :
    ∃ x m, TakesAt r n sid x c m := by
  have hs := steps_of_step (r.next n)
  rw [h] at hs
  generalize hn : r.state (n + 1) = s' at hs
  cases hs with
  | stopped ha => simp [Action.stops] at ha
  | registry _ ha => simp [Action.session?] at ha
  | refused ha => simp [Action.session?] at ha
  | session hx hmu hm => exact ⟨_, _, h, hx, hm, hn⟩

variable {r} in
/-- Behind its step the session is what the step left. -/
theorem TakesAt.sessions_eq {n : ℕ} {c : Choice} {m : Move} (ht : TakesAt r n sid x c m) :
    (r.state (n + 1)).sessions sid = m.next := by
  rw [ht.took.eq, sessions_advance_self]

/-- A property of a session that its context has no part in. -/
def Contextless (Q : Session → Prop) : Prop := ∀ x ctx, Q { x with ctxErr := ctx } ↔ Q x

theorem Contextless.idle {Q : Session → Prop} (hQ : Contextless Q) (h : Idle x x') :
    Q x' ↔ Q x := by
  rw [h.eq]
  exact hQ x _

/-- **The step that brought a session where it is.** -/
theorem exists_move {Q : Session → Prop} (hQ : Contextless Q)
    (h0 : ∀ a x, Begins isPrint a x → ¬ Q x) {n : ℕ} (hx : (r.state n).sessions sid = some x)
    (hq : Q x) :
    ∃ k y c m y', k < n ∧ TakesAt r k sid y c m ∧ m.next = some y' ∧ ¬ Q y ∧ Q y' ∧
      ∀ l, k < l → l ≤ n → ∃ z, (r.state l).sessions sid = some z ∧ Q z := by
  have hP : ∃ z, (r.state n).sessions sid = some z ∧ Q z := ⟨x, hx, hq⟩
  obtain ⟨k, hkn, hk, hl⟩ := r.exists_entry (P := fun s => ∃ z, s.sessions sid = some z ∧ Q z)
    (fun s hs => by
      have hs' : s = s.restart .down s.config := hs
      rw [hs']
      simp [State.restart]) hP
  obtain ⟨y', hy', hqy'⟩ := hl (k + 1) (by omega) (by omega)
  rcases session_before (steps_of_step (r.next k)) hy' with
    ⟨y, hy, hidle⟩ | ⟨y, c, m, ha, htook, hn⟩ | ⟨hb, -⟩
  · exact absurd ⟨y, hy, (hQ.idle hidle).1 hqy'⟩ hk
  · exact ⟨k, y, c, m, y', hkn, ⟨ha, htook⟩, hn, fun hqy => hk ⟨y, htook.live, hqy⟩, hqy', hl⟩
  · exact absurd hqy' (h0 _ _ hb)

/-- The numbers of sessions are not given out again. -/
theorem nextSession_le (hs : Steps isPrint s a s') : s.nextSession ≤ s'.nextSession := by
  cases hs with
  | submitted => exact Nat.le_succ _
  | recovered => exact Nat.le_succ _
  | session => exact Nat.le_of_eq nextSession_advance.symm
  | _ => exact Nat.le_refl _

/-- **What a session keeps.** A property its own steps keep is not lost as
long as it lives. -/
theorem persists {Q : Session → Prop} (hQ : Contextless Q)
    (hmove : ∀ l y c m y', TakesAt r l sid y c m → m.next = some y' → Q y → Q y') {k n : ℕ}
    (hkn : k ≤ n) (hx : (r.state k).sessions sid = some x) (hq : Q x)
    (hx' : (r.state n).sessions sid = some x') : Q x' := by
  have hfresh : ∀ l, k ≤ l → sid < (r.state l).nextSession := by
    intro l hl
    have hle := r.rel_of_le (R := fun s s' => s.nextSession ≤ s'.nextSession)
      (fun _ => Nat.le_refl _) (fun _ _ _ => Nat.le_trans)
      (fun n => nextSession_le (steps_of_step (r.next n))) hl
    exact Nat.lt_of_lt_of_le ((tracked r k).owned.fresh hx) hle
  induction n generalizing x' with
  | zero =>
    obtain rfl : k = 0 := by omega
    rw [hx] at hx'
    exact Option.some.inj hx' ▸ hq
  | succ n ih =>
    rcases Nat.lt_or_ge n k with hlt | hge
    · obtain rfl : k = n + 1 := by omega
      rw [hx] at hx'
      exact Option.some.inj hx' ▸ hq
    · rcases session_before (steps_of_step (r.next n)) hx' with
        ⟨y, hy, hidle⟩ | ⟨y, c, m, ha, htook, hnext⟩ | ⟨-, -, heq, -⟩
      · exact (hQ.idle hidle).2 (ih hge hy)
      · exact hmove n y c m x' ⟨ha, htook⟩ hnext (ih hge htook.live)
      · exact absurd (hfresh n hge) (by rw [heq]; exact Nat.lt_irrefl _)

/-! ## Calls of `Save` -/

/-- **The step `n` calls `Save` with the record**, whatever comes of it. -/
inductive SaveCall (n : ℕ) : JobRecord → Prop
  | session {sid : SessionID} {x : Session} {c : Choice} {m : Move} {row : JobRecord}
      (ht : TakesAt r n sid x c m) (he : m.effect.record? = some row) : SaveCall n row
  | startup {c : Choice} {row : JobRecord} {rows : List JobRecord} {spec : JobSpec}
      (ha : r.act n = .markRecovering c) (hp : (r.state n).phase = .marking (row :: rows))
      (hv : validateJobSpec (jobSpecFromRecord row) = .ok spec) :
      SaveCall n (State.recoveringRow row spec)

variable {r}

/-- What a session saves, it writes over what is stored. -/
theorem TakesAt.writes {n : ℕ} {c : Choice} {m : Move} {row : JobRecord}
    (ht : TakesAt r n sid x c m) (he : m.effect.record? = some row) : Writes (r.state n) x row :=
  ht.took.moves.writes ((tracked r n).tracks ht.took.live) he

/-- A row changes by a `Save` of its new record. -/
theorem load_of_saveCall (r : (coordinator isPrint).Run) (n : ℕ) (j : JobID) :
    (r.state (n + 1)).store.load j = (r.state n).store.load j ∨
      ∃ row, SaveCall r n row ∧ row.jobID = j ∧ (r.state (n + 1)).store.load j = some row := by
  have hs := steps_of_step (r.next n)
  have hmark : ∀ {row rows spec} {st : Store}, validateJobSpec (jobSpecFromRecord row) = .ok spec →
      (r.state n).phase = .marking (row :: rows) → (∃ c, r.act n = .markRecovering c) →
      st = (r.state n).store.save (State.recoveringRow row spec) →
      st.load j = (r.state n).store.load j ∨
        ∃ row', SaveCall r n row' ∧ row'.jobID = j ∧ st.load j = some row' := by
    rintro row rows spec st hv hp ⟨c, ha⟩ rfl
    by_cases hj : j = (State.recoveringRow row spec).jobID
    · subst hj
      exact .inr ⟨_, .startup ha hp hv, rfl, Store.load_save_self _ (State.recoveringRow row spec)⟩
    · exact .inl (Store.load_save_of_ne hj)
  generalize hn : r.state (n + 1) = s' at hs
  generalize ha : r.act n = act at hs
  cases hs with
  | marked hp hv => exact hmark hv hp ⟨_, ha⟩ rfl
  | mark_fails hp hv => exact hmark hv hp ⟨_, ha⟩ rfl
  | @session sid c x m hx hmu hm =>
    have ht : TakesAt r n sid x c m := ⟨ha, hx, hm, hn⟩
    rcases load_apply (s := r.state n) (e := m.effect) (j := x.jobID) (k := j) with
      h | ⟨row, he, rfl, h⟩
    · exact .inl h
    · exact .inr ⟨row, .session ht he, rfl, h⟩
  | _ => exact .inl rfl

end Coordinator

end ZkRuntime
