import ZkRuntime.Common.Count
import ZkRuntime.Worker.Model.Proving
/-!
# Proving capacity

The values in the limiter's channel are the calls between their
`TryAcquire` and their return (`Sound`), whatever becomes of their contexts:
so no more than the capacity prove at once, `Release` always finds a value
to receive, and a call is refused only where every slot is taken. A call
never comes back to a place it has left (`Pc.rank`), and so it acquires and
releases once.
-/

namespace ZkRuntime

namespace Worker

open Coordinator (ContextError)

/-- From behind `TryAcquire` to the return. -/
def Pc.inside : Pc → Bool
  | .acquired .. | .proving .. | .encode _ | .finish _ | .release _ => true
  | _ => false

/-- `Prove` is in progress. -/
def Pc.isProving : Pc → Bool
  | .proving .. => true
  | _ => false

/-- The place touches the limiter. -/
def Pc.usesLimiter : Pc → Bool
  | .acquire .. | .release _ => true
  | _ => false

/-- The places in the order of the source. -/
def Pc.rank : Pc → ℕ
  | .parse => 0
  | .witness .. => 1
  | .select .. => 2
  | .acquire .. => 3
  | .acquired .. => 4
  | .proving .. => 5
  | .encode _ => 6
  | .finish _ => 7
  | .release _ => 8
  | .returned _ => 9

/-- **The call has a slot.** -/
def Execution.holds (x : Execution) : Bool := x.task.limited && x.pc.inside

/-- **The call is in `Prove`**, and under the limiter. -/
def Execution.proves (x : Execution) : Bool := x.task.limited && x.pc.isProving

/-- The call has returned. -/
def Execution.hasReturned (x : Execution) : Prop := ∃ out, x.pc = .returned out

/-! ## A step of a call, taken apart -/

/-- **The steps of `Execute`**, as a relation between two places. -/
inductive TaskMoves (t : PreimageTask) : Pc → Answer → Pc → Prop
  | malformed {e : Zk.PayloadError} (h : Zk.parsePreimagePublicPayload t.payload = .error e) :
      TaskMoves t .parse .go (.returned (.error (.ofPayload e)))
  | parsed {p : Zk.ValidatedPreimagePayload}
      (h : Zk.parsePreimagePublicPayload t.payload = .ok p) :
      TaskMoves t .parse .go (.witness p.witnessRef p.digest)
  | unknown (ref : Bytes) (digest : Zk.FrElement) :
      TaskMoves t (.witness ref digest) (.witness none)
        (.returned (.error (.plain (ascii "witness not found"))))
  | found (ref : Bytes) (digest : Zk.FrElement) (secret : Int64) :
      TaskMoves t (.witness ref digest) (.witness (some secret)) (.select secret digest)
  | ended (secret : Int64) (digest : Zk.FrElement) (e : ContextError) :
      TaskMoves t (.select secret digest) (.context (some e)) (.returned (.error (.ofContext e)))
  | limited (secret : Int64) (digest : Zk.FrElement) (h : t.limited = true) :
      TaskMoves t (.select secret digest) (.context none) (.acquire secret digest)
  | unlimited (secret : Int64) (digest : Zk.FrElement) (h : t.limited = false) :
      TaskMoves t (.select secret digest) (.context none) (.proving secret digest)
  | acquired (secret : Int64) (digest : Zk.FrElement) :
      TaskMoves t (.acquire secret digest) (.acquired true) (.acquired secret digest)
  | busy (secret : Int64) (digest : Zk.FrElement) :
      TaskMoves t (.acquire secret digest) (.acquired false) (.returned (.error .provingBusy))
  | ended_late (secret : Int64) (digest : Zk.FrElement) (e : ContextError) :
      TaskMoves t (.acquired secret digest) (.context (some e)) (t.exit (.error (.ofContext e)))
  | proves (secret : Int64) (digest : Zk.FrElement) :
      TaskMoves t (.acquired secret digest) (.context none) (.proving secret digest)
  | unproved (secret : Int64) (digest : Zk.FrElement) (e : TaskError) :
      TaskMoves t (.proving secret digest) (.proof (.error e))
        (t.exit (.error (e.wrap (ascii "prove preimage: "))))
  | proved (secret : Int64) (digest : Zk.FrElement) (proof : Bytes) :
      TaskMoves t (.proving secret digest) (.proof (.ok proof)) (.encode proof)
  | encoded (proof : Bytes) :
      TaskMoves t (.encode proof) .go (.finish (Base64.encodeToString proof))
  | expired {err : Option ContextError} {deadline : Option ℕ} {now : ℕ} (output : Bytes)
      (e : ContextError) (h : resultContextError err deadline now = some e) :
      TaskMoves t (.finish output) (.checkpoint err deadline now) (t.exit (.error (.ofContext e)))
  | finished {err : Option ContextError} {deadline : Option ℕ} {now : ℕ} (output : Bytes)
      (h : resultContextError err deadline now = none) :
      TaskMoves t (.finish output) (.checkpoint err deadline now) (t.exit (.ok output))
  | released (out : Except TaskError Bytes) : TaskMoves t (.release out) .go (.returned out)

variable {t : PreimageTask} {pc pc' : Pc} {a : Answer}

theorem taskMoves_of_move (h : t.move pc a = some pc') : TaskMoves t pc a pc' := by
  unfold PreimageTask.move at h
  split at h
  · split at h
    · rename_i he; cases h; exact .malformed he
    · rename_i hp; cases h; exact .parsed hp
  · split at h
    · cases h; exact .unknown ..
    · cases h; exact .found ..
  · split at h
    · cases h; exact .ended ..
    · cases h
      cases hl : t.limited with
      | true => exact .limited _ _ hl
      | false => exact .unlimited _ _ hl
  · rename_i ok
    cases h
    cases ok with
    | true => exact .acquired ..
    | false => exact .busy ..
  · split at h
    · cases h; exact .ended_late ..
    · cases h; exact .proves ..
  · split at h
    · cases h; exact .unproved ..
    · cases h; exact .proved ..
  · cases h; exact .encoded _
  · split at h
    · rename_i he; cases h; exact .expired _ _ he
    · rename_i hn; cases h; exact .finished _ hn
  · cases h; exact .released _
  · cases h

theorem exit_cases (t : PreimageTask) (out : Except TaskError Bytes) :
    (t.limited = true ∧ t.exit out = .release out) ∨
      (t.limited = false ∧ t.exit out = .returned out) := by
  cases h : t.limited <;> simp [PreimageTask.exit, h]

theorem le_rank_exit (t : PreimageTask) (out : Except TaskError Bytes) : 8 ≤ (t.exit out).rank := by
  rcases exit_cases t out with ⟨-, h⟩ | ⟨-, h⟩ <;> simp [h, Pc.rank]

/-- **`Execute` goes forward.** -/
theorem TaskMoves.rank_lt (h : TaskMoves t pc a pc') : pc.rank < pc'.rank := by
  cases h with
  | ended_late | unproved | expired | finished =>
    exact lt_of_lt_of_le (by simp [Pc.rank]) (le_rank_exit t _)
  | _ => simp [Pc.rank]

/-- A step that does not touch the limiter leaves the call's slot to it. -/
theorem TaskMoves.inside_eq (h : TaskMoves t pc a pc') (hq : pc.usesLimiter = false) :
    (t.limited && pc'.inside) = (t.limited && pc.inside) := by
  have hexit : ∀ out, (t.limited && (t.exit out).inside) = t.limited := by
    intro out
    rcases exit_cases t out with ⟨hl, h⟩ | ⟨hl, h⟩ <;> simp [h, hl, Pc.inside]
  cases h with
  | ended_late | unproved | expired | finished => rw [hexit]; simp [Pc.inside]
  | unlimited secret digest hl => simp [hl]
  | acquired | busy | released => simp [Pc.usesLimiter] at hq
  | _ => simp [Pc.inside]

/-- Only a task under the limiter comes to a place that touches it. -/
theorem TaskMoves.limited_of_usesLimiter (h : TaskMoves t pc a pc') (hu : pc'.usesLimiter = true) :
    t.limited = true := by
  have hexit : ∀ out, (t.exit out).usesLimiter = true → t.limited = true := by
    intro out hu
    rcases exit_cases t out with ⟨hl, -⟩ | ⟨-, h⟩
    · exact hl
    · simp [h, Pc.usesLimiter] at hu
  cases h with
  | limited secret digest hl => exact hl
  | ended_late | unproved | expired | finished => exact hexit _ hu
  | _ => simp [Pc.usesLimiter] at hu

theorem TaskMoves.of_acquired (h : TaskMoves t pc (.acquired true) pc') :
    ∃ secret digest, pc = .acquire secret digest ∧ pc' = .acquired secret digest := by
  cases h
  exact ⟨_, _, rfl, rfl⟩

/-- The error is the limiter's. -/
def Pc.isBusy (pc : Pc) : Prop :=
  pc = .returned (.error .provingBusy) ∨ pc = .release (.error .provingBusy)

theorem isBusy_exit {out : Except TaskError Bytes} (h : (t.exit out).isBusy) :
    out = .error .provingBusy := by
  rcases exit_cases t out with ⟨-, heq⟩ | ⟨-, heq⟩ <;>
    · rw [heq] at h
      rcases h with h | h <;> cases h
      rfl

/-- No error of another kind reads as the limiter's. -/
theorem wrap_ne_busy (e : TaskError) : e.wrap (ascii "prove preimage: ") ≠ .provingBusy := by
  intro h
  have htext := congrArg (fun e => e.text.take 5) h
  revert htext
  simp only [TaskError.wrap, TaskError.provingBusy]
  rw [List.take_append_of_le_length (by decide +kernel)]
  decide +kernel

/-- **Only a refused `TryAcquire` ends in `ErrProvingBusy`.** -/
theorem TaskMoves.acquired_false_of_busy (h : TaskMoves t pc a pc') (hb : pc'.isBusy)
    (hn : ¬ pc.isBusy) : a = .acquired false := by
  cases h with
  | busy => rfl
  | malformed =>
    rcases hb with hb | hb <;>
      simp [TaskError.ofPayload, TaskError.plain, TaskError.provingBusy] at hb
  | unknown => rcases hb with hb | hb <;> simp [TaskError.plain, TaskError.provingBusy] at hb
  | ended s d e =>
    rcases hb with hb | hb <;> cases e <;> simp [TaskError.ofContext, TaskError.provingBusy] at hb
  | ended_late s d e =>
    have := isBusy_exit hb
    cases e <;> simp [TaskError.ofContext, TaskError.provingBusy] at this
  | expired output e h =>
    have := isBusy_exit hb
    cases e <;> simp [TaskError.ofContext, TaskError.provingBusy] at this
  | unproved s d e =>
    have heq := isBusy_exit hb
    simp only [Except.error.injEq] at heq
    exact absurd heq (wrap_ne_busy e)
  | finished output h => exact nomatch isBusy_exit hb
  | released out =>
    refine absurd ?_ hn
    rcases hb with hb | hb
    · cases hb; exact .inr rfl
    · cases hb
  | _ => rcases hb with hb | hb <;> cases hb

/-! ## A step of the system, taken apart -/

/-- A call at its next place. -/
def Provers.put (S : Provers) (i : ℕ) (x : Execution) (pc : Pc) : Provers :=
  { S with calls := Function.update S.calls i (some { x with pc := pc }) }

/-- **The steps of the calls over a limiter.** -/
inductive ProverSteps (S : Provers) : ProverAction → Provers → Prop
  | tick (d : ℕ) : ProverSteps S (.tick d) { S with now := S.now + d }
  | began (task : PreimageTask) (err : Option ContextError) (deadline : Option ℕ) :
      ProverSteps S (.execute task err deadline)
        { S with
          calls := Function.update S.calls S.next (some ⟨task, err, deadline, .parse⟩)
          next := S.next + 1 }
  | cancelled {i : ℕ} {x : Execution} (e : ContextError) (hx : S.calls i = some x)
      (hctx : x.ctxErr = none) :
      ProverSteps S (.cancel i e)
        { S with calls := Function.update S.calls i (some { x with ctxErr := some e }) }
  | moved {i : ℕ} {x : Execution} {a : Answer} {pc : Pc} (hx : S.calls i = some x)
      (hm : TaskMoves x.task x.pc a pc) (hq : x.pc.usesLimiter = false) :
      ProverSteps S (.step i a) (S.put i x pc)
  | acquired {i : ℕ} {x : Execution} {secret : Int64} {digest : Zk.FrElement}
      (hx : S.calls i = some x) (hpc : x.pc = .acquire secret digest) (hroom : S.slots < S.limit) :
      ProverSteps S (.step i (.acquired true))
        { S.put i x (.acquired secret digest) with slots := S.slots + 1 }
  | refused {i : ℕ} {x : Execution} {secret : Int64} {digest : Zk.FrElement}
      (hx : S.calls i = some x) (hpc : x.pc = .acquire secret digest) (hfull : S.limit ≤ S.slots) :
      ProverSteps S (.step i (.acquired false)) (S.put i x (.returned (.error .provingBusy)))
  | released {i : ℕ} {x : Execution} {out : Except TaskError Bytes} (hx : S.calls i = some x)
      (hpc : x.pc = .release out) (hpos : 0 < S.slots) :
      ProverSteps S (.step i .go) { S.put i x (.returned out) with slots := S.slots - 1 }

variable {S S' : Provers} {act : ProverAction} {i : ℕ} {x x' : Execution}

theorem proverSteps_callStep (h : S.callStep i a = some S') : ProverSteps S (.step i a) S' := by
  unfold Provers.callStep at h
  split at h
  · cases h
  · rename_i x hx
    split at h
    · rename_i hg
      split at h
      · rename_i pc slots hm hslots
        cases h
        have hmoves := taskMoves_of_move hm
        cases hu : x.pc.usesLimiter with
        | false =>
          have heq : slots = S.slots := by
            unfold Provers.slotsAfter at hslots
            split at hslots
            · rename_i hpc; simp [hpc, Pc.usesLimiter] at hu
            · rename_i hpc; simp [hpc, Pc.usesLimiter] at hu
            · exact (Option.some.inj hslots).symm
          subst heq
          exact .moved hx hmoves hu
        | true =>
          -- At these places the answer says which of the three it is.
          generalize hpc : x.pc = p at hmoves hslots hu
          cases hmoves with
          | acquired secret digest =>
            cases hslots
            exact .acquired hx hpc (by simpa [Provers.gives] using hg)
          | busy secret digest =>
            cases hslots
            exact .refused hx hpc (by simpa [Provers.gives] using hg)
          | released out =>
            simp only [Provers.slotsAfter] at hslots
            split at hslots
            · rename_i hpos
              cases hslots
              exact .released hx hpc hpos
            · cases hslots
          | _ => simp [Pc.usesLimiter] at hu
      · cases h
    · cases h

theorem proverSteps_of_step (h : S.step act = some S') : ProverSteps S act S' := by
  cases act with
  | tick d => cases h; exact .tick d
  | execute task err deadline => cases h; exact .began task err deadline
  | cancel i e =>
    simp only [Provers.step, Provers.cancel] at h
    split at h
    · rename_i hx
      split at h
      · rename_i hctx; cases h; exact .cancelled e hx hctx
      · cases h
    · cases h
  | step i a => exact proverSteps_callStep h

/-! ## The invariant -/

/-- **The slots taken are the calls that hold one.** -/
structure Sound (S : Provers) : Prop where
  slots : S.slots = count Execution.holds S.calls S.next
  le : S.slots ≤ S.limit
  numbered : ∀ {i x}, S.calls i = some x → i < S.next
  limited : ∀ {i x}, S.calls i = some x → x.pc.usesLimiter = true → x.task.limited = true

/-- One call moves; the others are as they were. -/
theorem Sound.calls_update {z : Execution} (hs : Sound S) (hx : S.calls i = some x)
    (hl : z.pc.usesLimiter = true → z.task.limited = true) :
    (∀ {k y}, Function.update S.calls i (some z) k = some y → k < S.next) ∧
      (∀ {k y}, Function.update S.calls i (some z) k = some y → y.pc.usesLimiter = true →
        y.task.limited = true) := by
  constructor
  · intro k y hy
    by_cases hk : k = i
    · subst hk; exact hs.numbered hx
    · rw [Function.update_of_ne hk] at hy; exact hs.numbered hy
  · intro k y hy hu
    by_cases hk : k = i
    · subst hk
      rw [Function.update_self] at hy
      cases hy
      exact hl hu
    · rw [Function.update_of_ne hk] at hy; exact hs.limited hy hu

/-- **Every step keeps the slots in step with the calls**: one is taken and
given back by the call that holds it. -/
theorem Sound.step (hs : Sound S) (h : ProverSteps S act S') : Sound S' := by
  cases h with
  | tick d => exact ⟨hs.slots, hs.le, hs.numbered, hs.limited⟩
  | began task err deadline =>
    refine ⟨?_, hs.le, ?_, ?_⟩
    · dsimp only
      rw [count_succ, hs.slots]
      simp [Execution.holds, Pc.inside]
    · intro k y hy
      by_cases hk : k = S.next
      · subst hk; exact Nat.lt_succ_self _
      · dsimp only at hy ⊢
        rw [Function.update_of_ne hk] at hy
        have := hs.numbered hy
        omega
    · intro k y hy hu
      by_cases hk : k = S.next
      · subst hk
        dsimp only at hy
        rw [Function.update_self] at hy
        cases hy
        simp [Pc.usesLimiter] at hu
      · dsimp only at hy
        rw [Function.update_of_ne hk] at hy
        exact hs.limited hy hu
  | @cancelled i x e hx hctx =>
    obtain ⟨h1, h2⟩ := hs.calls_update (z := { x with ctxErr := some e }) hx
      (by simpa using hs.limited hx)
    refine ⟨?_, hs.le, h1, h2⟩
    have hcount := count_update_eq (p := Execution.holds) (y := { x with ctxErr := some e })
      (hs.numbered hx) hx rfl
    exact hs.slots.trans hcount.symm
  | @moved i x a pc hx hm hq =>
    obtain ⟨h1, h2⟩ := hs.calls_update (z := { x with pc := pc }) hx hm.limited_of_usesLimiter
    refine ⟨?_, hs.le, h1, h2⟩
    rw [Provers.put, hs.slots]
    exact (count_update_eq (hs.numbered hx) hx (hm.inside_eq hq)).symm
  | @acquired i x secret digest hx hpc hroom =>
    have hl := hs.limited hx (by simp [hpc, Pc.usesLimiter])
    obtain ⟨h1, h2⟩ := hs.calls_update (z := { x with pc := .acquired secret digest }) hx fun _ => hl
    refine ⟨?_, hroom, h1, h2⟩
    have hcount := count_update (p := Execution.holds)
      (y := { x with pc := .acquired secret digest }) (hs.numbered hx) hx
    simp only [Execution.holds, hpc, hl, Pc.inside, Bool.and_true, Bool.and_false, Bool.toNat_true,
      Bool.toNat_false] at hcount
    simp only [Provers.put, hs.slots]
    exact hcount.symm
  | @refused i x secret digest hx hpc hfull =>
    have hl := hs.limited hx (by simp [hpc, Pc.usesLimiter])
    obtain ⟨h1, h2⟩ := hs.calls_update (z := { x with pc := .returned (.error .provingBusy) }) hx
      fun _ => hl
    refine ⟨?_, hs.le, h1, h2⟩
    rw [Provers.put, hs.slots]
    exact (count_update_eq (hs.numbered hx) hx (by simp [Execution.holds, hpc, Pc.inside])).symm
  | @released i x out hx hpc hpos =>
    have hl := hs.limited hx (by simp [hpc, Pc.usesLimiter])
    obtain ⟨h1, h2⟩ := hs.calls_update (z := { x with pc := .returned out }) hx fun _ => hl
    refine ⟨?_, le_trans (Nat.sub_le _ _) hs.le, h1, h2⟩
    have hcount := count_update (p := Execution.holds) (y := { x with pc := .returned out })
      (hs.numbered hx) hx
    simp only [Execution.holds, hpc, hl, Pc.inside, Bool.and_true, Bool.and_false, Bool.toNat_true,
      Bool.toNat_false] at hcount
    simp only [Provers.put, hs.slots]
    exact (Nat.sub_eq_of_eq_add hcount.symm)

/-! ## One call -/

/-- **What a step does to a call**: it is another's, or ends its context, or
is the call's own. -/
theorem call_after (hs : Sound S) (h : ProverSteps S act S') (hx : S.calls i = some x) :
    ∃ x', S'.calls i = some x' ∧ x'.task = x.task ∧
      ((x'.pc = x.pc ∧ ∀ a, act ≠ .step i a) ∨
        ∃ a, act = .step i a ∧ TaskMoves x.task x.pc a x'.pc) := by
  -- a step of the call `k`, which is `i` or not
  have hput : ∀ {k y a pc}, S.calls k = some y → TaskMoves y.task y.pc a pc →
      ∃ x', (S.put k y pc).calls i = some x' ∧ x'.task = x.task ∧
        ((x'.pc = x.pc ∧ ∀ b, ProverAction.step k a ≠ .step i b) ∨
          ∃ b, ProverAction.step k a = .step i b ∧ TaskMoves x.task x.pc b x'.pc) := by
    intro k y a pc hy hm
    by_cases hk : i = k
    · subst hk
      rw [hx] at hy
      cases hy
      exact ⟨_, Function.update_self _ _ _, rfl, .inr ⟨a, rfl, hm⟩⟩
    · refine ⟨x, by simp [Provers.put, Function.update_of_ne hk, hx], rfl, .inl ⟨rfl, ?_⟩⟩
      intro b hb
      cases hb
      exact hk rfl
  cases h with
  | tick d => exact ⟨x, hx, rfl, .inl ⟨rfl, nofun⟩⟩
  | began task err deadline =>
    have hne : i ≠ S.next := by have := hs.numbered hx; omega
    exact ⟨x, by simp [Function.update_of_ne hne, hx], rfl, .inl ⟨rfl, nofun⟩⟩
  | @cancelled k y e hy hctx =>
    by_cases hk : i = k
    · subst hk
      rw [hx] at hy
      cases hy
      exact ⟨_, Function.update_self _ _ _, rfl, .inl ⟨rfl, nofun⟩⟩
    · exact ⟨x, by simp [Function.update_of_ne hk, hx], rfl, .inl ⟨rfl, nofun⟩⟩
  | moved hy hm hq => exact hput hy hm
  | acquired hy hpc hroom => exact hput hy (hpc ▸ .acquired ..)
  | refused hy hpc hfull => exact hput hy (hpc ▸ .busy ..)
  | released hy hpc hpos => exact hput hy (hpc ▸ .released _)

/-- A call that was not there before has just begun. -/
theorem call_before (h : ProverSteps S act S') (hx' : S'.calls i = some x') :
    (∃ x, S.calls i = some x) ∨ x'.pc = .parse := by
  have hupdate : ∀ {k y y'}, S.calls k = some y → Function.update S.calls k (some y') i = some x' →
      ∃ x, S.calls i = some x := by
    intro k y y' hy hy'
    by_cases hk : i = k
    · exact ⟨y, hk ▸ hy⟩
    · rw [Function.update_of_ne hk] at hy'
      exact ⟨x', hy'⟩
  cases h with
  | tick d => exact .inl ⟨x', hx'⟩
  | began task err deadline =>
    dsimp only at hx'
    by_cases hk : i = S.next
    · rw [hk, Function.update_self] at hx'
      cases hx'
      exact .inr rfl
    · rw [Function.update_of_ne hk] at hx'
      exact .inl ⟨x', hx'⟩
  | cancelled e hy hctx => exact .inl (hupdate hy hx')
  | moved hy hm hq => exact .inl (hupdate hy hx')
  | acquired hy hpc hroom => exact .inl (hupdate hy hx')
  | refused hy hpc hfull => exact .inl (hupdate hy hx')
  | released hy hpc hpos => exact .inl (hupdate hy hx')

/-- The call takes a slot by its `TryAcquire` only, and gives it back by its
`Release` only. -/
theorem holds_step (hs : Sound S) (h : ProverSteps S act S') (hx : S.calls i = some x) :
    ∃ x', S'.calls i = some x' ∧
      (x'.holds = x.holds ∨ act = .step i (.acquired true) ∨
        (act = .step i .go ∧ ∃ out, x.pc = .release out ∧ x'.pc = .returned out)) := by
  obtain ⟨x', hx', htask, ⟨hpc, -⟩ | ⟨a, rfl, hm⟩⟩ := call_after hs h hx
  · exact ⟨x', hx', .inl (by simp [Execution.holds, htask, hpc])⟩
  · refine ⟨x', hx', ?_⟩
    cases hu : x.pc.usesLimiter with
    | false => exact .inl (by rw [Execution.holds, htask, hm.inside_eq hu, Execution.holds])
    | true =>
      generalize hpc : x.pc = p at hm hu
      generalize hpc' : x'.pc = p' at hm
      cases hm with
      | acquired => exact .inr (.inl rfl)
      | busy => exact .inl (by simp [Execution.holds, hpc, hpc', Pc.inside])
      | released out => exact .inr (.inr ⟨rfl, out, rfl, rfl⟩)
      | _ => simp [Pc.usesLimiter] at hu

/-! ## Over a run -/

section

variable (r : provers.Run)

theorem sound (n : ℕ) : Sound (r.state n) := by
  refine r.invariant (fun S hS => ?_) (fun S a S' hs h => hs.step (proverSteps_of_step h)) n
  obtain ⟨-, hslots, hnext, hcalls⟩ := hS
  refine ⟨?_, by omega, fun h => ?_, fun h => ?_⟩
  · rw [hslots, hnext]; rfl
  · rw [hcalls] at h; cases h
  · rw [hcalls] at h; cases h

/-- **A successful `TryAcquire` of the call `i`.** -/
def AcquiresAt (n i : ℕ) : Prop := r.act n = .step i (.acquired true)

/-- **The `Release` of the call `i`.** -/
def ReleasesAt (n i : ℕ) : Prop :=
  r.act n = .step i .go ∧ ∃ x out, (r.state n).calls i = some x ∧ x.pc = .release out

/-- The call `i` has a slot. -/
def Provers.isHeld (S : Provers) (i : ℕ) : Prop := ∃ x, S.calls i = some x ∧ x.holds = true

variable {r}

theorem steps_at (n : ℕ) : ProverSteps (r.state n) (r.act n) (r.state (n + 1)) :=
  proverSteps_of_step (r.next n)

/-- A call goes forward, whatever else happens. -/
theorem call_later {m n : ℕ} (hmn : m ≤ n) (hx : (r.state m).calls i = some x) :
    ∃ x', (r.state n).calls i = some x' ∧ x'.task = x.task ∧ x.pc.rank ≤ x'.pc.rank := by
  induction n, hmn using Nat.le_induction with
  | base => exact ⟨x, hx, rfl, le_rfl⟩
  | succ n hmn ih =>
    obtain ⟨y, hy, htask, hrank⟩ := ih
    obtain ⟨x', hx', htask', ⟨hpc, -⟩ | ⟨a, -, hm⟩⟩ := call_after (sound r n) (steps_at n) hy
    · exact ⟨x', hx', htask'.trans htask, hpc ▸ hrank⟩
    · exact ⟨x', hx', htask'.trans htask, le_trans hrank hm.rank_lt.le⟩

/-- What stands where a call takes a step. -/
theorem moves_at {n : ℕ} (h : r.act n = .step i a) :
    ∃ x x', (r.state n).calls i = some x ∧ (r.state (n + 1)).calls i = some x' ∧
      TaskMoves x.task x.pc a x'.pc := by
  have hstep := r.next n
  rw [h] at hstep
  cases hx : (r.state n).calls i with
  | none => simp [provers, Provers.step, Provers.callStep, hx] at hstep
  | some x =>
    obtain ⟨x', hx', -, ⟨-, hne⟩ | ⟨b, hb, hm⟩⟩ := call_after (sound r n) (steps_at n) hx
    · exact absurd h (hne a)
    · rw [h] at hb
      cases hb
      exact ⟨x, x', rfl, hx', hm⟩

/-- **A call leaves a place once.** -/
theorem step_unique {m n : ℕ} {b : Answer} {y : Execution} (hm : r.act m = .step i a)
    (hn : r.act n = .step i b) (hx : (r.state m).calls i = some x)
    (hy : (r.state n).calls i = some y) (hrank : x.pc.rank = y.pc.rank) : m = n := by
  -- Whoever is first has gone on before the other's step.
  have hlt : ∀ {m n : ℕ} {a : Answer} {x y : Execution}, r.act m = .step i a →
      (r.state m).calls i = some x → (r.state n).calls i = some y → m < n →
      x.pc.rank < y.pc.rank := by
    intro m n a x y hm hx hy hmn
    obtain ⟨x₀, x₁, hx₀, hx₁, hmoves⟩ := moves_at hm
    rw [hx] at hx₀
    cases hx₀
    obtain ⟨y', hy', -, hle⟩ := call_later (Nat.succ_le_of_lt hmn) hx₁
    rw [hy] at hy'
    cases hy'
    exact lt_of_lt_of_le hmoves.rank_lt hle
  rcases Nat.lt_trichotomy m n with h | h | h
  · have := hlt hm hx hy h; omega
  · exact h
  · have := hlt hn hy hx h; omega

theorem acquiresAt_unique {m n : ℕ} (hm : AcquiresAt r m i) (hn : AcquiresAt r n i) : m = n := by
  obtain ⟨x, x', hx, -, hmx⟩ := moves_at hm
  obtain ⟨y, y', hy, -, hmy⟩ := moves_at hn
  obtain ⟨secret, digest, hpc, -⟩ := hmx.of_acquired
  obtain ⟨secret', digest', hpc', -⟩ := hmy.of_acquired
  exact step_unique hm hn hx hy (by simp [hpc, hpc', Pc.rank])

theorem releasesAt_unique {m n : ℕ} (hm : ReleasesAt r m i) (hn : ReleasesAt r n i) : m = n := by
  obtain ⟨hm, x, out, hx, hpc⟩ := hm
  obtain ⟨hn, y, out', hy, hpc'⟩ := hn
  exact step_unique hm hn hx hy (by simp [hpc, hpc', Pc.rank])

/-- A slot is taken by `TryAcquire`. -/
theorem acquired_of_held {n : ℕ} (h : (r.state n).isHeld i) : ∃ m < n, AcquiresAt r m i := by
  have h0 : ∀ S, provers.init S → ¬ S.isHeld i := by
    rintro S hS ⟨x, hx, -⟩
    rw [hS.2.2.2] at hx
    cases hx
  obtain ⟨m, hmn, hm, hafter⟩ := r.exists_entry h0 h
  obtain ⟨x', hx', hh⟩ := hafter (m + 1) (by omega) hmn
  refine ⟨m, hmn, ?_⟩
  rcases call_before (steps_at m) hx' with ⟨x, hx⟩ | hpc
  · obtain ⟨y, hy, hcase⟩ := holds_step (sound r m) (steps_at m) hx
    rw [hx'] at hy
    cases hy
    rcases hcase with heq | hacq | ⟨-, out, -, hpc⟩
    · exact absurd ⟨x, hx, heq ▸ hh⟩ hm
    · exact hacq
    · simp [Execution.holds, hpc, Pc.inside] at hh
  · simp [Execution.holds, hpc, Pc.inside] at hh

/-- Behind its `TryAcquire` a call holds its slot. -/
theorem held_of_acquiresAt {m : ℕ} (h : AcquiresAt r m i) : (r.state (m + 1)).isHeld i := by
  obtain ⟨x, x', hx, hx', hmoves⟩ := moves_at h
  obtain ⟨y, hy, htask, -⟩ := call_after (sound r m) (steps_at m) hx
  rw [hx'] at hy
  cases hy
  obtain ⟨secret, digest, hpc, hpc'⟩ := hmoves.of_acquired
  have hl := (sound r m).limited hx (by simp [hpc, Pc.usesLimiter])
  exact ⟨x', hx', by simp [Execution.holds, htask, hl, hpc', Pc.inside]⟩

/-- **A slot is given back by `Release`, with the return.** -/
theorem released_of_not_held {m n : ℕ} (hm : AcquiresAt r m i) (hmn : m < n)
    (hn : ¬ (r.state n).isHeld i) : ∃ k, m < k ∧ k < n ∧ ReleasesAt r k i := by
  obtain ⟨k, hmk, hkn, ⟨x, hx, hh⟩, hnot⟩ :=
    r.exists_exit (P := fun S => S.isHeld i) (Nat.succ_le_of_lt hmn) (held_of_acquiresAt hm) hn
  obtain ⟨x', hx', hcase⟩ := holds_step (sound r k) (steps_at k) hx
  refine ⟨k, hmk, hkn, ?_⟩
  rcases hcase with heq | hacq | ⟨hact, out, hpc, -⟩
  · exact absurd ⟨x', hx', heq.trans hh⟩ hnot
  · have := acquiresAt_unique hm hacq
    omega
  · exact ⟨hact, x, out, hx, hpc⟩

theorem returned_of_releasesAt {k n : ℕ} (hk : ReleasesAt r k i) (hkn : k < n) :
    ∃ x, (r.state n).calls i = some x ∧ x.hasReturned := by
  obtain ⟨hact, x, out, hx, hpc⟩ := hk
  obtain ⟨x₀, x₁, hx₀, hx₁, hmoves⟩ := moves_at hact
  rw [hx] at hx₀
  cases hx₀
  obtain ⟨y, hy, -, hle⟩ := call_later (Nat.succ_le_of_lt hkn) hx₁
  refine ⟨y, hy, ?_⟩
  have hlt := hmoves.rank_lt
  rw [hpc] at hlt
  simp only [Pc.rank] at hlt
  cases hpc' : y.pc with
  | returned out => exact ⟨out, hpc'⟩
  | _ => rw [hpc'] at hle; simp only [Pc.rank] at hle; omega

/-- **A call holds a slot from its `TryAcquire` to its return.** -/
theorem holds_iff {n : ℕ} (hx : (r.state n).calls i = some x) :
    x.holds = true ↔ (∃ m < n, AcquiresAt r m i) ∧ ¬ x.hasReturned := by
  constructor
  · intro h
    refine ⟨acquired_of_held ⟨x, hx, h⟩, ?_⟩
    rintro ⟨out, hpc⟩
    simp [Execution.holds, hpc, Pc.inside] at h
  · rintro ⟨⟨m, hmn, hm⟩, hret⟩
    by_contra hh
    have hnot : ¬ (r.state n).isHeld i := by
      rintro ⟨y, hy, hy'⟩
      rw [hx] at hy
      cases hy
      exact hh hy'
    obtain ⟨k, -, hkn, hk⟩ := released_of_not_held hm hmn hnot
    obtain ⟨y, hy, hy'⟩ := returned_of_releasesAt hk hkn
    rw [hx] at hy
    cases hy
    exact hret hy'

theorem full_of_refused (hs : Sound S) (h : ProverSteps S act S')
    (hact : act = .step i (.acquired false)) : S.slots = S.limit := by
  have hle := hs.le
  cases h with
  | refused hx hpc hfull => omega
  | @moved k x a pc hx hm hq =>
    cases hact
    generalize x.pc = p at hm hq
    cases hm
    simp [Pc.usesLimiter] at hq
  | _ => cases hact

theorem held_of_release (hs : Sound S) {out : Except TaskError Bytes} (hx : S.calls i = some x)
    (hpc : x.pc = .release out) : x.holds = true := by
  have hl := hs.limited hx (by simp [hpc, Pc.usesLimiter])
  simp [Execution.holds, hl, hpc, Pc.inside]

/-- **Whoever is refused was refused over a full limiter.** -/
theorem full_of_busy {n : ℕ} (hx : (r.state n).calls i = some x)
    (hpc : x.pc = .returned (.error .provingBusy)) :
    ∃ m < n, r.act m = .step i (.acquired false) ∧ (r.state m).slots = (r.state m).limit := by
  have h0 : ∀ S, provers.init S → ¬ ∃ x, S.calls i = some x ∧ x.pc.isBusy := by
    rintro S hS ⟨x, hx, -⟩
    rw [hS.2.2.2] at hx
    cases hx
  obtain ⟨m, hmn, hm, hafter⟩ := r.exists_entry h0 ⟨x, hx, .inl hpc⟩
  obtain ⟨x', hx', hbusy⟩ := hafter (m + 1) (by omega) hmn
  refine ⟨m, hmn, ?_⟩
  rcases call_before (steps_at m) hx' with ⟨x₀, hx₀⟩ | hpc
  · obtain ⟨y, hy, -, ⟨hsame, -⟩ | ⟨a, hact, hmoves⟩⟩ := call_after (sound r m) (steps_at m) hx₀
    · rw [hx'] at hy
      cases hy
      exact absurd ⟨x₀, hx₀, hsame ▸ hbusy⟩ hm
    · rw [hx'] at hy
      cases hy
      have hrefused := hmoves.acquired_false_of_busy hbusy fun h => hm ⟨x₀, hx₀, h⟩
      subst hrefused
      exact ⟨hact, full_of_refused (sound r m) (steps_at m) hact⟩
  · rcases hbusy with h | h <;> rw [hpc] at h <;> cases h

/-- **Proving capacity**, over every run of calls that share a limiter. No
more than its capacity prove at once. The slots taken are the calls between
their `TryAcquire` and their return. A call acquires at most once, its
`Release` finds a slot to give back, and when it has returned it has
released once. Nothing but a `Release` frees a slot, least of all a context
that ends. Whoever is refused was refused over a full limiter. -/
theorem proving_capacity (r : provers.Run) :
    (∀ n, count Execution.proves (r.state n).calls (r.state n).next ≤ (r.state n).limit ∧
      (r.state n).slots = count Execution.holds (r.state n).calls (r.state n).next) ∧
    (∀ n i x, (r.state n).calls i = some x →
      (x.holds = true ↔ (∃ m < n, AcquiresAt r m i) ∧ ¬ x.hasReturned)) ∧
    (∀ n i x out, (r.state n).calls i = some x → x.pc = .release out →
      ∃ S, (r.state n).step (.step i .go) = some S) ∧
    (∀ i m m', AcquiresAt r m i → AcquiresAt r m' i → m = m') ∧
    (∀ i k, ReleasesAt r k i → ∃ m < k, AcquiresAt r m i) ∧
    (∀ i m n x, AcquiresAt r m i → m < n → (r.state n).calls i = some x → x.hasReturned →
      ∃ k, m < k ∧ k < n ∧ ReleasesAt r k i ∧ ∀ k', ReleasesAt r k' i → k' = k) ∧
    (∀ n, (r.state (n + 1)).slots < (r.state n).slots → ∃ i, ReleasesAt r n i) ∧
    (∀ n i e, r.act n = .cancel i e → (r.state (n + 1)).slots = (r.state n).slots) ∧
    (∀ n i x, (r.state n).calls i = some x → x.pc = .returned (.error .provingBusy) →
      ∃ m < n, r.act m = .step i (.acquired false) ∧
        (r.state m).slots = (r.state m).limit) := by
  refine ⟨fun n => ⟨?_, (sound r n).slots⟩, fun n i x hx => holds_iff hx,
    fun n i x out hx hpc => ?_, fun i m m' => acquiresAt_unique, fun i k hk => ?_,
    fun i m n x hm hmn hx hret => ?_, fun n hlt => ?_, fun n i e hact => ?_,
    fun n i x hx hpc => full_of_busy hx hpc⟩
  · have hle := (sound r n).le
    rw [(sound r n).slots] at hle
    refine le_trans (count_le fun x hx => ?_) hle
    simp only [Execution.proves, Bool.and_eq_true] at hx
    cases hpc : x.pc with
    | proving secret digest => simp [Execution.holds, hx.1, hpc, Pc.inside]
    | _ => simp [hpc, Pc.isProving] at hx
  · have hheld := held_of_release (sound r n) hx hpc
    have hpos : 0 < (r.state n).slots := by
      rw [(sound r n).slots]
      exact count_pos ((sound r n).numbered hx) hx hheld
    simp [Provers.step, Provers.callStep, hx, hpc, Provers.gives, PreimageTask.move,
      Provers.slotsAfter, hpos]
  · obtain ⟨hact, x, out, hx, hpc⟩ := hk
    exact acquired_of_held ⟨x, hx, held_of_release (sound r k) hx hpc⟩
  · have hnot : ¬ (r.state n).isHeld i := by
      rintro ⟨y, hy, hy'⟩
      rw [hx] at hy
      cases hy
      exact ((holds_iff hx).1 hy').2 hret
    obtain ⟨k, hmk, hkn, hk⟩ := released_of_not_held hm hmn hnot
    exact ⟨k, hmk, hkn, hk, fun k' hk' => releasesAt_unique hk' hk⟩
  · have hsteps := steps_at (r := r) n
    unfold ReleasesAt
    generalize r.act n = act at hsteps
    generalize r.state (n + 1) = S' at hsteps hlt
    cases hsteps with
    | @released i x out hx hpc hpos => exact ⟨i, rfl, x, out, hx, hpc⟩
    | acquired hx hpc hroom => dsimp only at hlt; omega
    | _ => exact absurd hlt (lt_irrefl _)
  · have hsteps := steps_at (r := r) n
    rw [hact] at hsteps
    generalize r.state (n + 1) = S' at hsteps
    cases hsteps with
    | cancelled => rfl

end

/-! ## Two calls over one slot -/

def exampleTask : PreimageTask := ⟨ascii "\x7b\"witness_ref\":\"a\",\"digest\":\"12\"\x7d", true⟩

/-- To the limiter. -/
def toLimiter (i : ℕ) : List ProverAction :=
  [.step i .go, .step i (.witness (some 42)), .step i (.context none)]

/-- The first call proves; the second finds the slot taken. The first is
cancelled, its proof comes late, and it returns. -/
def capacityScript : List ProverAction :=
  [.execute exampleTask none none, .execute exampleTask none none] ++ toLimiter 0 ++
    [.step 0 (.acquired true), .step 0 (.context none)] ++ toLimiter 1 ++
    [.step 1 (.acquired false), .cancel 0 .canceled, .step 0 (.proof (.ok [1, 2, 3])), .step 0 .go,
      .step 0 (.checkpoint (some .canceled) none 0), .step 0 .go]

def oneSlot : Provers := ⟨1, 0, 0, fun _ => none, 0⟩

theorem plays_capacityScript : provers.plays oneSlot capacityScript = true := by decide +kernel

def capacityRun : provers.Run :=
  .ofScript oneSlot capacityScript (.tick 0) (fun _ => rfl) ⟨⟨1, rfl⟩, rfl, rfl, rfl⟩
    plays_capacityScript

theorem proving_capacity_run :
    (∃ k, 5 < k ∧ k < 16 ∧ ReleasesAt capacityRun k 0 ∧
      ∀ k', ReleasesAt capacityRun k' 0 → k' = k) ∧
    ∃ m < 16, capacityRun.act m = .step 1 (.acquired false) ∧
      (capacityRun.state m).slots = (capacityRun.state m).limit := by
  obtain ⟨-, -, -, -, -, hrelease, -, -, hbusy⟩ := proving_capacity capacityRun
  have h0 : ((capacityRun.state 16).calls 0).map Execution.pc =
      some (.returned (.error (.ofContext .canceled))) := by decide +kernel
  have h1 : ((capacityRun.state 16).calls 1).map Execution.pc =
      some (.returned (.error .provingBusy)) := by decide +kernel
  obtain ⟨x, hx, hpc⟩ := Option.map_eq_some_iff.1 h0
  obtain ⟨y, hy, hpc'⟩ := Option.map_eq_some_iff.1 h1
  exact ⟨hrelease 0 5 16 x rfl (by omega) hx ⟨_, hpc⟩, hbusy 16 1 y hy hpc'⟩

end Worker

end ZkRuntime
