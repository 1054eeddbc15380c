import ZkRuntime.Lifecycle.Model.Gate
/-!
# The admission gate is closed once, and only behind the last request

`done` is closed in two places, by the last request to leave a gate that is
draining and by a `beginShutdown` that finds no request. Each closes it only
as it makes the gate draining and empty, and nothing makes a gate that is
both anything else, so it is closed once and exactly there.
-/

namespace ZkRuntime

namespace Lifecycle

/-- **The steps of a gate**, as a relation between two of them. -/
inductive GateSteps (l : Gate) : GateAction → Gate → Prop
  /-- Nothing happens, or what was asked for is refused or done already. -/
  | same {a : GateAction} (ha : a ≠ .cancelWork) : GateSteps l a l
  | entered {b : Bool} (hd : l.draining = false) :
      GateSteps l (.tryEnter b) { l with
        active := insert l.next l.active
        next := l.next + 1
        ended := Function.update l.ended l.next b }
  | parentDone (e : ℕ) : GateSteps l (.parentDone e) (l.cancel e)
  | called {e : ℕ} (he : e < l.next) (hf : l.leaving e = .fresh) :
      GateSteps l (.leave e) { l with leaving := Function.update l.leaving e .called }
  | leaving {e : ℕ} (hc : l.leaving e = .called) :
      GateSteps l (.leaveStep e)
        { l.cancel e with leaving := Function.update l.leaving e .cancelled }
  | left {e : ℕ} (hc : l.leaving e = .cancelled) : GateSteps l (.leaveStep e) (l.remove e)
  | sealed (hd : l.draining = false) :
      GateSteps l .beginShutdown { l with
        draining := true
        done := if l.active = ∅ then l.done.close else l.done }
  | cancelWork : GateSteps l .cancelWork l.cancelWork
  | cancelled {k : ℕ} {order : List ℕ} (hk : l.calls k = some .called) :
      GateSteps l (.cancelWorkStep k order) { l.goto k .collect with cancelled := true }
  | collected {k : ℕ} {order : List ℕ} (hk : l.calls k = some .collect)
      (ho : order.toFinset = l.active) :
      GateSteps l (.cancelWorkStep k order) (l.goto k (.calling order))
  | calling {k e : ℕ} {order es : List ℕ} (hk : l.calls k = some (.calling (e :: es))) :
      GateSteps l (.cancelWorkStep k order) ((l.cancel e).goto k (.calling es))
  | returned {k : ℕ} {order : List ℕ} (hk : l.calls k = some (.calling [])) :
      GateSteps l (.cancelWorkStep k order) (l.goto k .returned)

variable {l l' : Gate} {e k : ℕ}

theorem gateSteps_of_step {a : GateAction} (hs : l.step a = some l') : GateSteps l a l' := by
  cases a with
  | idle => cases hs; exact .same (by simp)
  | tryEnter b =>
    simp only [Gate.step, Gate.tryEnter] at hs
    split_ifs at hs with hd
    · cases hs; exact .same (by simp)
    · cases hs; exact .entered (by simpa using hd)
  | parentDone e =>
    simp only [Gate.step] at hs
    split_ifs at hs
    cases hs
    exact .parentDone e
  | leave e =>
    simp only [Gate.step, Gate.leave] at hs
    split_ifs at hs with he hf
    · cases hs; exact .called he hf
    · cases hs; exact .same (by simp)
  | leaveStep e =>
    simp only [Gate.step, Gate.leaveStep] at hs
    split at hs
    · rename_i hc; cases hs; exact .leaving hc
    · rename_i hc; cases hs; exact .left hc
    · cases hs
  | beginShutdown =>
    simp only [Gate.step, Gate.beginShutdown] at hs
    split_ifs at hs with hd
    · cases hs; exact .same (by simp)
    · cases hs
      rename_i he
      have h := GateSteps.sealed (l := l) (by simpa using hd)
      rwa [if_pos he] at h
    · cases hs
      rename_i he
      have h := GateSteps.sealed (l := l) (by simpa using hd)
      rwa [if_neg he] at h
  | cancelWork => cases hs; exact .cancelWork
  | cancelWorkStep k order =>
    simp only [Gate.step, Gate.cancelWorkStep] at hs
    split at hs
    · rename_i hk; cases hs; exact .cancelled hk
    · rename_i hk
      split_ifs at hs with ho
      cases hs
      exact .collected hk ho.2
    · rename_i hk; cases hs; exact .calling hk
    · rename_i hk; cases hs; exact .returned hk
    · cases hs

/-- **What holds of a gate at any time.** -/
structure Gate.Sound (l : Gate) : Prop where
  active_iff : ∀ e, e ∈ l.active ↔ e < l.next ∧ l.leaving e ≠ .left
  done_eq : l.done = if l.draining = true ∧ l.active = ∅ then .closed else .pending
  /-- A request that was not admitted has not left. -/
  fresh : ∀ e, l.next ≤ e → l.leaving e = .fresh
  /-- Who has come to the section of `leave` has a cancelled context. -/
  ended : ∀ e, l.leaving e = .cancelled ∨ l.leaving e = .left → l.ended e = true

namespace Gate.Sound

theorem newGate : newGate.Sound where
  active_iff e := by simp [Lifecycle.newGate]
  done_eq := by simp [Lifecycle.newGate]
  fresh e _ := rfl
  ended e h := by simp [Lifecycle.newGate] at h

/-! ## Operation by operation -/

/-- What changes neither the flags nor who is in, and ends contexts only,
keeps the gate sound. -/
theorem frame (h : l.Sound) (hd : l'.draining = l.draining) (ha : l'.active = l.active)
    (hdone : l'.done = l.done) (hn : l'.next = l.next) (hl : l'.leaving = l.leaving)
    (he : ∀ e, l.ended e = true → l'.ended e = true) : l'.Sound where
  active_iff e := by rw [ha, hn, hl]; exact h.active_iff e
  done_eq := by rw [hdone, hd, ha]; exact h.done_eq
  fresh e hle := by rw [hl]; exact h.fresh e (hn ▸ hle)
  ended e hle := he e (h.ended e (hl ▸ hle))

theorem cancel (h : l.Sound) (e : ℕ) : (l.cancel e).Sound := by
  refine h.frame rfl rfl rfl rfl rfl fun i hi => ?_
  simp only [Gate.cancel, Function.update_apply]
  split_ifs
  · rfl
  · exact hi

theorem goto (h : l.Sound) (k : ℕ) (c : Cancelling) : (l.goto k c).Sound :=
  h.frame rfl rfl rfl rfl rfl fun _ hi => hi

theorem entered (h : l.Sound) (hd : l.draining = false) (b : Bool) :
    Gate.Sound { l with
      active := insert l.next l.active
      next := l.next + 1
      ended := Function.update l.ended l.next b } := by
  have hfresh := h.fresh l.next le_rfl
  refine ⟨fun e => ?_, ?_, fun e he => h.fresh e (by simp only at he; omega), fun e he => ?_⟩
  · rw [Finset.mem_insert, h.active_iff]
    by_cases hne : e = l.next
    · subst hne
      simp [hfresh]
    · have hlt : e < l.next + 1 ↔ e < l.next := by omega
      simp [hne, hlt]
  · -- The gate is not draining, so it is not closed before or after.
    have hdone := h.done_eq
    simp only [hd, Bool.false_eq_true, false_and, if_false] at hdone ⊢
    exact hdone
  · have hne : e ≠ l.next := by
      rintro rfl
      rw [hfresh] at he
      simp at he
    simp only [Function.update_of_ne hne]
    exact h.ended e he

/-- A `leave` on its way, before the section under `l.mu`. -/
theorem leaving (h : l.Sound) (he : e < l.next) (hleft : l.leaving e ≠ .left) {c : Leaving}
    (hc : c = .called ∨ c = .cancelled ∧ l.ended e = true) :
    Gate.Sound { l with leaving := Function.update l.leaving e c } := by
  have hne : c ≠ .left := by rintro rfl; simp at hc
  refine ⟨fun i => ?_, h.done_eq, fun i hi => ?_, fun i hi => ?_⟩
  · by_cases hie : i = e
    · subst hie
      simp [h.active_iff, hleft, hne]
    · simp [Function.update_of_ne hie, h.active_iff]
  · have hie : i ≠ e := by simp only at hi; omega
    simp [Function.update_of_ne hie, h.fresh i hi]
  · by_cases hie : i = e
    · subst hie
      rcases hc with rfl | ⟨-, hend⟩
      · simp at hi
      · exact hend
    · simp only [Function.update_of_ne hie] at hi
      exact h.ended i hi

theorem remove (h : l.Sound) (he : l.leaving e = .cancelled) : (l.remove e).Sound := by
  have hin : e ∈ l.active := by
    refine (h.active_iff e).2 ⟨?_, by simp [he]⟩
    by_contra hle
    rw [h.fresh e (by omega)] at he
    cases he
  have hopen : l.done = .pending := by
    rw [h.done_eq, if_neg]
    rintro ⟨-, hempty⟩
    simp [hempty] at hin
  refine ⟨fun i => ?_, ?_, fun i hi => ?_, fun i hi => ?_⟩
  · by_cases hie : i = e
    · subst hie
      simp [Gate.remove]
    · simp [Gate.remove, hie, h.active_iff]
  · -- Who leaves was in, so the gate was not closed before.
    simp only [Gate.remove, hopen, Signal.close_pending]
  · have hie : i ≠ e := by
      rintro rfl
      have hlt := ((h.active_iff i).1 hin).1
      simp only [Gate.remove] at hi
      omega
    simp [Gate.remove, Function.update_of_ne hie, h.fresh i hi]
  · by_cases hie : i = e
    · subst hie
      exact h.ended i (.inl he)
    · simp only [Gate.remove, Function.update_of_ne hie] at hi
      exact h.ended i hi

theorem sealed (h : l.Sound) (hd : l.draining = false) :
    Gate.Sound { l with
      draining := true
      done := if l.active = ∅ then l.done.close else l.done } := by
  refine ⟨h.active_iff, ?_, h.fresh, h.ended⟩
  have hdone := h.done_eq
  simp only [hd, Bool.false_eq_true, false_and, if_false] at hdone
  simp only [hdone, true_and, Signal.close_pending]

theorem lt_next (h : l.Sound) (hc : l.leaving e ≠ .fresh) : e < l.next := by
  by_contra hle
  exact hc (h.fresh e (by omega))

/-- **Every step keeps the gate sound.** -/
theorem step {a : GateAction} (h : l.Sound) (hs : GateSteps l a l') : l'.Sound := by
  cases hs with
  | same => exact h
  | entered hd => exact h.entered hd _
  | parentDone e => exact h.cancel e
  | called he hf => exact h.leaving he (by simp [hf]) (.inl rfl)
  | leaving hc =>
    refine (h.cancel _).leaving (h.lt_next (by simp [hc])) (by simp [Gate.cancel, hc]) (.inr ?_)
    exact ⟨rfl, by simp [Gate.cancel]⟩
  | left hc => exact h.remove hc
  | sealed hd => exact h.sealed hd
  | cancelWork => exact h.frame rfl rfl rfl rfl rfl fun _ hi => hi
  | cancelled => exact h.frame rfl rfl rfl rfl rfl fun _ hi => hi
  | collected => exact h.goto _ _
  | calling => exact (h.cancel _).goto _ _
  | returned => exact h.goto _ _

end Gate.Sound

/-! ## What a step keeps -/

/-- What no step takes back: a gate that drains goes on draining and admits
no more, and a context that has ended stays so. -/
structure Gate.Keeps (l l' : Gate) : Prop where
  draining : l.draining = true → l'.draining = true
  next : l.draining = true → l'.next = l.next
  next_le : l.next ≤ l'.next
  ended : ∀ e, e < l.next → l.ended e = true → l'.ended e = true

theorem Gate.keeps_rfl : l.Keeps l := ⟨id, fun _ => rfl, le_rfl, fun _ _ => id⟩

theorem Gate.Keeps.trans {l'' : Gate} (h : l.Keeps l') (h' : l'.Keeps l'') : l.Keeps l'' where
  draining hd := h'.draining (h.draining hd)
  next hd := (h'.next (h.draining hd)).trans (h.next hd)
  next_le := h.next_le.trans h'.next_le
  ended e he hend := h'.ended e (by have := h.next_le; omega) (h.ended e he hend)

theorem Gate.keeps_cancel (l : Gate) (e : ℕ) : l.Keeps (l.cancel e) := by
  refine ⟨id, fun _ => rfl, le_rfl, fun i _ hi => ?_⟩
  simp only [Gate.cancel, Function.update_apply]
  split_ifs
  · rfl
  · exact hi

/-- **Every step keeps it.** -/
theorem GateSteps.keeps {a : GateAction} (hs : GateSteps l a l') : l.Keeps l' := by
  cases hs with
  | same => exact Gate.keeps_rfl
  | entered hd =>
    refine ⟨fun h => by simp [hd] at h, fun h => by simp [hd] at h, by simp, fun e he hend => ?_⟩
    have hne : e ≠ l.next := by omega
    simp [Function.update_of_ne hne, hend]
  | parentDone e => exact l.keeps_cancel e
  | leaving => exact (l.keeps_cancel _).trans ⟨id, fun _ => rfl, le_rfl, fun _ _ => id⟩
  | sealed => exact ⟨fun _ => rfl, fun _ => rfl, le_rfl, fun _ _ => id⟩
  | calling => exact (l.keeps_cancel _).trans ⟨id, fun _ => rfl, le_rfl, fun _ _ => id⟩
  | _ => exact ⟨id, fun _ => rfl, le_rfl, fun _ _ => id⟩

/-! ## A sweep -/

/-- **A call of `cancelWork` on a gate that drains**: of the requests that were
admitted, those it has still to cancel are the only ones whose context may
not have ended. -/
structure Sweeps (l : Gate) (k : ℕ) : Prop where
  draining : l.draining = true
  call : k < l.nextCall
  calling : ∀ es, l.calls k = some (.calling es) → ∀ e, e < l.next → l.ended e = true ∨ e ∈ es
  returned : l.calls k = some .returned → ∀ e, e < l.next → l.ended e = true

/-- A sweep that does not go on loses nothing. -/
theorem Sweeps.keep (h : Sweeps l k) (hk : l.Keeps l') (hn : l.nextCall ≤ l'.nextCall)
    (hc : l'.calls k = l.calls k) : Sweeps l' k where
  draining := hk.draining h.draining
  call := by have := h.call; omega
  calling es hes e he := by
    rw [hk.next h.draining] at he
    exact (h.calling es (hc ▸ hes) e he).imp_left (hk.ended e he)
  returned hr e he := by
    rw [hk.next h.draining] at he
    exact hk.ended e he (h.returned (hc ▸ hr) e he)

/-- **Every step keeps a sweep.** -/
theorem Sweeps.step {a : GateAction} (hl : l.Sound) (h : Sweeps l k) (hs : GateSteps l a l') :
    Sweeps l' k := by
  have hkeep := hs.keeps
  have hother : ∀ {i c}, k ≠ i → (l.goto i c).calls k = l.calls k := fun hne => by
    simp [Gate.goto, Function.update_of_ne hne]
  cases hs with
  | cancelWork =>
    have hne : k ≠ l.nextCall := by have := h.call; omega
    exact h.keep hkeep (by simp [Gate.cancelWork])
      (by simp [Gate.cancelWork, Function.update_of_ne hne])
  | @cancelled i order hi =>
    by_cases hki : k = i
    · subst hki
      exact ⟨h.draining, h.call, fun es hes => by simp [Gate.goto] at hes,
        fun hr => by simp [Gate.goto] at hr⟩
    · exact h.keep hkeep le_rfl (hother hki)
  | @collected i order hi ho =>
    by_cases hki : k = i
    · subst hki
      refine ⟨h.draining, h.call, fun es hes e he => ?_, fun hr => by simp [Gate.goto] at hr⟩
      simp only [Gate.goto, Function.update_self, Option.some.injEq, Cancelling.calling.injEq] at hes
      subst hes
      -- Who is not in has left, and leaving ends the context.
      by_cases hleft : l.leaving e = .left
      · exact .inl (hl.ended e (.inr hleft))
      · have hin := (hl.active_iff e).2 ⟨he, hleft⟩
        rw [← ho, List.mem_toFinset] at hin
        exact .inr hin
    · exact h.keep hkeep le_rfl (hother hki)
  | @calling i e₀ order es₀ hi =>
    by_cases hki : k = i
    · subst hki
      refine ⟨h.draining, h.call, fun es hes e he => ?_, fun hr => by simp [Gate.goto] at hr⟩
      simp only [Gate.goto, Function.update_self, Option.some.injEq, Cancelling.calling.injEq] at hes
      subst hes
      rcases h.calling _ hi e he with hend | hmem
      · exact .inl ((l.keeps_cancel e₀).ended e he hend)
      · rcases List.mem_cons.1 hmem with rfl | hmem
        · exact .inl (by simp [Gate.goto, Gate.cancel])
        · exact .inr hmem
    · exact h.keep hkeep le_rfl (hother hki)
  | @returned i order hi =>
    by_cases hki : k = i
    · subst hki
      refine ⟨h.draining, h.call, fun es hes => by simp [Gate.goto] at hes, fun _ e he => ?_⟩
      rcases h.calling _ hi e he with hend | hmem
      · exact hend
      · cases hmem
    · exact h.keep hkeep le_rfl (hother hki)
  | _ => exact h.keep hkeep le_rfl rfl

/-! ## Over a run -/

/-- Whose gate it is. -/
inductive Server where
  | coordinator
  | worker
  deriving DecidableEq, Repr

/-- `coordinatorLifecycle`, `workerLifecycle`. -/
def lifecycle : Server → System Gate GateAction
  | .coordinator => coordinatorLifecycle
  | .worker => workerLifecycle

variable {who : Server}

theorem gateSteps (r : (lifecycle who).Run) (n : ℕ) :
    GateSteps (r.state n) (r.act n) (r.state (n + 1)) := by
  cases who with
  | coordinator => exact gateSteps_of_step (r.next n)
  | worker => exact gateSteps_of_step (r.next n)

theorem sound (r : (lifecycle who).Run) (n : ℕ) : (r.state n).Sound := by
  induction n with
  | zero =>
    have h0 : r.state 0 = newGate := by
      cases who with
      | coordinator => exact r.start
      | worker => exact r.start
    rw [h0]
    exact .newGate
  | succ n ih => exact ih.step (gateSteps r n)

theorem keeps (r : (lifecycle who).Run) {m n : ℕ} (h : m ≤ n) :
    (r.state m).Keeps (r.state n) :=
  r.rel_of_le (R := Gate.Keeps) (fun _ => Gate.keeps_rfl) (fun _ _ _ h h' => h.trans h')
    (fun n => (gateSteps r n).keeps) h

/-- **A call of `cancelWork` behind a `beginShutdown`**, from its beginning on. -/
theorem sweeps (r : (lifecycle who).Run) {n m : ℕ} (hd : (r.state n).draining = true)
    (hact : r.act n = .cancelWork) (hm : n < m) : Sweeps (r.state m) (r.state n).nextCall := by
  induction m with
  | zero => omega
  | succ m ih =>
    rcases Nat.eq_or_lt_of_le (Nat.lt_succ_iff.1 hm) with rfl | hlt
    · have hs := gateSteps r n
      rw [hact] at hs
      generalize r.state (n + 1) = l' at hs
      cases hs with
      | same ha => exact absurd rfl ha
      | cancelWork =>
        exact ⟨hd, by simp [Gate.cancelWork], fun es hes => by simp [Gate.cancelWork] at hes,
          fun hr => by simp [Gate.cancelWork] at hr⟩
    · exact (ih hlt).step (sound r m) (gateSteps r m)

theorem draining_of_beginShutdown (r : (lifecycle who).Run) {m n : ℕ}
    (hact : r.act m = .beginShutdown) (hn : m < n) : (r.state n).draining = true := by
  have hstep : (r.state m).step .beginShutdown = some (r.state (m + 1)) := by
    cases who with
    | coordinator => exact hact ▸ r.next m
    | worker => exact hact ▸ r.next m
  have hdrain : (r.state (m + 1)).draining = true := by
    simp only [Gate.step, Gate.beginShutdown, Option.some.injEq] at hstep
    rw [← hstep]
    by_cases hd : (r.state m).draining = true
    · rw [if_pos hd]
      exact hd
    · rw [if_neg hd]
  exact (keeps r hn).draining hdrain

/-- The request `e` was admitted and has not left. -/
def Gate.Active (l : Gate) (e : ℕ) : Prop := e < l.next ∧ l.leaving e ≠ .left

/-- **The admission gate**, of the coordinator and of the worker. `done` is not
closed twice; it is closed exactly where the gate drains and no request is
active; from where it drains no request is admitted; and once a call of
`cancelWork` that came behind a `beginShutdown` has returned, every request
that was admitted has a cancelled context or has left. -/
theorem admission_gate (who : Server) (r : (lifecycle who).Run) :
    (∀ n, (r.state n).done ≠ .panicked) ∧
    (∀ n, (r.state n).done = .closed ↔
      (r.state n).draining = true ∧ ∀ e, ¬ (r.state n).Active e) ∧
    (∀ m n b, (r.state m).draining = true → m ≤ n → r.act n = .tryEnter b →
      ((r.state n).tryEnter b).1 = none ∧ r.state (n + 1) = r.state n) ∧
    ∀ m n k, r.act m = .beginShutdown → m < n → r.act n = .cancelWork → n < k →
      (r.state k).calls (r.state n).nextCall = some .returned →
      ∀ e, e < (r.state k).next → (r.state k).ended e = true ∨ (r.state k).leaving e = .left := by
  refine ⟨fun n hp => ?_, fun n => ?_, fun m n b hd hmn hact => ?_,
    fun m n k hm hmn hn hnk hret e he => ?_⟩
  · have hdone := (sound r n).done_eq
    rw [hp] at hdone
    split_ifs at hdone
  · have h := sound r n
    have hempty : (r.state n).active = ∅ ↔ ∀ e, ¬ (r.state n).Active e := by
      rw [Finset.eq_empty_iff_forall_notMem]
      exact forall_congr' fun e => not_congr (h.active_iff e)
    rw [h.done_eq, ← hempty]
    split_ifs with hc
    · simp [hc]
    · simp [hc]
  · have hdn := (keeps r hmn).draining hd
    have hstep : (r.state n).step (.tryEnter b) = some (r.state (n + 1)) := by
      cases who with
      | coordinator => exact hact ▸ r.next n
      | worker => exact hact ▸ r.next n
    have hrefused : (r.state n).tryEnter b = (none, r.state n) := if_pos hdn
    simp only [Gate.step, hrefused, Option.some.injEq] at hstep
    exact ⟨by rw [hrefused], hstep.symm⟩
  · have hdrain := draining_of_beginShutdown r hm hmn
    exact .inl ((sweeps r hdrain hn hnk).returned hret e he)

/-- One request leaves by itself, one is cancelled, and one comes too late. -/
def gateScript : List GateAction :=
  [.tryEnter false, .tryEnter false, .leave 0, .leave 0, .leaveStep 0, .leaveStep 0,
    .beginShutdown, .tryEnter false, .beginShutdown, .cancelWork, .cancelWorkStep 0 [],
    .cancelWorkStep 0 [1], .cancelWorkStep 0 [], .cancelWorkStep 0 [], .leave 1, .leaveStep 1,
    .leaveStep 1]

theorem plays_gateScript : (lifecycle .coordinator).plays newGate gateScript = true := by
  decide +kernel

theorem admission_gate_drained : ∃ r : (lifecycle .coordinator).Run,
    r.act 6 = .beginShutdown ∧ r.act 9 = .cancelWork ∧
      (r.state 14).calls (r.state 9).nextCall = some .returned ∧
      ((r.state 14).ended 1 = true ∨ (r.state 14).leaving 1 = .left) ∧
      (r.state 17).done = .closed := by
  have h14 : ((lifecycle .coordinator).play newGate gateScript 14).calls
      ((lifecycle .coordinator).play newGate gateScript 9).nextCall = some .returned := by
    decide +kernel
  have hnext : 1 < ((lifecycle .coordinator).play newGate gateScript 14).next := by decide +kernel
  have h17 : ((lifecycle .coordinator).play newGate gateScript 17).done = .closed := by
    decide +kernel
  have h := admission_gate .coordinator
    (.ofScript newGate gateScript .idle (fun _ => rfl) rfl plays_gateScript)
  exact ⟨_, rfl, rfl, h14, h.2.2.2 6 9 14 rfl (by omega) rfl (by omega) h14 1 hnext, h17⟩

end Lifecycle

end ZkRuntime
