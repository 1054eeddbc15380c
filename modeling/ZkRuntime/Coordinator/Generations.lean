import ZkRuntime.Coordinator.Helpers.History
/-!
# Generations

The generations `publishAttempt` returns for a job increase over a whole
run, whatever fails and however often the process dies: the store keeps
the last one, and nothing that is written in between lowers it.
-/

namespace ZkRuntime

namespace Coordinator

variable {isPrint : ℕ → Bool} (r : (coordinator isPrint).Run)

/-- `publishAttempt` returns `a` for the job `j` in the step `n`. -/
def PublishesAt (n : ℕ) (j : JobID) (a : AttemptID) : Prop :=
  ∃ sid x w m, TakesAt r n sid x .go m ∧ x.pc = .publishSave w a ∧ x.jobID = j

/-- The attempt `a` of the job `j` is dispatched in the step `n`. -/
def DispatchesAt (n : ℕ) (j : JobID) (a : AttemptID) : Prop :=
  ∃ sid x w m, TakesAt r n sid x .go m ∧ x.pc = .spawn w a ∧ x.jobID = j

/-- The store has the attempt `a` of the job `j` as `Running`. -/
def RunningAt (s : State) (j : JobID) (a : AttemptID) : Prop :=
  ∃ row, s.store.load j = some row ∧ row.state = .running ∧ row.attemptID = a

variable {r} {j : JobID} {a b : AttemptID} {m n : ℕ}

/-- A publication stores what it returns. -/
theorem PublishesAt.running (h : PublishesAt r n j a) : RunningAt (r.state (n + 1)) j a := by
  obtain ⟨sid, x, w, mv, ht, hpc, rfl⟩ := h
  have hmoves := ht.took.moves
  obtain ⟨effect, events, next⟩ := mv
  have hload : (r.state (n + 1)).store.load x.jobID =
      ((r.state n).apply x.jobID effect).store.load x.jobID := by rw [ht.took.eq]; rfl
  dsimp only at hmoves
  cases hmoves with
  | @published w' b h =>
    rw [hpc] at h
    cases h
    exact ⟨_, hload.trans (Store.load_save_self _ (x.record .running a w)), rfl, rfl⟩
  | _ => simp_all [Pc.readsContext, Pc.attempt]

/-- What a publication returns is above what was stored. -/
theorem PublishesAt.gt (hc : ClearRun r) (h : PublishesAt r n j a) {row : JobRecord}
    (hrow : (r.state n).store.load j = some row) : row.attemptID < a := by
  obtain ⟨sid, x, w, mv, ht, hpc, rfl⟩ := h
  have htr := (tracked r n).tracks ht.took.live
  simp only [Tracks, hpc] at htr
  have hgt := (nextAttempt_gt (hc n) (behind r hc n) x.jobID).1
  rw [← htr] at hgt
  simpa [stored, hrow] using hgt

/-- **Generations increase.** -/
theorem PublishesAt.lt (hc : ClearRun r) (hmn : m < n) (hm : PublishesAt r m j a)
    (hn : PublishesAt r n j b) : a < b := by
  obtain ⟨row, hrow, -, rfl⟩ := hm.running
  obtain ⟨row', hrow', hle⟩ := stored_mono r hc (show m + 1 ≤ n by omega) hrow
  exact Int64.lt_of_le_of_lt hle (hn.gt hc hrow')

/-- A dispatch comes from a publication, and its session waits to dispatch
from then on. -/
theorem DispatchesAt.published (h : DispatchesAt r n j a) :
    ∃ m sid w, m < n ∧ PublishesAt r m j a ∧
      ∀ k, m < k → k ≤ n → ∃ z, (r.state k).sessions sid = some z ∧ z.pc = .spawn w a ∧
        z.jobID = j := by
  obtain ⟨sid, x, w, mv, ht, hpc, rfl⟩ := h
  obtain ⟨k, y, c, m', y', hkn, hty, hnext, -, hqy', hl⟩ := exists_move r
    (Q := fun z => z.pc = .spawn w a ∧ z.jobID = x.jobID) (fun _ _ => Iff.rfl)
    (fun a' z hb => by cases hb <;> simp [State.submitSession, State.recoverySession])
    ht.took.live ⟨hpc, rfl⟩
  refine ⟨k, sid, w, hkn, ?_, hl⟩
  have hmoves := hty.took.moves
  rw [hnext] at hmoves
  obtain ⟨effect, events, next⟩ := m'
  dsimp only at hmoves hnext
  cases hmoves with
  | published h =>
    obtain ⟨hq1, hq2⟩ := hqy'
    simp only [Pc.spawn.injEq] at hq1
    obtain ⟨rfl, rfl⟩ := hq1
    exact ⟨sid, y, _, _, hty, h, hq2⟩
  | _ => simp [Session.goto, Session.retry, Session.repairAborted] at hqy'

/-- A session that dispatches moves on to wait for the result. -/
theorem DispatchesAt.moved {sid : SessionID} {x : Session} {w : WorkerInfo} {mv : Move}
    (ht : TakesAt r n sid x .go mv) (hpc : x.pc = .spawn w a) {z : Session}
    (hz : (r.state (n + 1)).sessions sid = some z) : ∀ w' b, z.pc ≠ .spawn w' b := by
  intro w' b hzpc
  rw [ht.took.eq, sessions_advance_self] at hz
  have hmoves := ht.took.moves
  rw [hz] at hmoves
  generalize mv.effect = e at hmoves
  cases hmoves with
  | spawned h => simp [Session.goto] at hzpc
  | _ => simp_all [Pc.readsContext, Pc.attempt]

/-- **No attempt is dispatched twice.** -/
theorem DispatchesAt.not_lt (hc : ClearRun r) (hm : DispatchesAt r m j a)
    (hn : DispatchesAt r n j a) : ¬ m < n := by
  intro hmn
  obtain ⟨p, sid, w, hpn, hp, hl⟩ := hn.published
  obtain ⟨q, -, -, hqm, hq, -⟩ := hm.published
  rcases Nat.lt_or_ge q p with hqp | hqp
  · exact absurd (hq.lt hc hqp hp) Int64.lt_irrefl
  · -- The session of the second dispatch has been waiting since before the first one.
    obtain ⟨z, hz, hzpc, hzj⟩ := hl m (by omega) (by omega)
    obtain ⟨sid', x, w', mv, ht, hpc, hxj⟩ := hm
    obtain rfl := (tracked r m).owned.unique ht.took.live hz (hxj.trans hzj.symm)
    obtain ⟨z', hz', hzpc', -⟩ := hl (m + 1) (by omega) (by omega)
    exact DispatchesAt.moved ht hpc hz' _ _ hzpc'

/-- **The generations of a job over a run.** In a run whose store stays
clear of the last 64-bit integer: `publishAttempt` returns increasing
generations, no attempt is dispatched twice, a stored generation never
decreases, a dispatched attempt was stored as `Running` before, and the
generation in memory is at most the stored one. -/
theorem generations (r : (coordinator isPrint).Run) (hc : ClearRun r) (j : JobID) :
    (∀ m n a b, m < n → PublishesAt r m j a → PublishesAt r n j b → a < b) ∧
    (∀ m n a, DispatchesAt r m j a → DispatchesAt r n j a → m = n) ∧
    (∀ m n row, m ≤ n → (r.state m).store.load j = some row →
      ∃ row', (r.state n).store.load j = some row' ∧ row.attemptID ≤ row'.attemptID) ∧
    (∀ n a, DispatchesAt r n j a → ∃ m, m < n ∧ PublishesAt r m j a ∧
      ∀ k, m < k → k ≤ n → RunningAt (r.state k) j a) ∧
    (∀ n a, (r.state n).jobAttempts j = some a →
      ∃ row, (r.state n).store.load j = some row ∧ a ≤ row.attemptID) := by
  refine ⟨fun m n a b hmn hm hn => hm.lt hc hmn hn, fun m n a hm hn => ?_,
    fun m n row hmn hrow => stored_mono r hc hmn hrow, fun n a hn => ?_,
    fun n a ha => (behind r hc n j a ha).2⟩
  · rcases Nat.lt_trichotomy m n with hlt | heq | hgt
    · exact absurd hlt (hm.not_lt hc hn)
    · exact heq
    · exact absurd hgt (hn.not_lt hc hm)
  · obtain ⟨m, sid, w, hmn, hm, hl⟩ := hn.published
    refine ⟨m, hmn, hm, fun k h1 h2 => ?_⟩
    obtain ⟨z, hz, hzpc, rfl⟩ := hl k h1 h2
    have htr := (tracked r k).tracks hz
    simp only [Tracks, hzpc] at htr
    exact ⟨_, htr.row, rfl, rfl⟩

/-! ## Runs of scripts

A submission whose first worker call fails, and whose second attempt is
accepted: the hypothesis on the run is met, and two generations are
published in it. -/

/-- Printable ASCII. -/
def asciiPrint (c : ℕ) : Bool := 0x20 ≤ c && c < 0x7F

/-- No process, and a store. -/
def offline (st : Store) : State where
  store := st
  now := 0
  phase := .down
  config := ⟨false, none, 0⟩
  mu := none
  registry := .empty
  jobAttempts := fun _ => none
  leases := fun _ => none
  activeJobs := ∅
  sessions := fun _ => none
  nextSession := 0
  dispatches := fun _ => none
  nextDispatch := 0

/-- The run of a script over a store. -/
def scripted (st : Store) (as : List Action)
    (h : (coordinator asciiPrint).plays (offline st) as = true) : (coordinator asciiPrint).Run :=
  .ofScript (offline st) as (.tick 0) (fun _ => rfl) rfl h

/-- No state the script passes through has the last generation stored. -/
def scriptClear (st : Store) (as : List Action) : Bool :=
  ((coordinator asciiPrint).trail (offline st) as).all fun s =>
    s.store.rows.all fun row => row.attemptID != Int64.maxValue

theorem clearRun_scripted {st : Store} {as : List Action}
    (h : (coordinator asciiPrint).plays (offline st) as = true) (hc : scriptClear st as = true) :
    ClearRun (scripted st as h) := by
  intro n j row hrow
  have hs := List.all_eq_true.1 hc _ (System.play_mem_trail as (offline st) n)
  have hr := List.all_eq_true.1 hs row (Store.mem_of_load hrow)
  simpa using hr

/-- What a session of a script is, by what it evaluates to. -/
theorem session_scripted {β : Type} {st : Store} {as : List Action}
    {h : (coordinator asciiPrint).plays (offline st) as = true} {n : ℕ} {sid : SessionID}
    {x : Session} (hx : ((scripted st as h).state n).sessions sid = some x) (f : Session → β) (v : β)
    (hv : (((coordinator asciiPrint).play (offline st) as n).sessions sid).map f = some v) :
    f x = v := by
  have hlive : ((coordinator asciiPrint).play (offline st) as n).sessions sid = some x := hx
  rw [hlive] at hv
  exact Option.some.inj hv

/-- What a session of a script is about to do. -/
theorem takesAt_scripted {st : Store} {as : List Action}
    (h : (coordinator asciiPrint).plays (offline st) as = true) (n : ℕ) (sid : SessionID)
    (c : Choice) (pc : Pc) (spec : JobSpec) (ha : as.getD n (.tick 0) = .session sid c)
    (hx : (((coordinator asciiPrint).play (offline st) as n).sessions sid).map
      (fun x => (x.pc, x.spec)) = some (pc, spec)) :
    ∃ x m, TakesAt (scripted st as h) n sid x c m ∧ x.pc = pc ∧ x.spec = spec := by
  obtain ⟨x, m, ht⟩ := takesAt_of_act (scripted st as h) ha
  have hval := session_scripted ht.took.live _ _ hx
  simp only [Prod.mk.injEq] at hval
  exact ⟨x, m, ht, hval⟩

def exampleWorker : WorkerInfo := ⟨ascii "w", ascii "127.0.0.1:7001", 0, .alive⟩

/-- A process starts over a store without `Running` rows, and a worker
registers. -/
def startupWith (cfg : Config) : List Action :=
  [.boot cfg, .checkDisabledZK false, .listRunning (some []), .serve,
    .registerWorker exampleWorker.id exampleWorker.address]

def startup : List Action := startupWith ⟨false, none, 0⟩

def exampleRequest : SubmitJobRequest := ⟨7, ascii "hash", ascii "abc", 1000⟩

def exampleSpec : JobSpec := jobSpecFromRequest exampleRequest

/-- From the head of the attempt loop to the dispatch. -/
def attemptScript (sid : SessionID) : List Action := List.replicate 5 (.session sid .go)

/-- A worker's answer. -/
def answer (status : String) (a : AttemptID) : DispatchResult :=
  ⟨some ⟨7, ascii status, ascii "ok", [], a⟩, false⟩

def retryScript : List Action :=
  startup ++ [.submit exampleRequest none, .session 0 .go, .session 0 .go] ++ attemptScript 0 ++
    [.deliver 0 ⟨none, true⟩, .session 0 .result, .session 0 .go] ++ attemptScript 0 ++
    [.deliver 1 (answer "SUCCEEDED" 2), .session 0 .result] ++ List.replicate 6 (.session 0 .go)

theorem plays_retryScript :
    (coordinator asciiPrint).plays (offline .empty) retryScript = true := by decide +kernel

theorem generations_retry :
    ∃ r : (coordinator asciiPrint).Run, ClearRun r ∧ PublishesAt r 11 7 1 ∧ PublishesAt r 19 7 2 ∧
      (1 : AttemptID) < 2 := by
  have hc : ClearRun (scripted .empty retryScript plays_retryScript) :=
    clearRun_scripted _ (by decide +kernel)
  have h1 : PublishesAt (scripted .empty retryScript plays_retryScript) 11 7 1 := by
    obtain ⟨x, m, ht, hpc, hspec⟩ := takesAt_scripted plays_retryScript 11 0 .go
      (.publishSave exampleWorker 1) exampleSpec rfl (by decide +kernel)
    exact ⟨0, x, _, m, ht, hpc, congrArg JobSpec.jobID hspec⟩
  have h2 : PublishesAt (scripted .empty retryScript plays_retryScript) 19 7 2 := by
    obtain ⟨x, m, ht, hpc, hspec⟩ := takesAt_scripted plays_retryScript 19 0 .go
      (.publishSave exampleWorker 2) exampleSpec rfl (by decide +kernel)
    exact ⟨0, x, _, m, ht, hpc, congrArg JobSpec.jobID hspec⟩
  exact ⟨_, hc, h1, h2, (generations _ hc 7).1 11 19 1 2 (by omega) h1 h2⟩

end Coordinator

end ZkRuntime
