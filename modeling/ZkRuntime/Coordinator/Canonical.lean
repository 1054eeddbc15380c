import ZkRuntime.Coordinator.Durability
/-!
# Raw preimage payloads do not spread

The store may hold any legacy rows, and some of the seven places that save
a record save one they loaded. Still every record the coordinator saves and
every request it dispatches has a canonical specification: what is loaded
and saved again is at the generation in memory, which the coordinator
itself stored.
-/

namespace ZkRuntime

namespace Coordinator

variable {isPrint : ℕ → Bool} {s s' : State} {x x' : Session} {c : Choice} {e : Effect}

/-- The places of `executeJobFromSource` behind its checks. -/
@[grind] def Pc.entered : Pc → Bool
  | .loop | .pick | .publishLoad _ | .publishSave .. | .spawn .. | .select _ | .received ..
  | .fence .. | .verify .. | .accept .. | .commit .. | .exhausted => true
  | _ => false

/-- Behind the checks the specification is canonical. -/
@[grind] def Checked (x : Session) : Prop := x.pc.entered = true → x.spec.Canonical

theorem entered_of_attempt {att : Attempt} (h : x.pc.attempt = some att) : x.pc.entered = true := by
  cases hpc : x.pc <;> simp_all [Pc.attempt, Pc.entered]

/-- A session gets behind the checks by passing them, and stays there with
its specification, saving nothing but new generations. -/
theorem Moves.entered_cases (h : Moves isPrint s x c e (some x')) (hpc : x'.pc.entered = true) :
    (x.pc = .enter ∧ validateJobSpec x.spec = .ok x'.spec ∧ e = .silent) ∨
      (x.pc.entered = true ∧ x'.spec = x.spec ∧
        (e.record? = none ∨ ∃ w a, e = .publish (x.record .running a w))) := by
  cases h with
  | entered h hzk hv => exact .inl ⟨h, hv, rfl⟩
  | retried h => exact .inr ⟨entered_of_attempt h, rfl, .inl rfl⟩
  | loop_on h => exact .inr ⟨by simp [h, Pc.entered], rfl, .inl rfl⟩
  | loop_over h => exact .inr ⟨by simp [h, Pc.entered], rfl, .inl rfl⟩
  | pick_some h => exact .inr ⟨by simp [h, Pc.entered], rfl, .inl rfl⟩
  | pick_none h => exact .inr ⟨by simp [h, Pc.entered], rfl, .inl rfl⟩
  | publishLoaded h => exact .inr ⟨by simp [h, Pc.entered], rfl, .inl rfl⟩
  | published h => exact .inr ⟨by simp [h, Pc.entered], rfl, .inr ⟨_, _, rfl⟩⟩
  | spawned h => exact .inr ⟨by simp [h, Pc.entered], rfl, .inl rfl⟩
  | selected h => exact .inr ⟨by simp [h, Pc.entered], rfl, .inl rfl⟩
  | answered h => exact .inr ⟨by simp [h, Pc.entered], rfl, .inl rfl⟩
  | fenced h => exact .inr ⟨by simp [h, Pc.entered], rfl, .inl rfl⟩
  | verified h => exact .inr ⟨by simp [h, Pc.entered], rfl, .inl rfl⟩
  | accepted h => exact .inr ⟨by simp [h, Pc.entered], rfl, .inl rfl⟩
  | _ => simp [Session.goto, Session.repairAborted, Pc.entered] at hpc

theorem Checked.move (h : Moves isPrint s x c e (some x')) (hx : Checked x) : Checked x' := by
  intro hpc
  rcases h.entered_cases hpc with ⟨-, hv, -⟩ | ⟨hpc', hspec, -⟩
  · exact canonical_of_validateJobSpec hv
  · rw [hspec]
    exact hx hpc'

variable {r : (coordinator isPrint).Run} {n : ℕ} {sid : SessionID}

theorem checked (hx : (r.state n).sessions sid = some x) : Checked x :=
  session_invariant (P := fun _ x => Checked x) (fun h _ _ _ => h) (fun _ _ h hm => h.move hm)
    (fun _ _ _ _ hpc => by cases hpc) (fun _ _ _ hpc => by cases hpc) (fun _ h => h) r n hx

/-! ## The rows of the coordinator's own generations -/

/-- A row at the generation in memory is canonical. -/
def Kept (s : State) : Prop :=
  ∀ j a row, s.jobAttempts j = some a → s.store.load j = some row → row.attemptID = a →
    (jobSpecFromRecord row).Canonical

/-- Marking makes a row canonical. -/
theorem canonical_recoveringRow {row : JobRecord} {spec : JobSpec}
    (hv : validateJobSpec (jobSpecFromRecord row) = .ok spec) :
    (jobSpecFromRecord (State.recoveringRow row spec)).Canonical := by
  have heq : jobSpecFromRecord (State.recoveringRow row spec) = spec := by
    have h1 := jobID_of_validateJobSpec hv
    have h2 := taskType_of_validateJobSpec hv
    have h3 := timeoutMs_of_validateJobSpec hv
    cases spec
    simp_all [jobSpecFromRecord, State.recoveringRow]
  rw [heq]
  exact canonical_of_validateJobSpec hv

/-- **Every record a session saves is canonical.** -/
theorem Writes.canonical {row : JobRecord} (hw : Writes s x row) (hx : Checked x) (hk : Kept s) :
    (jobSpecFromRecord row).Canonical := by
  cases hw with
  | publish h => exact hx (by simp [h, Pc.entered])
  | commit h => exact hx (by simp [h, Pc.entered])
  | close hr =>
    have hcan := hk _ _ _ hr.memory hr.row rfl
    exact hcan

theorem kept (r : (coordinator isPrint).Run) (n : ℕ) : Kept (r.state n) := by
  induction n with
  | zero =>
    have h0 : r.state 0 = (r.state 0).restart .down (r.state 0).config := r.start
    intro j a row ha
    rw [h0] at ha
    simp [State.restart] at ha
  | succ n ih =>
    intro j a row ha hrow hatt
    have hold : ∀ row', (r.state n).store.load j = some row' → row' = row →
        (r.state n).jobAttempts j = some a → (jobSpecFromRecord row).Canonical := by
      rintro row' h1 rfl h2
      exact ih j a row' h2 h1 hatt
    rcases load_of_saveCall r n j with heq | ⟨row', hs, hj, hrow'⟩
    · -- The row is the old one; a publication would have written it.
      rcases memory_of_step (steps_of_step (r.next n)) ha with hmem | ⟨sid, x, w, -, hx, hpc, hj, hl⟩
      · rw [heq] at hrow
        exact hold row hrow rfl hmem
      · rw [hrow] at hl
        cases hl
        exact checked hx (by simp [hpc, Pc.entered])
    · rw [hrow] at hrow'
      cases hrow'
      cases hs with
      | session ht he => exact (ht.writes he).canonical (checked ht.took.live) ih
      | startup _ _ hv => exact canonical_recoveringRow hv

/-- **Every record that is saved is canonical.** -/
theorem SaveCall.canonical {row : JobRecord} (hs : SaveCall r n row) :
    (jobSpecFromRecord row).Canonical := by
  cases hs with
  | session ht he => exact (ht.writes he).canonical (checked ht.took.live) (kept r n)
  | startup _ _ hv => exact canonical_recoveringRow hv

variable (r) in
/-- The step `n` dispatches the request. -/
def DispatchCall (n : ℕ) (req : ExecuteJobRequest) : Prop :=
  ∃ sid x c m w, TakesAt r n sid x c m ∧ m.effect = .dispatch w req

/-- Who dispatches is behind the checks. -/
theorem TakesAt.of_dispatch {m : Move} {w : WorkerInfo} {req : ExecuteJobRequest}
    (ht : TakesAt r n sid x c m) (he : m.effect = .dispatch w req) :
    ∃ a, x.pc = .spawn w a ∧ req = x.request a := by
  have hmoves := ht.took.moves
  rw [he] at hmoves
  generalize m.next = next at hmoves
  cases hmoves with
  | spawned h => exact ⟨_, h, rfl⟩

/-- **Every request that is dispatched is canonical.** -/
theorem DispatchCall.canonical {req : ExecuteJobRequest} (h : DispatchCall r n req) :
    JobSpec.Canonical ⟨req.jobID, req.taskType, req.payload, req.timeoutMs⟩ := by
  obtain ⟨sid, x, c, m, w, ht, he⟩ := h
  obtain ⟨a, hpc, rfl⟩ := ht.of_dispatch he
  exact checked ht.took.live (by simp [hpc, Pc.entered])

/-! ## Invalid rows -/

/-- The store has a row of the job with a valid specification. -/
def ValidRow (s : State) (j : JobID) : Prop :=
  ∃ row spec, s.store.load j = some row ∧ validateJobSpec (jobSpecFromRecord row) = .ok spec

/-- A recovery executes the row it found, and behind the checks that row
was valid. -/
structure Recovers (s : State) (x : Session) : Prop where
  found : x.source.isRecovery = true → x.pc = .readInitial ∨ x.pc = .enter →
    ∃ row, s.store.load x.jobID = some row ∧ x.spec = jobSpecFromRecord row
  valid : x.source.isRecovery = true → x.pc.entered = true → ValidRow s x.jobID

theorem framed_recovers : Framed Recovers := fun h ha _ _ => by
  refine ⟨fun hsrc hpc => ?_, fun hsrc hpc => ?_⟩
  · rw [ha.row]
    exact h.found hsrc hpc
  · unfold ValidRow
    rw [ha.row]
    exact h.valid hsrc hpc

theorem Recovers.move (h : Moves isPrint s x c e (some x')) (hx : Recovers s x) (hc : Checked x) :
    Recovers (s.apply x.jobID e) x' := by
  refine ⟨fun hsrc hpc => ?_, fun hsrc hpc => ?_⟩
  · rw [h.source_eq] at hsrc
    rw [h.jobID_eq]
    cases h with
    | reload_current h hr => exact ⟨_, hr, rfl⟩
    | initial h => exact hx.found hsrc (.inl h)
    | _ => simp [Session.goto, Session.retry, Session.repairAborted] at hpc
  · rw [h.source_eq] at hsrc
    have hj := h.jobID_eq
    rw [hj]
    rcases h.entered_cases hpc with ⟨hpc', hv, rfl⟩ | ⟨hpc', hspec, he | ⟨w, a, rfl⟩⟩
    · obtain ⟨row, hrow, hspec⟩ := hx.found hsrc (.inr hpc')
      exact ⟨row, _, hrow, hspec ▸ hv⟩
    · obtain ⟨row, spec, hrow, hv⟩ := hx.valid hsrc hpc'
      refine ⟨row, spec, ?_, hv⟩
      rcases load_apply (s := s) (e := e) (j := x.jobID) (k := x.jobID) with hl | ⟨row', he', -⟩
      · rw [hl]
        exact hrow
      · rw [he] at he'
        cases he'
    · -- The row is the one just published.
      exact ⟨_, _, Store.load_save_self _ (x.record .running a w), hc hpc'⟩

theorem recovers (hx : (r.state n).sessions sid = some x) : Recovers (r.state n) x := by
  have h := session_invariant (P := fun s x => Recovers s x ∧ Checked x)
    (fun h ha hd hcfg => ⟨framed_recovers h.1 ha hd hcfg, h.2⟩)
    (fun _ _ h hm => ⟨h.1.move hm h.2, h.2.move hm⟩) (fun s req spec _ => ?_)
    (fun s snapshot ctxErr => ?_) (fun _ h => ⟨⟨h.1.found, h.1.valid⟩, h.2⟩) r n hx
  · exact h.1
  · exact ⟨⟨(fun hsrc => by cases hsrc), (fun hsrc => by cases hsrc)⟩, fun hpc => by cases hpc⟩
  · refine ⟨⟨fun _ hpc => ?_, fun _ hpc => by cases hpc⟩, fun hpc => by cases hpc⟩
    rcases hpc with hpc | hpc <;> cases hpc

/-- What a recovery saves over is valid. -/
theorem ValidRow.of_recovery {m : Move} {row : JobRecord} (ht : TakesAt r n sid x c m)
    (hsrc : x.source.isRecovery = true) (he : m.effect.record? = some row) :
    ValidRow (r.state n) x.jobID := by
  cases ht.writes he with
  | publish h => exact (recovers ht.took.live).valid hsrc (by simp [h, Pc.entered])
  | commit h => exact (recovers ht.took.live).valid hsrc (by simp [h, Pc.entered])
  | close hr => exact ⟨_, _, hr.row, kept r n _ _ _ hr.memory hr.row rfl⟩

/-- The budget of a canonical specification, in milliseconds, fits a
`time.Duration`. -/
theorem timeout_bounds {t : Int64} (h : validTimeout t = true) :
    1 ≤ t.toInt ∧ t.toInt ≤ (2 ^ 63 - 1) / 10 ^ 6 := by
  simp only [validTimeout, maxTaskTimeoutMs, Bool.not_eq_true', Bool.or_eq_false_iff,
    decide_eq_false_iff_not, Int64.lt_iff_toInt_lt] at h
  have h1 : (1 : Int64).toInt = 1 := by decide
  have h2 : (9223372036854 : Int64).toInt = 9223372036854 := by decide
  omega

/-- The payload of a preimage specification is a fixed point of
canonicalization, and the budget is representable. -/
def Canonicalized (payload : Bytes) (timeoutMs : Int64) : Prop :=
  (∃ v, Zk.parsePreimagePublicPayload payload = .ok v ∧ v.canonicalJSON = payload) ∧
    1 ≤ timeoutMs.toInt ∧ timeoutMs.toInt ≤ (2 ^ 63 - 1) / 10 ^ 6

/-- **Raw preimage payloads do not spread.** Over any store, every
preimage record that is saved and every preimage request that is dispatched
is canonical; and a stored row with an invalid specification is not written
over by startup, and neither written over nor dispatched by a recovery. -/
theorem canonical_only (r : (coordinator isPrint).Run) (n : ℕ) :
    (∀ row, SaveCall r n row → row.taskType = zkTaskType →
      Canonicalized row.payload row.timeoutMs) ∧
    (∀ req, DispatchCall r n req → req.taskType = zkTaskType →
      Canonicalized req.payload req.timeoutMs) ∧
    (∀ j old e, (r.state n).store.load j = some old →
      validateJobSpec (jobSpecFromRecord old) = .error e →
      (∀ c row, r.act n = .markRecovering c → SaveCall r n row → row.jobID ≠ j) ∧
      (∀ sid x c m, TakesAt r n sid x c m → x.source.isRecovery = true → x.jobID = j →
        m.effect.record? = none ∧ ∀ w req, m.effect ≠ .dispatch w req)) := by
  refine ⟨fun row hs hzk => ?_, fun req hd hzk => ?_, fun j old e hold hbad => ⟨?_, ?_⟩⟩
  · exact ⟨hs.canonical.parse hzk, timeout_bounds hs.canonical.timeout⟩
  · exact ⟨hd.canonical.parse hzk, timeout_bounds hd.canonical.timeout⟩
  · rintro c row ha hs rfl
    cases hs with
    | session ht =>
      have hact := ht.act
      rw [ha] at hact
      cases hact
    | @startup _ row' rows spec _ hp hv =>
      have hrow := ((marking r n _ hp).2 row' (by simp)).1
      have hj : (State.recoveringRow row' spec).jobID = row'.jobID := rfl
      rw [hj, hrow] at hold
      cases hold
      rw [hv] at hbad
      cases hbad
  · rintro sid x c m ht hsrc rfl
    have hinvalid : ¬ ValidRow (r.state n) x.jobID := by
      rintro ⟨row, spec, hrow, hv⟩
      rw [hold] at hrow
      cases hrow
      rw [hbad] at hv
      cases hv
    refine ⟨?_, fun w req he => ?_⟩
    · by_contra hne
      obtain ⟨row, he⟩ := Option.ne_none_iff_exists'.1 hne
      exact hinvalid (.of_recovery ht hsrc he)
    · obtain ⟨a, hpc, -⟩ := ht.of_dispatch he
      exact hinvalid ((recovers ht.took.live).valid hsrc (by simp [hpc, Pc.entered]))

/-- A legacy row whose payload is no public payload. -/
def privateRow : JobRecord :=
  ⟨7, .recovering, 3, ascii "v", zkTaskType, ascii "\x7b\"preimage\":\"35\"\x7d", 1000⟩

def privateStore : Store := ⟨[privateRow], by simp⟩

/-- A recovery of it is begun and ends. -/
def privateScript : List Action :=
  startup ++ [.recover privateRow none] ++ List.replicate 5 (.session 0 .go)

theorem plays_privateScript :
    (coordinator asciiPrint).plays (offline privateStore) privateScript = true := by decide +kernel

/-- A recovery of the legacy row at its checks. -/
theorem exists_privateStep :
    ∃ (r : (coordinator asciiPrint).Run) (x : Session) (m : Move), TakesAt r 8 0 x .go m ∧
      x.source.isRecovery = true ∧ x.jobID = 7 ∧ (r.state 8).store.load 7 = some privateRow := by
  obtain ⟨x, m, ht, -, hspec⟩ := takesAt_scripted plays_privateScript 8 0 .go .enter
    (jobSpecFromRecord privateRow) rfl (by decide +kernel)
  have hsrc := session_scripted ht.took.live (fun x => x.source.isRecovery) true (by decide +kernel)
  refine ⟨_, x, m, ht, hsrc, congrArg JobSpec.jobID hspec, ?_⟩
  show ((coordinator asciiPrint).play (offline privateStore) privateScript 8).store.load 7 =
    some privateRow
  decide +kernel

theorem canonical_only_proof :
    (∃ (r : (coordinator asciiPrint).Run) (row : JobRecord), SaveCall r 19 row ∧
      row.taskType = zkTaskType ∧ Canonicalized row.payload row.timeoutMs) ∧
    ∃ (r : (coordinator asciiPrint).Run) (x : Session) (m : Move), TakesAt r 8 0 x .go m ∧
      x.source.isRecovery = true ∧ (r.state 8).store.load x.jobID = some privateRow ∧
      m.effect.record? = none := by
  constructor
  · obtain ⟨x, m, ht, hpc, hspec⟩ := takesAt_scripted plays_proofScript 19 0 .go
      (.commit ⟨exampleWorker, 1, 0, 5000000000⟩
        ⟨7, ascii "succeeded", ascii "cHJvb2Y=", [], 1⟩ .succeeded)
      ⟨7, zkTaskType, Zk.canonicalSpelling, 1000⟩ rfl (by decide +kernel)
    have hs := SaveCall.session ht (ht.record_of_commit hpc)
    have hzk : x.spec.taskType = zkTaskType := by rw [hspec]
    exact ⟨_, _, hs, hzk, (canonical_only _ 19).1 _ hs hzk⟩
  · obtain ⟨r, x, m, ht, hsrc, hj, hrow⟩ := exists_privateStep
    obtain ⟨e, hbad⟩ : ∃ e, validateJobSpec (jobSpecFromRecord privateRow) = .error e :=
      ⟨.payload .unknownField, by decide +kernel⟩
    refine ⟨r, x, m, ht, hsrc, by rw [hj]; exact hrow, ?_⟩
    exact (((canonical_only r 8).2.2 7 privateRow e hrow hbad).2 0 x .go m ht hsrc hj).1

end Coordinator

end ZkRuntime
