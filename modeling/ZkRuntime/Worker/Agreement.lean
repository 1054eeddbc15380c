import ZkRuntime.Coordinator.Generations
import ZkRuntime.Worker.Model.Service
import ZkRuntime.Worker.Proving
/-!
# What a worker answers, and what the coordinator makes of it

The two ends of `ExecuteJob` are in different binaries. A response names
the job and the attempt of its request, the coordinator reads a status out
of every one of them, and where it is a success of a preimage task, what
the coordinator hands to `Verify` is what the worker's `Prove` was given
and returned.
-/

namespace ZkRuntime

namespace Worker

open Coordinator

/-! ## The proof of an execution -/

section

variable {t : PreimageTask} {pc pc' : Pc} {a : Answer} {answers : List Answer} {output : Bytes}

/-- From `pc` on, `Prove` is called with `secret` and `digest`, and what it
returns is the output. -/
def ProvesFrom (t : PreimageTask) (pc : Pc) (secret : Int64) (digest : Zk.FrElement)
    (answers : List Answer) (output : Bytes) : Prop :=
  ∃ before proof after, answers = before ++ .proof (.ok proof) :: after ∧
    t.moves pc before = some (.proving secret digest) ∧ output = Base64.encodeToString proof

theorem ProvesFrom.cons {secret : Int64} {digest : Zk.FrElement} (hm : t.move pc a = some pc')
    (h : ProvesFrom t pc' secret digest answers output) :
    ProvesFrom t pc secret digest (a :: answers) output := by
  obtain ⟨before, proof, after, rfl, hmoves, hout⟩ := h
  exact ⟨a :: before, proof, after, rfl, by simp [PreimageTask.moves, hm, hmoves], hout⟩

/-- What an execution that ends in `output` still has to do at a place. -/
def Produces (t : PreimageTask) (output : Bytes) (pc : Pc) (answers : List Answer) : Prop :=
  match pc with
  | .parse => ∃ p secret, Zk.parsePreimagePublicPayload t.payload = .ok p ∧
      ProvesFrom t .parse secret p.digest answers output
  | .witness ref digest => ∃ secret, ProvesFrom t (.witness ref digest) secret digest answers output
  | .select secret digest | .acquire secret digest | .acquired secret digest
  | .proving secret digest => ProvesFrom t pc secret digest answers output
  | .encode proof => output = Base64.encodeToString proof
  | .finish o => output = o
  | .release out | .returned out => out = .ok output

theorem produces_exit {out : Except TaskError Bytes}
    (h : Produces t output (t.exit out) answers) : out = .ok output := by
  rcases exit_cases t out with ⟨-, heq⟩ | ⟨-, heq⟩ <;> (rw [heq] at h; exact h)

/-- **One step back.** -/
theorem produces_step (hm : t.move pc a = some pc') (h : Produces t output pc' answers) :
    Produces t output pc (a :: answers) := by
  have hmoves := taskMoves_of_move hm
  cases hmoves with
  | malformed | unknown | ended | busy => cases h
  | ended_late | unproved | expired => cases produces_exit h
  | parsed hp => obtain ⟨secret, h⟩ := h; exact ⟨_, secret, hp, h.cons hm⟩
  | found ref digest secret => exact ⟨secret, h.cons hm⟩
  | limited | unlimited | acquired | proves => exact h.cons hm
  | proved secret digest proof => exact ⟨[], proof, answers, rfl, rfl, h⟩
  | encoded proof => exact h
  | finished o hn => exact (Except.ok.inj (produces_exit h)).symm
  | released out => exact h

theorem produces_of_moves (h : t.moves pc answers = some (.returned (.ok output))) :
    Produces t output pc answers := by
  induction answers generalizing pc with
  | nil =>
    simp only [PreimageTask.moves, Option.some.injEq] at h
    subst h
    rfl
  | cons a answers ih =>
    obtain ⟨pc', hm, hrest⟩ := Option.bind_eq_some_iff.1 h
    exact produces_step hm (ih hrest)

/-- **A preimage task that succeeds has a proof to show.** -/
theorem proves_of_execute (h : t.execute answers = some (.ok output)) :
    ∃ p secret, Zk.parsePreimagePublicPayload t.payload = .ok p ∧
      ProvesFrom t .parse secret p.digest answers output := by
  unfold PreimageTask.execute at h
  split at h
  · rename_i out hmoves
    cases h
    exact produces_of_moves hmoves
  · cases h

end

/-! ## The response -/

section

variable {w : Service} {lib : Durations} {env : Service.Env} {req : ExecuteJobRequest}
variable {resp : ExecuteJobResponse}

/-- The task `ExecuteJob` executes, where it executes one. -/
def Service.taskOf (w : Service) (lib : Durations) (req : ExecuteJobRequest) : Option Task :=
  if w.zkDisabled ∧ req.taskType = zkTaskType then none
  else
    match w.buildTask lib req.taskType req.payload with
    | .error _ => none
    | .ok task => some (limit task)

/-- **The task returned no error, before its context ended and its deadline
passed.** -/
def Service.Completes (w : Service) (lib : Durations) (env : Env) (req : ExecuteJobRequest) : Prop :=
  ∃ task out, w.taskOf lib req = some task ∧ task.execute lib env.answers = some (.ok out) ∧
    env.err = none ∧ env.now < env.deadline req.timeoutMs

/-- **In this execution `Prove` was called with `secret` and `digest` and
returned `proof`.** -/
def Service.Proves (w : Service) (lib : Durations) (env : Env) (req : ExecuteJobRequest)
    (secret : Int64) (digest : Zk.FrElement) (proof : Bytes) : Prop :=
  ∃ task before after, w.taskOf lib req = some (.preimage task) ∧
    env.answers = before ++ .proof (.ok proof) :: after ∧
    task.moves .parse before = some (.proving secret digest)

/-- **What a response can be**: a task that was not executed, one that
failed, or one that succeeded. -/
inductive Responds (w : Service) (lib : Durations) (env : Service.Env) (req : ExecuteJobRequest) :
    ExecuteJobResponse → Prop
  | refused {status error : Bytes} (hst : status = ascii "Failed" ∨ status = ascii "failed")
      (h : w.taskOf lib req = none) :
      Responds w lib env req ⟨req.jobID, status, [], error, req.attemptID⟩
  | failed {task : Task} {e : TaskError} {st : JobStatus} (hst : st = .failed ∨ st = .cancelled)
      (h : w.taskOf lib req = some task)
      (hout : task.execute lib env.answers = some (.error e) ∨
        resultContextError env.err (some (env.deadline req.timeoutMs)) env.now ≠ none) :
      Responds w lib env req ⟨req.jobID, st.text, [], e.text, req.attemptID⟩
  | succeeded {task : Task} {output : Bytes} (h : w.taskOf lib req = some task)
      (hout : task.execute lib env.answers = some (.ok output))
      (hctx : resultContextError env.err (some (env.deadline req.timeoutMs)) env.now = none) :
      Responds w lib env req
        ⟨req.jobID, JobStatus.succeeded.text, output, [], req.attemptID⟩

theorem responds_error {task : Task} {e : TaskError} (h : w.taskOf lib req = some task)
    (hout : task.execute lib env.answers = some (.error e) ∨
      resultContextError env.err (some (env.deadline req.timeoutMs)) env.now ≠ none)
    (hr : Service.respond req (errorResult req.jobID e) = .ok resp) :
    Responds w lib env req resp := by
  simp only [Service.respond, errorResult] at hr
  split at hr
  · cases hr
  · cases hr
    refine .failed ?_ h hout
    split
    · exact .inr rfl
    · exact .inl rfl

/-- **Every response is one of these.** -/
theorem responds_of_executeJob (h : w.executeJob lib env req = some (.ok resp)) :
    Responds w lib env req resp := by
  unfold Service.executeJob at h
  split at h
  · cases h
  · split at h
    · rename_i hd
      cases h
      exact .refused (.inl rfl) (by simp [Service.taskOf, hd])
    · rename_i hd
      split at h
      · rename_i e he
        cases h
        exact .refused (.inr rfl) (by simp [Service.taskOf, hd, he])
      · rename_i task htask
        have hof : w.taskOf lib req = some (Service.limit task) := by
          simp [Service.taskOf, hd, htask]
        split at h
        · cases h
        · split at h
          · cases h
          · rename_i out hout
            have hr := Option.some.inj h
            unfold Worker.executeJob at hr
            split at hr
            · exact responds_error hof (.inl hout) hr
            · split at hr
              · rename_i hctx
                exact responds_error hof (.inr (by simp [hctx])) hr
              · rename_i hctx
                cases hr
                exact .succeeded hof hout hctx

theorem resultContextError_eq_none {err : Option ContextError} {d now : ℕ} :
    resultContextError err (some d) now = none ↔ err = none ∧ now < d := by
  cases err with
  | some e => simp [resultContextError]
  | none => simp [resultContextError]

/-- The statuses a worker writes. -/
theorem jobStateFromStatus_texts : jobStateFromStatus (ascii "Succeeded") = some .succeeded ∧
    jobStateFromStatus (ascii "Failed") = some .failed ∧ jobStateFromStatus (ascii "failed") = some .failed ∧
    jobStateFromStatus (ascii "Cancelled") = some .cancelled := by
  decide +kernel

theorem jobStateFromStatus_failed {status : Bytes}
    (h : status = ascii "Failed" ∨ status = ascii "failed") :
    jobStateFromStatus status = some .failed := by
  obtain ⟨-, hfailed, hlower, -⟩ := jobStateFromStatus_texts
  rcases h with rfl | rfl
  · exact hfailed
  · exact hlower

/-- **The coordinator reads every status.** -/
theorem Responds.status (h : Responds w lib env req resp) :
    ∃ st, jobStateFromStatus resp.status = some st ∧
      (st = .succeeded ↔ w.Completes lib env req) ∧ (st ≠ .succeeded → resp.output = []) := by
  cases h with
  | refused hst hnone =>
    refine ⟨.failed, jobStateFromStatus_failed hst, ⟨nofun, ?_⟩, fun _ => rfl⟩
    rintro ⟨task, out, htask, -⟩
    rw [hnone] at htask
    cases htask
  | @failed task e st hst htask hout =>
    have hnot : ¬ w.Completes lib env req := by
      rintro ⟨task', out, htask', hout', herr, hnow⟩
      rw [htask] at htask'
      cases htask'
      rcases hout with hout | hctx
      · rw [hout] at hout'
        cases hout'
      · exact hctx (resultContextError_eq_none.2 ⟨herr, hnow⟩)
    have hcases : ∃ s, jobStateFromStatus st.text = some s ∧ s ≠ .succeeded := by
      rcases hst with rfl | rfl
      · exact ⟨.failed, jobStateFromStatus_texts.2.1, nofun⟩
      · exact ⟨.cancelled, jobStateFromStatus_texts.2.2.2, nofun⟩
    obtain ⟨s, hs, hne⟩ := hcases
    exact ⟨s, hs, ⟨fun h => absurd h hne, fun h => absurd h hnot⟩, fun _ => rfl⟩
  | @succeeded task output htask hout hctx =>
    obtain ⟨herr, hnow⟩ := resultContextError_eq_none.1 hctx
    exact ⟨.succeeded, jobStateFromStatus_texts.1,
      ⟨fun _ => ⟨task, output, htask, hout, herr, hnow⟩, fun _ => rfl⟩, fun h => absurd rfl h⟩

theorem zkTaskType_ne : zkTaskType ≠ ascii "hash" ∧ zkTaskType ≠ ascii "sleep" := by decide +kernel

/-- A preimage request is executed as a preimage task of its payload. -/
theorem taskOf_preimage {task : Task} (hzk : req.taskType = zkTaskType)
    (h : w.taskOf lib req = some task) : ∃ t, task = .preimage t ∧ t.payload = req.payload := by
  obtain ⟨h1, h2⟩ := zkTaskType_ne
  unfold Service.taskOf at h
  split at h
  · cases h
  · unfold Service.buildTask at h
    rw [hzk, if_neg h1, if_neg h2, if_pos rfl] at h
    split at h
    · cases h
    · rename_i task' htask'
      cases h
      split at htask'
      · cases htask'
      · split at htask'
        · cases htask'
        · cases htask'
          exact ⟨_, rfl, rfl⟩

/-- **What the coordinator verifies is what was proved.** -/
theorem Responds.proof (h : Responds w lib env req resp) (hzk : req.taskType = zkTaskType)
    (hst : jobStateFromStatus resp.status = some .succeeded) :
    ∃ p secret proof, Zk.parsePreimagePublicPayload req.payload = .ok p ∧
      w.Proves lib env req secret p.digest proof ∧ Base64.decodeString resp.output = some proof := by
  cases h with
  | refused hs hnone => rw [jobStateFromStatus_failed hs] at hst; cases hst
  | failed hs htask hout =>
    dsimp only at hst
    rcases hs with rfl | rfl
    · rw [show JobStatus.failed.text = ascii "Failed" from rfl, jobStateFromStatus_texts.2.1] at hst
      cases hst
    · rw [show JobStatus.cancelled.text = ascii "Cancelled" from rfl, jobStateFromStatus_texts.2.2.2] at hst
      cases hst
  | @succeeded task output htask hout hctx =>
    obtain ⟨t, rfl, hpayload⟩ := taskOf_preimage hzk htask
    obtain ⟨p, secret, hp, before, proof, after, has, hmoves, rfl⟩ := proves_of_execute hout
    rw [hpayload] at hp
    exact ⟨p, secret, proof, hp, ⟨t, before, after, htask, has, hmoves⟩,
      Base64.decodeString_encodeToString proof⟩

theorem Responds.identity (h : Responds w lib env req resp) :
    resp.jobID = req.jobID ∧ resp.attemptID = req.attemptID := by
  cases h <;> exact ⟨rfl, rfl⟩

/-! ## At the coordinator -/

/-- What is handed to `Verify`. -/
theorem verifyZKPreimageResult_eq {verifier : Option (Bytes → Zk.FrElement → Bool)}
    {verify : Bytes → Zk.FrElement → Bool} {payload output proof : Bytes}
    {p : Zk.ValidatedPreimagePayload} (hv : verifier = some verify)
    (hp : Zk.parsePreimagePublicPayload payload = .ok p)
    (hdec : Base64.decodeString output = some proof) :
    verifyZKPreimageResult verifier payload output =
      if verify proof p.digest = true then .ok () else .error .rejected := by
  simp only [verifyZKPreimageResult, hv, hp, hdec]

variable {isPrint : ℕ → Bool} {r : (coordinator isPrint).Run} {n : ℕ} {sid : SessionID} {x : Session}
variable {att : Attempt} {d : Dispatch} {c : Choice} {st : JobState}

/-- The dispatch of an attempt in flight is of the session's own request. -/
theorem request_of_inFlight {s : State} (h : InFlight s x att)
    (hd : s.dispatches att.dispatch = some d) : d.req = x.request att.attemptID := by
  obtain ⟨d', hd', hreq⟩ := h.dispatched
  rw [hd] at hd'
  cases hd'
  exact hreq

/-- **A worker's response passes the fence**, unless the lease is over. -/
theorem fence_passes (h : Responds w lib env req resp) (hact : r.act n = .session sid c)
    (hx : (r.state n).sessions sid = some x) (hpc : x.pc = .fence att (some resp))
    (hd : (r.state n).dispatches att.dispatch = some d) (hreq : d.req = req) :
    (∃ st, (r.state (n + 1)).sessions sid = some (x.goto (.verify att resp st))) ∨
      isLeaseCurrent ((r.state n).leases x.jobID) att.attemptID (r.state n).now = false := by
  obtain ⟨y, m, hact', htook⟩ := takesAt_of_act r hact
  have hlive := htook.live
  rw [hx] at hlive
  cases hlive
  have htracks := (tracked r n).tracks hx
  simp only [Tracks, hpc] at htracks
  have hown := request_of_inFlight htracks.1 hd
  rw [hreq] at hown
  obtain ⟨st, hst, -⟩ := h.status
  have hid : resp.jobID = x.jobID ∧ resp.attemptID = att.attemptID := by
    obtain ⟨hj, ha⟩ := h.identity
    rw [hown] at hj ha
    exact ⟨hj, ha⟩
  have hmove := htook.move
  simp only [Session.move, hpc, Session.fence] at hmove
  split at hmove
  · split at hmove
    · -- the identity matches, so the lease is what it was refused for
      rename_i hfenced
      rcases hfenced with hj | ha | hlease
      · exact absurd hid.1 hj
      · exact absurd hid.2 ha
      · exact .inr (by simpa using hlease)
    · rw [hst] at hmove
      refine .inl ⟨st, ?_⟩
      rw [htook.eq, sessions_advance_self, ← Option.some.inj hmove]
      rfl
  · cases hmove

/-- **A proof that `Verify` accepts passes the verification.** -/
theorem verify_passes (h : Responds w lib env req resp) (hact : r.act n = .session sid c)
    (hx : (r.state n).sessions sid = some x) (hpc : x.pc = .verify att resp st)
    (hd : (r.state n).dispatches att.dispatch = some d) (hreq : d.req = req)
    {verify : Bytes → Zk.FrElement → Bool} (hv : (r.state n).config.verifier = some verify)
    (hacc : ∀ secret digest proof, w.Proves lib env req secret digest proof →
      verify proof digest = true) :
    (r.state (n + 1)).sessions sid = some (x.goto (.accept att resp st)) := by
  obtain ⟨y, m, hact', htook⟩ := takesAt_of_act r hact
  have hlive := htook.live
  rw [hx] at hlive
  cases hlive
  have htracks := (tracked r n).tracks hx
  simp only [Tracks, hpc] at htracks
  have hown := request_of_inFlight htracks.1 hd
  rw [hreq] at hown
  have hmove := htook.move
  simp only [Session.move, hpc, Session.verify] at hmove
  have hnext : m.next = some (x.goto (.accept att resp st)) := by
    split at hmove
    · split at hmove
      · rename_i hcond
        obtain ⟨hzk, rfl⟩ := hcond
        have hstatus := htracks.2.2.status
        have htype : req.taskType = zkTaskType := by rw [hown]; exact hzk
        obtain ⟨p, secret, proof, hp, hproves, hdec⟩ := h.proof htype hstatus
        have hpayload : req.payload = x.spec.payload := by rw [hown]; rfl
        rw [verifyZKPreimageResult_eq hv (hpayload ▸ hp) hdec, if_pos (hacc _ _ _ hproves)] at hmove
        rw [← Option.some.inj hmove]
        rfl
      · rw [← Option.some.inj hmove]
        rfl
    · cases hmove
  rw [htook.eq, sessions_advance_self, hnext]

/-- **The two ends of `ExecuteJob` agree.** A response names the job and the
attempt of its request. The coordinator reads a status out of it, which is
`Succeeded` just where the task returned no error before its context ended
or its deadline passed, and elsewhere the output is empty. A preimage task
that succeeded called `Prove` with the digest, and returned the bytes, that
the coordinator hands to `Verify`. So, in any run of a coordinator, a
response to a dispatch passes the fence unless the lease is over, and passes
the verification where `Verify` accepts what `Prove` returns. -/
theorem wire_agreement (r : (coordinator isPrint).Run)
    (h : w.executeJob lib env req = some (.ok resp)) :
    (resp.jobID = req.jobID ∧ resp.attemptID = req.attemptID) ∧
    (∃ st, jobStateFromStatus resp.status = some st ∧
      (st = .succeeded ↔ w.Completes lib env req) ∧ (st ≠ .succeeded → resp.output = [])) ∧
    (req.taskType = zkTaskType → jobStateFromStatus resp.status = some .succeeded →
      ∃ secret digest proof, w.Proves lib env req secret digest proof ∧
        ∀ verify, verifyZKPreimageResult (some verify) req.payload resp.output =
          if verify proof digest = true then .ok () else .error .rejected) ∧
    (∀ n sid c x att d, r.act n = .session sid c → (r.state n).sessions sid = some x →
      (r.state n).dispatches att.dispatch = some d → d.req = req →
      (x.pc = .fence att (some resp) →
        (∃ st, (r.state (n + 1)).sessions sid = some (x.goto (.verify att resp st))) ∨
          isLeaseCurrent ((r.state n).leases x.jobID) att.attemptID (r.state n).now = false) ∧
      ∀ st verify, x.pc = .verify att resp st → (r.state n).config.verifier = some verify →
        (∀ secret digest proof, w.Proves lib env req secret digest proof →
          verify proof digest = true) →
        (r.state (n + 1)).sessions sid = some (x.goto (.accept att resp st))) := by
  have hresp := responds_of_executeJob h
  refine ⟨hresp.identity, hresp.status, fun hzk hst => ?_, fun n sid c x att d hact hx hd hreq =>
    ⟨fun hpc => fence_passes hresp hact hx hpc hd hreq, fun st verify hpc hv hacc =>
      verify_passes hresp hact hx hpc hd hreq hv hacc⟩⟩
  obtain ⟨p, secret, proof, hp, hproves, hdec⟩ := hresp.proof hzk hst
  exact ⟨secret, p.digest, proof, hproves, fun verify => verifyZKPreimageResult_eq rfl hp hdec⟩

end

/-! ## A proof on its way -/

def provingService : Service := ⟨true, true, false, true⟩

/-- No duration is parsed. -/
def noDurations : Durations := ⟨fun _ => .error (ascii "time: invalid duration"), fun _ => []⟩

def exampleEnv : Service.Env where
  parentDeadline := none
  start := 0
  answers :=
    [.go, .witness (some 42), .context none, .acquired true, .context none,
      .proof (.ok (ascii "proof")), .go, .checkpoint none (some 1000000000) 5, .go]
  err := none
  now := 6

def preimageRequest : ExecuteJobRequest := ⟨7, zkTaskType, Zk.canonicalSpelling, 1000, 1⟩

def preimageResponse : ExecuteJobResponse := ⟨7, ascii "Succeeded", ascii "cHJvb2Y=", [], 1⟩

theorem executeJob_preimageRequest :
    provingService.executeJob noDurations exampleEnv preimageRequest =
      some (.ok preimageResponse) := by
  decide +kernel

/-- It knows one proof. -/
def knownProof (proof : Bytes) (_ : Zk.FrElement) : Bool := proof == ascii "proof"

/-- A coordinator dispatches the request and receives the response. -/
def agreementScript : List Action :=
  startupWith ⟨false, some knownProof, 0⟩ ++
    [.submit ⟨7, zkTaskType, Zk.legacySpelling, 1000⟩ none, .session 0 .go, .session 0 .go] ++
    attemptScript 0 ++
    [.deliver 0 ⟨some preimageResponse, false⟩, .session 0 .result] ++
    List.replicate 3 (.session 0 .go)

theorem plays_agreementScript :
    (coordinator asciiPrint).plays (offline .empty) agreementScript = true := by decide +kernel

def exampleAttempt : Attempt := ⟨exampleWorker, 1, 0, 5000000000⟩

/-- The response passes the fence, and its proof is the one that is known. -/
theorem wire_agreement_success :
    (∃ (r : (coordinator asciiPrint).Run) (x : Session) (st : JobState),
      (r.state 17).sessions 0 = some (x.goto (.verify exampleAttempt preimageResponse st))) ∧
    verifyZKPreimageResult (some knownProof) preimageRequest.payload preimageResponse.output =
      .ok () := by
  obtain ⟨-, -, hproof, hpass⟩ := wire_agreement
    (scripted .empty agreementScript plays_agreementScript) executeJob_preimageRequest
  constructor
  · have hx : (((scripted .empty agreementScript plays_agreementScript).state 16).sessions 0).map
        Session.pc = some (.fence exampleAttempt (some preimageResponse)) := by decide +kernel
    have hd : (((scripted .empty agreementScript plays_agreementScript).state 16).dispatches 0).map
        Dispatch.req = some preimageRequest := by decide +kernel
    obtain ⟨x, hx, hpc⟩ := Option.map_eq_some_iff.1 hx
    obtain ⟨d, hd, hreq⟩ := Option.map_eq_some_iff.1 hd
    have hjob : x.jobID = 7 := session_scripted hx Session.jobID 7 (by decide +kernel)
    have hact : (scripted .empty agreementScript plays_agreementScript).act 16 = .session 0 .go :=
      rfl
    have hcurrent : isLeaseCurrent
        (((scripted .empty agreementScript plays_agreementScript).state 16).leases 7) 1
        ((scripted .empty agreementScript plays_agreementScript).state 16).now = true := by
      decide +kernel
    -- nothing below depends on which run it is
    generalize scripted .empty agreementScript plays_agreementScript = r at *
    rcases (hpass 16 0 .go x exampleAttempt d hact hx hd hreq).1 hpc with ⟨st, hst⟩ | hlease
    · exact ⟨r, x, st, hst⟩
    · rw [hjob] at hlease
      exact absurd (hcurrent.symm.trans hlease) (by simp)
  · obtain ⟨secret, digest, proof, ⟨task, before, after, -, has, -⟩, hverify⟩ :=
      hproof rfl (by decide +kernel)
    have hmem : Answer.proof (.ok proof) ∈ exampleEnv.answers := by rw [has]; simp
    simp only [exampleEnv, List.mem_cons, reduceCtorEq, Answer.proof.injEq, Except.ok.injEq,
      List.not_mem_nil, or_false, false_or] at hmem
    have hknown : knownProof proof digest = true := by rw [knownProof, hmem, beq_self_eq_true]
    rw [hverify, if_pos hknown]

end Worker

end ZkRuntime
