import ZkRuntime.Coordinator.Fencing
/-!
# Proofs are verified before they count

A preimage job is stored as `Succeeded` by one `Save` only, and the session
that makes it has had the response's output verified against the digest of
the payload it saves. Submissions and recoveries, retries, legacy payloads
and statuses in any casing all come through there.
-/

namespace ZkRuntime

namespace Coordinator

/-- **The configured verifier accepts** the output, decoded, for the digest
the payload states. -/
def VerifiedBy (cfg : Config) (payload output : Bytes) : Prop :=
  ∃ verify proofBytes v, cfg.verifier = some verify ∧ Base64.decodeString output = some proofBytes ∧
    Zk.parsePreimagePublicPayload payload = .ok v ∧ verify proofBytes v.digest = true

theorem verifiedBy_of_ok {cfg : Config} {payload output : Bytes}
    (h : verifyZKPreimageResult cfg.verifier payload output = .ok ()) :
    VerifiedBy cfg payload output := by
  unfold verifyZKPreimageResult at h
  split at h
  · cases h
  · rename_i verify hcfg
    split at h
    · cases h
    · rename_i v hv
      split at h
      · cases h
      · rename_i proofBytes hp
        split at h
        · rename_i hok
          exact ⟨verify, proofBytes, v, hcfg, hp, hv, hok⟩
        · cases h

/-- A session about to accept has verified what needs to be. -/
def Vetted (s : State) (x : Session) : Prop :=
  ∀ att resp st, (x.pc = .accept att resp st ∨ x.pc = .commit att resp st) →
    x.spec.taskType = zkTaskType → st = .succeeded → VerifiedBy s.config x.spec.payload resp.output

variable {isPrint : ℕ → Bool} {s s' : State} {x x' : Session} {c : Choice} {e : Effect}

theorem framed_vetted : Framed Vetted := fun h _ _ hcfg att resp st hpc hzk hst => by
  rw [hcfg]
  exact h att resp st hpc hzk hst

theorem config_apply {j : JobID} : (s.apply j e).config = s.config := by
  cases e with
  | save r applied => cases applied <;> rfl
  | _ => rfl

theorem Vetted.move (h : Moves isPrint s x c e (some x')) (hx : Vetted s x) :
    Vetted (s.apply x.jobID e) x' := by
  intro att resp st hpc hzk hst
  rw [config_apply]
  cases h with
  | verified h hv =>
    simp only [Session.goto, Pc.accept.injEq, reduceCtorEq, or_false] at hpc
    obtain ⟨rfl, rfl, rfl⟩ := hpc
    exact verifiedBy_of_ok (hv hzk hst)
  | accepted h =>
    simp only [Session.goto, Pc.commit.injEq, reduceCtorEq, false_or] at hpc
    obtain ⟨rfl, rfl, rfl⟩ := hpc
    exact hx _ _ _ (.inl h) hzk hst
  | _ => simp [Session.goto, Session.retry, Session.repairAborted] at hpc

/-- **In every state of a run the sessions have verified.** -/
theorem vetted (r : (coordinator isPrint).Run) (n : ℕ) {sid : SessionID}
    (hx : (r.state n).sessions sid = some x) : Vetted (r.state n) x := by
  refine session_invariant framed_vetted (fun _ _ h hm => h.move hm) (fun s req spec _ => ?_)
    (fun s snapshot ctxErr => ?_) (fun _ h => h) r n hx
  · intro att resp st hpc
    rcases hpc with hpc | hpc <;> cases hpc
  · intro att resp st hpc
    rcases hpc with hpc | hpc <;> cases hpc

variable {r : (coordinator isPrint).Run} {n : ℕ}

/-- The `Save` that stores a success is the terminal one. -/
theorem Writes.commit_of_succeeded {row : JobRecord} (hw : Writes s x row)
    (hst : row.state = .succeeded) :
    ∃ att resp, x.pc = .commit att resp .succeeded ∧
      row = x.record .succeeded att.attemptID att.worker := by
  cases hw with
  | publish => simp [Session.record] at hst
  | commit h =>
    have hst' : _ = JobState.succeeded := hst
    subst hst'
    exact ⟨_, _, h, rfl⟩
  | close hr hcl =>
    have hst' : _ = JobState.succeeded := hst
    subst hst'
    simp at hcl

/-- A returned response is the one of the session's successful terminal
`Save`. -/
theorem exists_commit_of_release {sid : SessionID} {att : Attempt} {resp : ExecuteJobResponse}
    (hx : (r.state n).sessions sid = some x) (hpc : x.pc = .release (.accepted att resp)) :
    ∃ k y m st, k < n ∧ TakesAt r k sid y .go m ∧ y.pc = .commit att resp st ∧
      y.spec = x.spec ∧ y.source = x.source := by
  obtain ⟨k, y, c', m', y', hkn, hty, hnext, -, ⟨hq1, hq2, hq3⟩, -⟩ := exists_move r
    (Q := fun z => z.pc = .release (.accepted att resp) ∧ z.spec = x.spec ∧ z.source = x.source)
    (fun _ _ => Iff.rfl)
    (fun a' z hb => by cases hb <;> simp [State.submitSession, State.recoverySession])
    hx ⟨hpc, rfl, rfl⟩
  have hmoves := hty.took.moves
  rw [hnext] at hmoves
  generalize m'.effect = e at hmoves
  cases hmoves with
  | committed h =>
    simp only [Pc.release.injEq, Outcome.accepted.injEq] at hq1
    obtain ⟨rfl, rfl⟩ := hq1
    exact ⟨k, y, m', _, hkn, hty, h, hq2, hq3⟩
  | _ => simp [Session.goto, Session.retry, Session.repairAborted] at hq1

/-- What the terminal `Save` saves. -/
theorem TakesAt.record_of_commit {sid : SessionID} {m : Move} {att : Attempt}
    {resp : ExecuteJobResponse} {st : JobState} (ht : TakesAt r n sid x c m)
    (hpc : x.pc = .commit att resp st) :
    m.effect.record? = some (x.record st att.attemptID att.worker) := by
  have hmoves := ht.took.moves
  generalize m.effect = e at hmoves ⊢
  generalize m.next = next at hmoves
  cases hmoves with
  | committed h =>
    rw [hpc] at h
    cases h
    rfl
  | commit_fails h =>
    rw [hpc] at h
    cases h
    rfl
  | _ => simp_all [Pc.readsContext, Session.holdsMu]

/-- A preimage record is saved as `Succeeded` behind its verification. -/
theorem SaveCall.verified {row : JobRecord} (hs : SaveCall r n row)
    (hzk : row.taskType = zkTaskType) (hst : row.state = .succeeded) :
    ∃ sid x c m att resp, TakesAt r n sid x c m ∧ x.pc = .commit att resp .succeeded ∧
      row = x.record .succeeded att.attemptID att.worker ∧
      VerifiedBy (r.state n).config row.payload resp.output := by
  cases hs with
  | @session sid x c m row ht he =>
    obtain ⟨att, resp, hpc, rfl⟩ := (ht.writes he).commit_of_succeeded hst
    exact ⟨sid, x, c, m, att, resp, ht, hpc, rfl,
      vetted r n ht.took.live att resp _ (.inr hpc) hzk rfl⟩
  | startup => simp [State.recoveringRow] at hst

/-- **Proofs are verified before they count.** Whenever a preimage record
is saved as `Succeeded`, it is by the terminal `Save` of a session whose
accepted response the configured verifier accepted: its output, decoded,
for the digest of the payload that is saved. A success returned to a client
is such a response, with that output. Without a verifier no such record is
saved. -/
theorem verification (r : (coordinator isPrint).Run) :
    (∀ n row, SaveCall r n row → row.taskType = zkTaskType → row.state = .succeeded →
      ∃ k sid x c m att resp, TakesAt r n sid x c m ∧
        AcceptsAt r k n sid row.jobID att resp .succeeded ∧ row.attemptID = att.attemptID ∧
        VerifiedBy (r.state n).config row.payload resp.output) ∧
    (∀ n sid x m out rep, TakesAt r n sid x .go m → x.pc = .release out → out.reply = some rep →
      x.spec.taskType = zkTaskType → jobStateFromStatus rep.status = some .succeeded →
      ∃ k row, k < n ∧ SaveCall r k row ∧ row.taskType = zkTaskType ∧ row.state = .succeeded ∧
        row.jobID = rep.jobID ∧ row.attemptID = rep.attemptID ∧
        VerifiedBy (r.state k).config row.payload rep.output) ∧
    (∀ n row, (r.state n).config.verifier = none → SaveCall r n row →
      ¬ (row.taskType = zkTaskType ∧ row.state = .succeeded)) := by
  refine ⟨fun n row hs hzk hst => ?_, fun n sid x m out rep ht hpc hrep hzk hst => ?_,
    fun n row hcfg hs hrow => ?_⟩
  · obtain ⟨sid, x, c, m, att, resp, ht, hpc, hrow, hv⟩ := hs.verified hzk hst
    obtain ⟨k, hk⟩ := exists_acceptsAt ht hpc
    have hj : row.jobID = x.jobID := by rw [hrow]; rfl
    exact ⟨k, sid, x, c, m, att, resp, ht, by rw [hj]; exact hk, by rw [hrow]; rfl, hv⟩
  · cases out with
    | accepted att resp =>
      simp only [Outcome.reply, Option.some.injEq] at hrep
      subst hrep
      obtain ⟨k, y, m', st, hkn, hty, hypc, hspec, -⟩ := exists_commit_of_release ht.took.live hpc
      have htr := (tracked r k).tracks hty.took.live
      simp only [Tracks, hypc] at htr
      -- The status decides the state that is saved.
      have hstate : st = .succeeded := by
        have hstatus := htr.2.2.status
        rw [hst] at hstatus
        exact (Option.some.inj hstatus).symm
      subst hstate
      have hrec := hty.record_of_commit hypc
      have hzk' : y.spec.taskType = zkTaskType := by rw [hspec]; exact hzk
      refine ⟨k, _, hkn, .session hty hrec, hzk', rfl, htr.2.2.jobID.symm,
        htr.2.2.attemptID.symm, ?_⟩
      exact vetted r k hty.took.live att resp _ (.inr hypc) hzk' rfl
    | _ => simp [Outcome.reply] at hrep
  · obtain ⟨sid, x, c, m, att, resp, ht, hpc, -, verify, proofBytes, v, hv, -⟩ :=
      hs.verified hrow.1 hrow.2
    rw [hcfg] at hv
    cases hv

/-! ## A verified submission -/

/-- A verifier that knows one proof for one digest. -/
def exampleVerifier (proofBytes : Bytes) (digest : Zk.FrElement) : Bool :=
  proofBytes == ascii "proof" && digest.val == 42

/-- A legacy spelling of the payload is submitted and its proof returned. -/
def proofScript : List Action :=
  startupWith ⟨false, some exampleVerifier, 0⟩ ++
    [.submit ⟨7, zkTaskType, Zk.legacySpelling, 1000⟩ none, .session 0 .go, .session 0 .go] ++
    attemptScript 0 ++
    [.deliver 0 ⟨some ⟨7, ascii "succeeded", ascii "cHJvb2Y=", [], 1⟩, false⟩, .session 0 .result] ++
    List.replicate 6 (.session 0 .go)

theorem plays_proofScript :
    (coordinator asciiPrint).plays (offline .empty) proofScript = true := by decide +kernel

theorem verification_proof :
    ∃ (r : (coordinator asciiPrint).Run) (row : JobRecord), SaveCall r 19 row ∧
      row.taskType = zkTaskType ∧ row.state = .succeeded ∧ row.payload = Zk.canonicalSpelling ∧
      ∃ output, VerifiedBy (r.state 19).config row.payload output := by
  obtain ⟨x, m, ht, hpc, hspec⟩ := takesAt_scripted plays_proofScript 19 0 .go
    (.commit ⟨exampleWorker, 1, 0, 5000000000⟩
      ⟨7, ascii "succeeded", ascii "cHJvb2Y=", [], 1⟩ .succeeded)
    ⟨7, zkTaskType, Zk.canonicalSpelling, 1000⟩ rfl (by decide +kernel)
  have hs := SaveCall.session ht (ht.record_of_commit hpc)
  have hzk : x.spec.taskType = zkTaskType := by rw [hspec]
  obtain ⟨k, sid, y, c', m', att, resp, -, -, -, hv⟩ := (verification _).1 19 _ hs hzk rfl
  exact ⟨_, _, hs, hzk, rfl, by simp only [Session.record, hspec], resp.output, hv⟩

end Coordinator

end ZkRuntime
