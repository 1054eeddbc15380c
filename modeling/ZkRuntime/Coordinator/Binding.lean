import ZkRuntime.Coordinator.Generations
import ZkRuntime.Coordinator.Helpers.Lookup
import ZkRuntime.Coordinator.Model.Transport
/-!
# Registry entries are bound to identities

An entry of the registry is written for the peer it names and for no other:
the principal comes from the verified certificate, `AuthorizeRPC` holds the
request to it, and `validateWorkerRegistration` holds the address to the
certificate. `Served` takes a call apart once; the rest follows a single
entry through a run.
-/

namespace ZkRuntime

namespace RpcAuth

variable {lib : Library} {policy : Option Policy} {p : Principal} {now : ℕ}

/-- **An authenticated principal is its certificate's**, valid at the time
it was asked for. -/
theorem authenticatePeer_ok {peer : Peer} (h : authenticatePeer lib peer now = .ok p) :
    ∃ leaf, peer.leaf = some leaf ∧ certificatePrincipal lib leaf = some p ∧
      leaf.notBefore ≤ now ∧ now ≤ leaf.notAfter := by
  unfold authenticatePeer at h
  split at h
  · rename_i state
    split at h
    · split at h
      · rename_i q hq
        cases h
        unfold verifiedPrincipal at hq
        split at hq
        · cases hq
        · split at hq
          · rename_i leaf rest chains hchains
            split at hq
            · rename_i hvalid
              split at hq
              · cases hq
              · rename_i q' hq'
                split at hq
                · cases hq
                  refine ⟨leaf, by simp [Peer.leaf, hchains], hq', ?_⟩
                  simp only [List.all_cons, currentlyValid, Bool.and_eq_true, Bool.not_eq_true',
                    Bool.or_eq_false_iff, decide_eq_false_iff_not] at hvalid
                  omega
                · cases hq
            · cases hq
          · cases hq
      · cases h
    · cases h
  · cases h

/-- So a peer has one principal, whenever it is asked for. -/
theorem authenticatePeer_unique {peer : Peer} {q : Principal} {now' : ℕ}
    (h : authenticatePeer lib peer now = .ok p) (h' : authenticatePeer lib peer now' = .ok q) :
    p = q := by
  obtain ⟨leaf, hleaf, hp, -⟩ := authenticatePeer_ok h
  obtain ⟨leaf', hleaf', hq, -⟩ := authenticatePeer_ok h'
  rw [hleaf] at hleaf'
  cases hleaf'
  rw [hp] at hq
  exact Option.some.inj hq

theorem authenticatePeer_ne_panicked {peer : Peer} :
    authenticatePeer lib peer now ≠ .error .panicked := by
  unfold authenticatePeer
  split
  · split
    · split <;> simp
    · simp
  · simp

/-- Behind its authentication a peer has a leaf to ask. -/
theorem verifyPeerHostname_ne_panicked {peer : Peer} {host : Bytes} :
    verifyPeerHostname lib peer now host ≠ .error .panicked := by
  unfold verifyPeerHostname
  split
  · rename_i e he
    intro h
    cases h
    exact authenticatePeer_ne_panicked he
  · rename_i p hp
    obtain ⟨leaf, hleaf, -⟩ := authenticatePeer_ok hp
    simp only [hleaf]
    split <;> simp

theorem authorizeRPC_ok {method : Bytes} {request : Request}
    (h : authorizeRPC policy p method request = .ok ()) :
    recognizes policy p = true ∧ ∃ q, policy = some q ∧ permits q p method request = true := by
  unfold authorizeRPC at h
  dsimp only at h
  split at h
  · rename_i hallowed
    rw [Bool.and_eq_true] at hallowed
    cases hp : policy with
    | none => simp [hp] at hallowed
    | some q => exact ⟨hp ▸ hallowed.1, q, rfl, by simpa [hp] using hallowed.2⟩
  · cases h

variable {policy : Policy} {request : Request}

theorem eq_worker {id : Bytes} (hrole : p.role = .worker) (hid : id = p.workerID) :
    p = ⟨.worker, id⟩ := by
  obtain ⟨role, id'⟩ := p
  dsimp only at hrole
  subst hrole hid
  rfl

/-- A worker registers itself only. -/
theorem permits_registerWorker (h : permits policy p registerWorkerMethod request = true) :
    ∃ req, request = .registerWorker (some req) ∧ p = ⟨.worker, req.workerID⟩ := by
  have hne : registerWorkerMethod ≠ submitJobMethod := by decide +kernel
  unfold permits at h
  rw [if_neg hne, if_pos rfl] at h
  split at h
  · rename_i req
    simp only [Bool.and_eq_true, beq_iff_eq] at h
    exact ⟨req, rfl, eq_worker h.1 h.2⟩
  · cases h

/-- A worker reports itself only. -/
theorem permits_heartbeat (h : permits policy p heartbeatMethod request = true) :
    ∃ req, request = .heartbeat (some req) ∧ p = ⟨.worker, req.workerID⟩ := by
  have hne : heartbeatMethod ≠ submitJobMethod := by decide +kernel
  have hne' : heartbeatMethod ≠ registerWorkerMethod := by decide +kernel
  unfold permits at h
  rw [if_neg hne, if_neg hne', if_pos rfl] at h
  split at h
  · rename_i req
    simp only [Bool.and_eq_true, beq_iff_eq] at h
    exact ⟨req, rfl, eq_worker h.1 h.2⟩
  · cases h

/-- Only a client submits. -/
theorem permits_submitJob (h : permits policy p submitJobMethod request = true) :
    ∃ req, request = .submitJob (some req) ∧ p.role = .client := by
  unfold permits at h
  rw [if_pos rfl] at h
  split at h
  · rename_i req
    exact ⟨req, rfl, by simpa using h⟩
  · cases h

end RpcAuth

namespace Coordinator

open RpcAuth

namespace Transport

variable (t : Transport) (isPrint : ℕ → Bool)

/-- **The call is the recognized principal's.** -/
structure By (c : Call) (p : Principal) : Prop where
  authenticated : authenticatePeer t.lib c.peer c.authTime = .ok p
  recognized : recognizes t.policy p = true

/-- **The call registers `id` at `address`**: it is the worker's own, and
the certificate it is verified by covers the host of the address. -/
structure Registers (c : Call) (id address : Bytes) : Prop where
  by_worker : t.By c ⟨.worker, id⟩
  method : c.method = registerWorkerMethod
  request : c.request = .registerWorker (some ⟨id, address⟩)
  covered : ∃ host leaf, parseTCPEndpoint t.lib address = some host ∧ c.peer.leaf = some leaf ∧
    leaf.verifyHostname host = true ∧
    authenticatePeer t.lib c.peer c.hostTime = .ok ⟨.worker, id⟩

/-- The call is a heartbeat of `id`, and its own. -/
structure Heartbeats (c : Call) (id : Bytes) : Prop where
  by_worker : t.By c ⟨.worker, id⟩
  method : c.method = heartbeatMethod
  request : c.request = .heartbeat (some ⟨id⟩)

/-- The call submits `req`, and is a client's. -/
structure Submits (c : Call) (req : SubmitJobRequest) : Prop where
  by_client : ∃ p, t.By c p ∧ p.role = .client
  method : c.method = submitJobMethod
  request : c.request = .submitJob (some req)

/-- **The entry a step writes, where it is a call**: that of the request its
handler accepts. -/
def written (s : State) : Input → Option Bytes
  | .other _ => none
  | .rpc c =>
    match t.serve isPrint s c, c.request with
    | some (_, .ok (.registered true _)), .registerWorker (some req) => some req.workerID
    | some (_, .ok (.seen true)), .heartbeat (some req) => some req.workerID
    | _, _ => none

end Transport

/-! ## A call, taken apart -/

/-- **What a call can do.** -/
inductive Served (t : Transport) (isPrint : ℕ → Bool) (s : State) (c : Call) :
    State → Except Refusal Reply → Prop
  | refused {e : Refusal} (he : e ≠ .panicked) : Served t isPrint s c s (.error e)
  | unregistered (error : Bytes) : Served t isPrint s c s (.ok (.registered false error))
  | registered {id address : Bytes} {s' : State} (h : t.Registers c id address)
      (hs : s.step isPrint (.registerWorker id address) = some s') :
      Served t isPrint s c s' (.ok (.registered true []))
  | seen {id : Bytes} {s' : State} (h : t.Heartbeats c id)
      (hs : s.step isPrint (.heartbeat id) = some s') :
      Served t isPrint s c s' (.ok (.seen (s.registry.lookup id).isSome))
  | submitted {req : SubmitJobRequest} {s' : State} (h : t.Submits c req)
      (hs : s.step isPrint (.submit req c.ctxErr) = some s') :
      Served t isPrint s c s' (.ok .submitted)

variable {t : Transport} {isPrint : ℕ → Bool} {s s' : State} {c : Call} {e : Input}
variable {id : Bytes} {w : WorkerInfo}

/-- What the interceptors have checked when a handler is entered. -/
theorem intercept_ok (h : t.intercept c = .ok ()) :
    ∃ p q, t.By c p ∧ t.policy = some q ∧ permits q p c.method c.request = true ∧
      t.validateWorkerRegistration c = .ok () := by
  unfold Transport.intercept at h
  split at h
  · cases h
  · rename_i hauth
    split at h
    · cases h
    · unfold unaryInterceptor at hauth
      split at hauth
      · cases hauth
      · rename_i p hp
        obtain ⟨hrec, q, hq, hperm⟩ := authorizeRPC_ok hauth
        exact ⟨p, q, ⟨hp, hrec⟩, hq, hperm, h⟩

/-- **No interceptor panics**: a registration that is let through to
`validateWorkerRegistration` has the request it reads. -/
theorem intercept_ne_panicked : t.intercept c ≠ .error .panicked := by
  unfold Transport.intercept
  split
  · rename_i e he
    intro h
    cases h
    unfold unaryInterceptor at he
    split at he
    · rename_i hp; cases he; exact authenticatePeer_ne_panicked hp
    · unfold authorizeRPC at he
      dsimp only at he
      split at he <;> cases he
  · rename_i hauth
    split
    · rename_i e he
      intro h
      cases h
      unfold Transport.lifecycleInterceptor at he
      split at he
      · cases he
      · split at he <;> cases he
    · unfold Transport.validateWorkerRegistration
      split
      · rename_i hm
        unfold unaryInterceptor at hauth
        split at hauth
        · cases hauth
        · obtain ⟨-, q, -, hperm⟩ := authorizeRPC_ok hauth
          rw [hm] at hperm
          obtain ⟨req, hreq, -⟩ := permits_registerWorker hperm
          rw [hreq]
          dsimp only
          split
          · simp
          · exact verifyPeerHostname_ne_panicked
      · simp

/-- A registration behind the interceptors has its address covered. -/
theorem registers_of_intercept (h : t.intercept c = .ok ()) (hm : c.method = registerWorkerMethod) :
    ∃ id address, t.Registers c id address := by
  obtain ⟨p, q, hby, -, hperm, hval⟩ := intercept_ok h
  rw [hm] at hperm
  obtain ⟨⟨id, address⟩, hreq, rfl⟩ := permits_registerWorker hperm
  refine ⟨id, address, hby, hm, hreq, ?_⟩
  rw [Transport.validateWorkerRegistration, if_pos hm, hreq] at hval
  dsimp only at hval
  split at hval
  · cases hval
  · rename_i host hhost
    unfold verifyPeerHostname at hval
    split at hval
    · cases hval
    · rename_i p' hp'
      split at hval
      · cases hval
      · rename_i leaf hleaf
        split at hval
        · rename_i hcov
          cases authenticatePeer_unique hby.authenticated hp'
          exact ⟨host, leaf, hhost, hleaf, hcov, hp'⟩
        · cases hval

theorem served_registerWorker (h : t.intercept c = .ok ()) (hm : c.method = registerWorkerMethod)
    {out : Except Refusal Reply} (hs : t.handle isPrint s c = some (s', out)) :
    Served t isPrint s c s' out := by
  obtain ⟨id, address, hreg⟩ := registers_of_intercept h hm
  rw [Transport.handle, if_pos hm, hreg.request] at hs
  obtain ⟨⟨s₁, reply⟩, hh, heq⟩ := Option.map_eq_some_iff.1 hs
  cases heq
  unfold Transport.registerWorkerHandler at hh
  split at hh
  · cases hh; exact .unregistered _
  · split at hh
    · cases hh; exact .unregistered _
    · obtain ⟨s₂, hstep, heq⟩ := Option.map_eq_some_iff.1 hh
      cases heq
      exact .registered hreg hstep

theorem served_heartbeat (h : t.intercept c = .ok ()) (hm : c.method = heartbeatMethod)
    {out : Except Refusal Reply} (hs : t.handle isPrint s c = some (s', out)) :
    Served t isPrint s c s' out := by
  obtain ⟨p, q, hby, -, hperm, -⟩ := intercept_ok h
  rw [hm] at hperm
  obtain ⟨⟨id⟩, hreq, rfl⟩ := permits_heartbeat hperm
  have hne : c.method ≠ registerWorkerMethod := by rw [hm]; decide +kernel
  rw [Transport.handle, if_neg hne, if_pos hm, hreq] at hs
  obtain ⟨⟨s₁, reply⟩, hh, heq⟩ := Option.map_eq_some_iff.1 hs
  cases heq
  obtain ⟨s₂, hstep, heq⟩ := Option.map_eq_some_iff.1 hh
  cases heq
  exact .seen ⟨hby, hm, hreq⟩ hstep

theorem served_submitJob (h : t.intercept c = .ok ()) (hm : c.method = submitJobMethod)
    {out : Except Refusal Reply} (hs : t.handle isPrint s c = some (s', out)) :
    Served t isPrint s c s' out := by
  obtain ⟨p, q, hby, -, hperm, -⟩ := intercept_ok h
  rw [hm] at hperm
  obtain ⟨req, hreq, hrole⟩ := permits_submitJob hperm
  have hne : c.method ≠ registerWorkerMethod := by rw [hm]; decide +kernel
  have hne' : c.method ≠ heartbeatMethod := by rw [hm]; decide +kernel
  rw [Transport.handle, if_neg hne, if_neg hne', if_pos hm, hreq] at hs
  obtain ⟨s₁, hstep, heq⟩ := Option.map_eq_some_iff.1 hs
  cases heq
  exact .submitted ⟨⟨p, hby, hrole⟩, hm, hreq⟩ hstep

/-- **Every call served is one of these.** In particular no handler is
entered with a request it cannot read. -/
theorem served_of_serve {out : Except Refusal Reply} (h : t.serve isPrint s c = some (s', out)) :
    Served t isPrint s c s' out := by
  unfold Transport.serve at h
  split at h
  · rename_i hmethod
    split at h
    · rename_i e he
      cases h
      exact .refused fun h => intercept_ne_panicked (h ▸ he)
    · rename_i hok
      simp only [Transport.isRegistered, Bool.or_eq_true, beq_iff_eq, or_assoc] at hmethod
      rcases hmethod with hm | hm | hm
      · exact served_registerWorker hok hm h
      · exact served_heartbeat hok hm h
      · exact served_submitJob hok hm h
  · rename_i hmethod
    simp only [Transport.isRegistered, Bool.or_eq_true, beq_iff_eq, not_or] at hmethod
    rw [Transport.handle, if_neg hmethod.1.1, if_neg hmethod.1.2, if_neg hmethod.2] at h
    cases h
    refine .refused ?_
    unfold unknownServiceHandler
    split
    · rename_i e he
      exact fun h => authenticatePeer_ne_panicked (h ▸ he)
    · simp

/-! ## One entry, one step -/

theorem served_of_step (h : (t.secured isPrint).step s (.rpc c) = some s') :
    ∃ out, t.serve isPrint s c = some (s', out) ∧ Served t isPrint s c s' out := by
  simp only [Transport.secured] at h
  split at h
  · obtain ⟨⟨s₁, out⟩, hserve, heq⟩ := Option.map_eq_some_iff.1 h
    dsimp only at heq
    subst heq
    exact ⟨out, hserve, served_of_serve hserve⟩
  · cases h

theorem registry_of_registers {address : Bytes}
    (h : s.step isPrint (.registerWorker id address) = some s') :
    s'.registry = s.registry.registerWorker id address s.now := by
  simp only [State.step, State.withRegistry] at h
  split at h
  · cases h; rfl
  · cases h

theorem registry_of_heartbeats (h : s.step isPrint (.heartbeat id) = some s') :
    s'.registry = s.registry.heartbeat id s.now := by
  simp only [State.step, State.withRegistry] at h
  split at h
  · cases h; rfl
  · cases h

theorem registry_of_submits {req : SubmitJobRequest} {ctxErr : Option ContextError}
    (h : s.step isPrint (.submit req ctxErr) = some s') : s'.registry = s.registry := by
  cases steps_of_step h with
  | stopped ha => simp [Action.stops] at ha
  | registry r ha hph hmu hr => simp [Action.registryAfter] at hr
  | refused ha => rfl
  | submitted => rfl

/-- A step that is not a call keeps the address of an entry. -/
theorem address_of_other {a : Action} (ha : a.isCall = false) (h : s.step isPrint a = some s')
    (hw : s'.registry.lookup id = some w) :
    ∃ w₀, s.registry.lookup id = some w₀ ∧ w₀.address = w.address := by
  rcases (lookup_step (steps_of_step h) : s'.registry.lookup id = s.registry.lookup id ∨
    s'.registry.lookup id = none ∨ _) with heq | hnone | ⟨r, hr, heq⟩
  · exact ⟨w, heq ▸ hw, rfl⟩
  · rw [hnone] at hw
    cases hw
  · cases a with
    | checkLiveness timeout =>
      cases hr
      rw [heq, Registry.checkWorkerLiveness, Registry.lookup_update] at hw
      obtain ⟨w₀, hw₀, rfl⟩ := Option.map_eq_some_iff.1 hw
      refine ⟨w₀, hw₀, ?_⟩
      split <;> rfl
    | _ => simp_all [Action.registryAfter, Action.isCall]

/-- **What a step leaves in an entry**: its own worker has registered it,
or been seen, or the address is as it was. -/
theorem entry_step (h : (t.secured isPrint).step s e = some s')
    (hw : s'.registry.lookup id = some w) :
    (∃ c, e = .rpc c ∧ t.Registers c id w.address ∧ t.written isPrint s e = some id) ∨
      (∃ c w₀, e = .rpc c ∧ t.Heartbeats c id ∧ t.written isPrint s e = some id ∧
        s.registry.lookup id = some w₀ ∧ w₀.address = w.address) ∨
      (t.written isPrint s e ≠ some id ∧
        ∃ w₀, s.registry.lookup id = some w₀ ∧ w₀.address = w.address) := by
  cases e with
  | other a =>
    simp only [Transport.secured] at h
    split at h
    · cases h
    · rename_i ha
      exact .inr (.inr ⟨by simp [Transport.written], address_of_other (by simpa using ha) h hw⟩)
  | rpc c =>
    obtain ⟨out, hserve, hserved⟩ := served_of_step h
    cases hserved with
    | refused => exact .inr (.inr ⟨by simp [Transport.written, hserve], w, hw, rfl⟩)
    | unregistered => exact .inr (.inr ⟨by simp [Transport.written, hserve], w, hw, rfl⟩)
    | submitted hsub hs =>
      rw [registry_of_submits hs] at hw
      exact .inr (.inr ⟨by simp [Transport.written, hserve], w, hw, rfl⟩)
    | @registered k address _ hreg hs =>
      have hwritten : t.written isPrint s (.rpc c) = some k := by
        simp [Transport.written, hserve, hreg.request]
      rw [registry_of_registers hs, Registry.lookup_registerWorker] at hw
      split at hw
      · rename_i hk
        subst hk
        cases hw
        exact .inl ⟨c, rfl, hreg, hwritten⟩
      · rename_i hk
        refine .inr (.inr ⟨?_, w, hw, rfl⟩)
        rw [hwritten]
        exact fun heq => hk (Option.some.inj heq).symm
    | @seen k _ hbeat hs =>
      rw [registry_of_heartbeats hs, Registry.lookup_heartbeat] at hw
      split at hw
      · rename_i hk
        subst hk
        obtain ⟨w₀, hw₀, rfl⟩ := Option.map_eq_some_iff.1 hw
        refine .inr (.inl ⟨c, w₀, rfl, hbeat, ?_, hw₀, rfl⟩)
        simp [Transport.written, hserve, hbeat.request, hw₀]
      · rename_i hk
        refine .inr (.inr ⟨?_, w, hw, rfl⟩)
        simp only [Transport.written, hserve, hbeat.request]
        split
        · rename_i heq _; simp at heq
        · rename_i heq heq'
          cases heq'
          exact fun heq => hk (Option.some.inj heq).symm
        · simp

/-- **A call leaves every entry but its own principal's alone.** -/
theorem lookup_rpc {p : Principal} (h : (t.secured isPrint).step s (.rpc c) = some s')
    (hp : authenticatePeer t.lib c.peer c.authTime = .ok p) (hid : id ≠ p.workerID) :
    s'.registry.lookup id = s.registry.lookup id := by
  obtain ⟨out, hserve, hserved⟩ := served_of_step h
  cases hserved with
  | refused => rfl
  | unregistered => rfl
  | submitted hsub hs => rw [registry_of_submits hs]
  | @registered k address _ hreg hs =>
    rw [hreg.by_worker.authenticated] at hp
    cases hp
    have hne : id ≠ k := by simpa [Principal.workerID] using hid
    rw [registry_of_registers hs, Registry.lookup_registerWorker, if_neg hne]
  | @seen k _ hbeat hs =>
    rw [hbeat.by_worker.authenticated] at hp
    cases hp
    have hne : id ≠ k := by simpa [Principal.workerID] using hid
    rw [registry_of_heartbeats hs, Registry.lookup_heartbeat, if_neg hne]

/-- A call of nobody changes nothing. -/
theorem eq_of_unauthenticated {e : Refusal} (h : (t.secured isPrint).step s (.rpc c) = some s')
    (he : authenticatePeer t.lib c.peer c.authTime = .error e) : s' = s := by
  obtain ⟨out, hserve, hserved⟩ := served_of_step h
  cases hserved with
  | refused => rfl
  | unregistered => rfl
  | submitted hsub hs =>
    obtain ⟨p, hby, -⟩ := hsub.by_client
    rw [hby.authenticated] at he
    cases he
  | registered hreg hs => rw [hreg.by_worker.authenticated] at he; cases he
  | seen hbeat hs => rw [hbeat.by_worker.authenticated] at he; cases he

/-! ## Sessions -/

/-- The session is a submission of `req`. -/
def State.submits (s : State) (sid : SessionID) (req : SubmitJobRequest) : Prop :=
  ∃ x, s.sessions sid = some x ∧ x.source = .submit req

/-- **A submission's session is there already, or a submission begins it.** -/
theorem submits_before {a : Action} {sid : SessionID} {req : SubmitJobRequest}
    (h : s.step isPrint a = some s') (hx : s'.submits sid req) :
    s.submits sid req ∨ (a = .submit req none ∧ sid = s.nextSession) := by
  obtain ⟨x', hx', hsrc⟩ := hx
  rcases session_before (steps_of_step h) hx' with
    ⟨x, hx, hidle⟩ | ⟨x, c, m, -, htook, hnext⟩ | ⟨hbegins, -, hsid, -⟩
  · exact .inl ⟨x, hx, hidle.source.symm.trans hsrc⟩
  · have hmoves := htook.moves
    rw [hnext] at hmoves
    exact .inl ⟨x, htook.live, hmoves.source_eq.symm.trans hsrc⟩
  · cases hbegins with
    | submit hv =>
      cases hsrc
      exact .inr ⟨rfl, hsid⟩
    | recover => cases hsrc

/-- **Only a client's call begins a submission.** -/
theorem submits_step {sid : SessionID} {req : SubmitJobRequest}
    (h : (t.secured isPrint).step s e = some s') (hx : s'.submits sid req) :
    s.submits sid req ∨ ∃ c, e = .rpc c ∧ t.Submits c req ∧ sid = s.nextSession := by
  cases e with
  | other a =>
    simp only [Transport.secured] at h
    split at h
    · cases h
    · rename_i ha
      rcases submits_before h hx with hold | ⟨rfl, -⟩
      · exact .inl hold
      · simp [Action.isCall] at ha
  | rpc c =>
    obtain ⟨out, hserve, hserved⟩ := served_of_step h
    cases hserved with
    | refused => exact .inl hx
    | unregistered => exact .inl hx
    | registered hreg hs => exact (submits_before hs hx).imp_right fun h => nomatch h.1
    | seen hbeat hs => exact (submits_before hs hx).imp_right fun h => nomatch h.1
    | submitted hsub hs =>
      rcases submits_before hs hx with hold | ⟨heq, hsid⟩
      · exact .inl hold
      · obtain ⟨rfl, -⟩ := Action.submit.inj heq
        exact .inr ⟨c, rfl, hsub, hsid⟩

/-! ## Over a run -/

/-- **The history of an entry**: `m` is the registration that stored its
address, `l` the last call that wrote it. -/
structure LastWritten (t : Transport) (isPrint : ℕ → Bool) (r : (t.secured isPrint).Run) (n : ℕ)
    (id address : Bytes) (m l : ℕ) : Prop where
  le : m ≤ l
  lt : l < n
  /-- The registration is the worker's own, and its address is covered. -/
  registered : ∃ c, r.act m = .rpc c ∧ t.Registers c id address
  writes : t.written isPrint (r.state m) (r.act m) = some id
  /-- So is the last call that wrote it the worker's own. -/
  last : ∃ c, r.act l = .rpc c ∧ t.By c ⟨.worker, id⟩
  last_writes : t.written isPrint (r.state l) (r.act l) = some id
  /-- It is the last. -/
  unwritten : ∀ k, l < k → k < n → t.written isPrint (r.state k) (r.act k) ≠ some id
  /-- In between the worker was only seen. -/
  seen : ∀ k, m < k → k < n → t.written isPrint (r.state k) (r.act k) = some id →
    ∃ c, r.act k = .rpc c ∧ t.Heartbeats c id
  /-- The address has been in the registry ever since. -/
  kept : ∀ k, m < k → k ≤ n → ∃ w, (r.state k).registry.lookup id = some w ∧ w.address = address

variable (r : (t.secured isPrint).Run)

/-- **Every entry has its history.** -/
theorem exists_lastWritten (n : ℕ) {w : WorkerInfo} (hw : (r.state n).registry.lookup id = some w) :
    ∃ m l, LastWritten t isPrint r n id w.address m l := by
  induction n generalizing w with
  | zero =>
    have hinit : r.state 0 = (r.state 0).restart .down (r.state 0).config := r.start
    rw [hinit] at hw
    cases hw
  | succ n ih =>
    rcases entry_step (r.next n) hw with
      ⟨c, hc, hreg, hwr⟩ | ⟨c, w₀, hc, hbeat, hwr, hw₀, haddr⟩ | ⟨hwr, w₀, hw₀, haddr⟩
    · refine ⟨n, n, le_rfl, by omega, ⟨c, hc, hreg⟩, hwr, ⟨c, hc, hreg.by_worker⟩, hwr,
        fun k h1 h2 => by omega, fun k h1 h2 => by omega, fun k h1 h2 => ?_⟩
      obtain rfl : k = n + 1 := by omega
      exact ⟨w, hw, rfl⟩
    · obtain ⟨m, l, hl⟩ := ih hw₀
      rw [haddr] at hl
      have hlm := hl.le
      have hln := hl.lt
      refine ⟨m, n, by omega, by omega, hl.registered, hl.writes, ⟨c, hc, hbeat.by_worker⟩, hwr,
        fun k h1 h2 => by omega, fun k h1 h2 hk => ?_, fun k h1 h2 => ?_⟩
      · rcases Nat.lt_or_ge k n with hkn | hkn
        · exact hl.seen k h1 hkn hk
        · obtain rfl : k = n := by omega
          exact ⟨c, hc, hbeat⟩
      · rcases Nat.lt_or_ge n k with hkn | hkn
        · obtain rfl : k = n + 1 := by omega
          exact ⟨w, hw, rfl⟩
        · exact hl.kept k h1 hkn
    · obtain ⟨m, l, hl⟩ := ih hw₀
      rw [haddr] at hl
      have hlm := hl.le
      have hln := hl.lt
      refine ⟨m, l, hl.le, by omega, hl.registered, hl.writes, hl.last, hl.last_writes,
        fun k h1 h2 => ?_, fun k h1 h2 hk => ?_, fun k h1 h2 => ?_⟩
      · rcases Nat.lt_or_ge k n with hkn | hkn
        · exact hl.unwritten k h1 hkn
        · obtain rfl : k = n := by omega
          exact hwr
      · rcases Nat.lt_or_ge k n with hkn | hkn
        · exact hl.seen k h1 hkn hk
        · obtain rfl : k = n := by omega
          exact absurd hk hwr
      · rcases Nat.lt_or_ge n k with hkn | hkn
        · obtain rfl : k = n + 1 := by omega
          exact ⟨w, hw, rfl⟩
        · exact hl.kept k h1 hkn

theorem exists_submits {n : ℕ} {sid : SessionID} {req : SubmitJobRequest}
    (hx : (r.state n).submits sid req) :
    ∃ m c, m < n ∧ r.act m = .rpc c ∧ t.Submits c req ∧ sid = (r.state m).nextSession := by
  have h0 : ∀ s, (t.secured isPrint).init s → ¬ s.submits sid req := by
    rintro s hs ⟨x, hx, -⟩
    have hinit : s = s.restart .down s.config := hs
    rw [hinit] at hx
    cases hx
  obtain ⟨m, hmn, hm, hafter⟩ := r.exists_entry h0 hx
  rcases submits_step (r.next m) (hafter (m + 1) (by omega) hmn) with hold | ⟨c, hc, hsub, hsid⟩
  · exact absurd hold hm
  · exact ⟨m, c, hmn, hc, hsub, hsid⟩

/-- **Registry entries are bound to identities**, over every run of calls by
any peers and of the steps that are none. An entry was last written by a
call of the worker it names, recognized by the policy, and its address was
stored by a registration of that worker whose verified certificate covers
the host. A call changes the entry of its own principal at most, and none
where the peer has no principal. Only a recognized client begins a
submission. -/
theorem registry_identity_binding :
    (∀ n id w, (r.state n).registry.lookup id = some w →
      ∃ m l, LastWritten t isPrint r n id w.address m l) ∧
    (∀ n c p, r.act n = .rpc c → authenticatePeer t.lib c.peer c.authTime = .ok p →
      ∀ id, id ≠ p.workerID →
        (r.state (n + 1)).registry.lookup id = (r.state n).registry.lookup id) ∧
    (∀ n c e, r.act n = .rpc c → authenticatePeer t.lib c.peer c.authTime = .error e →
      r.state (n + 1) = r.state n) ∧
    (∀ n sid x req, (r.state n).sessions sid = some x → x.source = .submit req →
      ∃ m c p, m < n ∧ r.act m = .rpc c ∧ sid = (r.state m).nextSession ∧
        c.request = .submitJob (some req) ∧ authenticatePeer t.lib c.peer c.authTime = .ok p ∧
        recognizes t.policy p = true ∧ p.role = .client) := by
  refine ⟨fun n id w hw => exists_lastWritten r n hw, fun n c p hc hp id hid => ?_,
    fun n c e hc he => ?_, fun n sid x req hx hsrc => ?_⟩
  · have hnext := r.next n
    rw [hc] at hnext
    exact lookup_rpc hnext hp hid
  · have hnext := r.next n
    rw [hc] at hnext
    exact eq_of_unauthenticated hnext he
  · obtain ⟨m, c, hmn, hc, hsub, hsid⟩ := exists_submits r ⟨x, hx, hsrc⟩
    obtain ⟨p, hby, hrole⟩ := hsub.by_client
    exact ⟨m, c, p, hmn, hc, hsid, hsub.request, hby.authenticated, hby.recognized, hrole⟩

/-! ## A worker and a client -/

/-- The identity of the worker `w1`, and its subject alternative name. -/
def workerURI : Bytes := ascii "spiffe://distributedzk.local/worker/w1"

def clientURI : Bytes := ascii "spiffe://distributedzk.local/client/c1"

/-- A subject alternative name of one URI, in DER. -/
def sanOf (uri : Bytes) : Bytes :=
  [0x30, (uri.length + 2).toUInt8, 0x86, uri.length.toUInt8] ++ uri

def urlOf (path : Bytes) : Url :=
  ⟨ascii "spiffe", false, ascii "distributedzk.local", [], [], false, [], path⟩

/-- The library on the two identities. -/
def twoIdentities : Library where
  urlParse bs :=
    if bs = workerURI then some (urlOf (ascii "/worker/w1"))
    else if bs = clientURI then some (urlOf (ascii "/client/c1"))
    else none
  pathEscape bs := bs
  pathUnescape bs := some bs
  unmarshalNames bs :=
    if bs = sanOf workerURI then some ([⟨2, 6, false, workerURI⟩], [])
    else if bs = sanOf clientURI then some ([⟨2, 6, false, clientURI⟩], [])
    else none
  parseAddr _ := none

def certificateOf (uri path host : Bytes) : Certificate where
  uris := [some (urlOf path)]
  extensions := [⟨[2, 5, 29, 17], sanOf uri⟩]
  notBefore := 0
  notAfter := 100
  isCA := false
  extKeyUsage := [.clientAuth, .serverAuth]
  verifyHostname h := h == host

def callOf (cert : Certificate) (method : Bytes) (request : Request) : Call :=
  ⟨.tls ⟨0x0304, true, [[some cert]]⟩, method, request, 1, true, false, 2, none⟩

def workerCertificate : Certificate :=
  certificateOf workerURI (ascii "/worker/w1") (ascii "w1.zk")

def clientCertificate : Certificate :=
  certificateOf clientURI (ascii "/client/c1") (ascii "c1.zk")

def twoPeers : Transport :=
  ⟨twoIdentities, newPolicy ⟨.coordinator, ascii "main"⟩ [⟨.client, ascii "c1"⟩]
    [⟨.worker, ascii "w1"⟩]⟩

def bindingScript : List Input :=
  startup.dropLast.map .other ++
    [.rpc (callOf workerCertificate registerWorkerMethod
        (.registerWorker (some ⟨ascii "w1", ascii "w1.zk:7000"⟩))),
      .rpc (callOf workerCertificate heartbeatMethod (.heartbeat (some ⟨ascii "w1"⟩))),
      -- another worker's entry, and a worker's submission: both are refused
      .rpc (callOf workerCertificate registerWorkerMethod
        (.registerWorker (some ⟨ascii "w2", ascii "w1.zk:7000"⟩))),
      .rpc (callOf workerCertificate submitJobMethod
        (.submitJob (some ⟨1, ascii "echo", ascii "x", 1000⟩))),
      .rpc (callOf clientCertificate submitJobMethod
        (.submitJob (some ⟨1, ascii "echo", ascii "x", 1000⟩)))]

theorem plays_bindingScript :
    (twoPeers.secured asciiPrint).plays (offline .empty) bindingScript = true := by
  decide +kernel

/-- The run of the script. -/
def bindingRun : (twoPeers.secured asciiPrint).Run :=
  .ofScript (offline .empty) bindingScript (.other (.tick 0)) (fun _ => rfl) rfl plays_bindingScript

/-- The worker is registered at its own address and the client's submission
is begun; the worker's attempts at more were refused. -/
theorem registry_identity_binding_run :
    (∃ m l, LastWritten twoPeers asciiPrint bindingRun bindingScript.length (ascii "w1")
      (ascii "w1.zk:7000") m l) ∧
    (bindingRun.state bindingScript.length).registry.lookup (ascii "w2") = none ∧
    (∃ m c p, m < bindingScript.length ∧ bindingRun.act m = .rpc c ∧
      0 = (bindingRun.state m).nextSession ∧
      authenticatePeer twoIdentities c.peer c.authTime = .ok p ∧ p.role = .client) := by
  have hw : (bindingRun.state bindingScript.length).registry.lookup (ascii "w1") =
      some ⟨ascii "w1", ascii "w1.zk:7000", 0, .alive⟩ := by decide +kernel
  have hsrc : ((bindingRun.state bindingScript.length).sessions 0).map Session.source =
      some (.submit ⟨1, ascii "echo", ascii "x", 1000⟩) := by decide +kernel
  obtain ⟨x, hx, hx'⟩ := Option.map_eq_some_iff.1 hsrc
  obtain ⟨hentry, -, -, hsession⟩ := registry_identity_binding bindingRun
  obtain ⟨m, c, p, hm, hc, hsid, -, hp, -, hrole⟩ := hsession _ _ x _ hx hx'
  exact ⟨hentry _ _ _ hw, by decide +kernel, m, c, p, hm, hc, hsid, hp, hrole⟩

end Coordinator

end ZkRuntime
