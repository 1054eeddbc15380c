import ZkRuntime.Coordinator.Model.System
import ZkRuntime.RpcAuth.Model.Policy
/-!
# The coordinator behind its transport

`newServer` and `validateWorkerRegistration` of
`cmd/coordinator/transport.go`: the chain of interceptors in front of the
handlers. The interceptors touch nothing of the server's state, so a call
is one step, at the section under `s.mu` of its handler; a `SubmitJob` goes
on as a session. The times the interceptors read, and what the lifecycle
gate answers, are part of the call.
-/

namespace ZkRuntime

namespace Coordinator

open RpcAuth

/-- `coordinatorTransport`, as far as the interceptors read it, with the
library they call. -/
structure Transport where
  lib : Library
  policy : Option Policy

/-- **A call**, with what its interceptors read. -/
structure Call where
  peer : Peer
  method : Bytes
  request : Request
  /-- The time `UnaryInterceptor` reads. -/
  authTime : Time
  /-- `tryEnter` admits the request. -/
  admitted : Bool
  /-- `requestCtx.Err()` is not nil behind it. -/
  ended : Bool
  /-- The time `VerifyPeerHostname` reads. -/
  hostTime : Time
  /-- `ctx.Err()` as the handler reads it. -/
  ctxErr : Option ContextError

/-- What a handler answers; the answer of a submission is its session's. -/
inductive Reply where
  | registered (accepted : Bool) (error : Bytes)
  | seen (accepted : Bool)
  | submitted
  deriving DecidableEq

namespace Transport

variable (t : Transport) (isPrint : ℕ → Bool)

/-- The lifecycle's `unaryInterceptor`. -/
def lifecycleInterceptor (c : Call) : Except Refusal Unit :=
  if c.admitted = false then
    .error (.status .unavailable (ascii "coordinator is shutting down"))
  else if c.ended then .error .context
  else .ok ()

/-- **`validateWorkerRegistration`**; a request of another type, or a nil
one, panics. -/
def validateWorkerRegistration (c : Call) : Except Refusal Unit :=
  if c.method = registerWorkerMethod then
    match c.request with
    | .registerWorker (some registration) =>
      match parseTCPEndpoint t.lib registration.address with
      | none => .error (.status .invalidArgument (ascii "invalid Worker TCP endpoint"))
      | some host => verifyPeerHostname t.lib c.peer c.hostTime host
    | _ => .error .panicked
  else .ok ()

/-- **The interceptors**, in the order of the chain. -/
def intercept (c : Call) : Except Refusal Unit :=
  match unaryInterceptor t.lib t.policy c.peer c.authTime c.method c.request with
  | .error e => .error e
  | .ok () =>
    match lifecycleInterceptor c with
    | .error e => .error e
    | .ok () => t.validateWorkerRegistration c

/-- `RegisterWorker`. -/
def registerWorkerHandler (s : State) (req : RegisterWorkerRequest) : Option (State × Reply) :=
  if req.workerID = [] ∨ req.address = [] then
    some (s, .registered false (ascii "worker_id and address are required"))
  else if parseTCPEndpoint t.lib req.address = none then
    some (s, .registered false (ascii "invalid Worker TCP endpoint"))
  else (s.step isPrint (.registerWorker req.workerID req.address)).map (·, .registered true [])

/-- `Heartbeat`. -/
def heartbeatHandler (s : State) (req : HeartbeatRequest) : Option (State × Reply) :=
  (s.step isPrint (.heartbeat req.workerID)).map
    (·, .seen (s.registry.lookup req.workerID).isSome)

/-- The handler the service description gives a method, with the type of
request it decodes. -/
def handle (s : State) (c : Call) : Option (State × Except Refusal Reply) :=
  if c.method = registerWorkerMethod then
    match c.request with
    | .registerWorker (some req) => (t.registerWorkerHandler isPrint s req).map fun x => (x.1, .ok x.2)
    | _ => some (s, .error .panicked)
  else if c.method = heartbeatMethod then
    match c.request with
    | .heartbeat (some req) => (heartbeatHandler isPrint s req).map fun x => (x.1, .ok x.2)
    | _ => some (s, .error .panicked)
  else if c.method = submitJobMethod then
    match c.request with
    | .submitJob (some req) =>
      (s.step isPrint (.submit req c.ctxErr)).map (·, .ok .submitted)
    | _ => some (s, .error .panicked)
  -- a method the service does not have: no interceptor is called for it
  else some (s, .error (unknownServiceHandler t.lib c.peer c.authTime))

/-- The methods `RegisterCoordinatorServiceServer` registers. -/
def isRegistered (method : Bytes) : Bool :=
  method == registerWorkerMethod || method == heartbeatMethod || method == submitJobMethod

/-- **A call served**, where its handler does not have to wait. -/
def serve (s : State) (c : Call) : Option (State × Except Refusal Reply) :=
  if isRegistered c.method then
    match t.intercept c with
    | .error e => some (s, .error e)
    | .ok () => t.handle isPrint s c
  else t.handle isPrint s c

end Transport

/-- What can happen to a coordinator behind its transport: a call, or a step
that is not one. -/
inductive Input where
  | rpc (c : Call)
  | other (a : Action)

/-- The actions that only a call takes. -/
def Action.isCall : Action → Bool
  | .registerWorker .. | .heartbeat _ | .submit .. => true
  | _ => false

/-- **The coordinator behind its transport.** -/
def Transport.secured (t : Transport) (isPrint : ℕ → Bool) : System State Input where
  init s := s = s.restart .down s.config
  step s
    | .rpc c => if s.phase = .serving then (t.serve isPrint s c).map (·.1) else none
    | .other a => if a.isCall then none else s.step isPrint a

end Coordinator

end ZkRuntime
