import ZkRuntime.Coordinator.Model.Job
import ZkRuntime.RpcAuth.Model.Endpoint
/-!
# The policy

`internal/rpcauth/policy.go`: the allowlist, and what each identity may
call. A request is what the interceptor is handed, a pointer of one of the
message types or anything else.
-/

namespace ZkRuntime

namespace RpcAuth

/-- `RegisterWorkerRequest`. -/
structure RegisterWorkerRequest where
  workerID : Bytes
  address : Bytes
  deriving DecidableEq

/-- `HeartbeatRequest`. -/
structure HeartbeatRequest where
  workerID : Bytes
  deriving DecidableEq

/-- The request as `any`; `none` is a nil pointer. -/
inductive Request where
  | submitJob (req : Option Coordinator.SubmitJobRequest)
  | registerWorker (req : Option RegisterWorkerRequest)
  | heartbeat (req : Option HeartbeatRequest)
  | executeJob (req : Option Coordinator.ExecuteJobRequest)
  | other
  deriving DecidableEq

def submitJobMethod : Bytes := ascii "/runtime.CoordinatorService/SubmitJob"

def registerWorkerMethod : Bytes := ascii "/runtime.CoordinatorService/RegisterWorker"

def heartbeatMethod : Bytes := ascii "/runtime.CoordinatorService/Heartbeat"

def executeJobMethod : Bytes := ascii "/runtime.WorkerService/ExecuteJob"

/-- `Policy`. -/
structure Policy where
  coordinator : Principal
  allowed : List Principal

/-- `NewPolicy`. -/
def newPolicy (coordinator : Principal) (clients workers : List Principal) : Option Policy :=
  if coordinator.valid = false ∨ coordinator.role ≠ .coordinator then none
  else if clients.all (fun p => p.valid && p.role == .client) &&
      workers.all (fun p => p.valid && p.role == .worker) then
    some ⟨coordinator, coordinator :: clients ++ workers⟩
  else none

/-- `recognizes`, of a policy that may be nil. -/
def recognizes (policy : Option Policy) (p : Principal) : Bool :=
  match policy with
  | none => false
  | some policy => p.valid && decide (p ∈ policy.allowed)

/-- The switch of `AuthorizeRPC`, for a principal that is recognized. -/
def permits (policy : Policy) (p : Principal) (method : Bytes) (request : Request) : Bool :=
  if method = submitJobMethod then
    match request with
    | .submitJob (some _) => p.role == .client
    | _ => false
  else if method = registerWorkerMethod then
    match request with
    | .registerWorker (some req) => p.role == .worker && req.workerID == p.workerID
    | _ => false
  else if method = heartbeatMethod then
    match request with
    | .heartbeat (some req) => p.role == .worker && req.workerID == p.workerID
    | _ => false
  else if method = executeJobMethod then
    match request with
    | .executeJob (some _) => p == policy.coordinator
    | _ => false
  else false

/-- **`AuthorizeRPC`.** -/
def authorizeRPC (policy : Option Policy) (p : Principal) (method : Bytes) (request : Request) :
    Except Refusal Unit :=
  let allowed := recognizes policy p && policy.any fun policy => permits policy p method request
  if allowed then .ok ()
  else .error (.status .permissionDenied (ascii "RPC not permitted for peer identity"))

/-- **`UnaryInterceptor`**, up to the handler. -/
def unaryInterceptor (lib : Library) (policy : Option Policy) (peer : Peer) (now : ℕ)
    (method : Bytes) (request : Request) : Except Refusal Unit :=
  match authenticatePeer lib peer now with
  | .error e => .error e
  | .ok p => authorizeRPC policy p method request

/-- `UnknownServiceHandler`: no handler is entered. -/
def unknownServiceHandler (lib : Library) (peer : Peer) (now : ℕ) : Refusal :=
  match authenticatePeer lib peer now with
  | .error e => e
  | .ok _ => .status .permissionDenied (ascii "RPC method not permitted")

end RpcAuth

end ZkRuntime
