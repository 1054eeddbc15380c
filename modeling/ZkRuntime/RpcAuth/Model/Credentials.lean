import ZkRuntime.RpcAuth.Model.Endpoint
/-!
# Credentials of a dispatch

`Material`, `NewClientTLS` and `WorkerCredentials` of
`internal/rpcauth/tls.go`: what a connection to a worker expects of the
server it reaches.
-/

namespace ZkRuntime

namespace RpcAuth

/-- `Material`, as far as `valid` looks at it; a nil one is `none` where it
is passed. -/
structure Material where
  principal : Principal
  hasRoots : Bool
  hasLeaf : Bool

/-- `valid`. -/
def Material.valid : Option Material → Bool
  | none => false
  | some m => m.principal.valid && m.hasRoots && m.hasLeaf

/-- The part of the `tls.Config` that the server is held against. -/
structure ClientTLS where
  serverName : Bytes
  expected : Principal
  deriving DecidableEq

/-- `NewClientTLS`. -/
def newClientTLS (local_ : Option Material) (serverName : Bytes) (expected : Principal) :
    Option ClientTLS :=
  if Material.valid local_ = false ∨ serverName = [] ∨ expected.valid = false ∨ expected.role = .client then
    none
  else some ⟨serverName, expected⟩

/-- **`WorkerCredentials`.** -/
def workerCredentials (lib : Library) (m : Option Material) (workerID address : Bytes) :
    Option ClientTLS :=
  if Material.valid m = false ∨ (m.map (·.principal.role)) ≠ some .coordinator then none
  else
    match parseTCPEndpoint lib address with
    | none => none
    | some host =>
      match parsePrincipal lib (ascii "spiffe://distributedzk.local/worker/" ++ lib.pathEscape workerID) with
      | none => none
      | some expected => newClientTLS m host expected

end RpcAuth

end ZkRuntime
