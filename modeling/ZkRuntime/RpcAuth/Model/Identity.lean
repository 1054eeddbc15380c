import ZkRuntime.Common.Utf8
/-!
# Principals, and the peers that carry them

`internal/rpcauth/identity.go`, with `checkRoleUsages` of `tls.go`. A
connection state is what the TLS transport verified; what `x509` says of a
certificate (the hosts it covers) is part of the certificate. The parsers
of `net/url` and `encoding/asn1` are arguments, in a `Library`.
-/

namespace ZkRuntime

namespace RpcAuth

/-- `Role`, where it is one of the three that are valid. -/
inductive Role where
  | coordinator
  | worker
  | client
  deriving DecidableEq, Repr

/-- `string(role)`. -/
def Role.text : Role → Bytes
  | .coordinator => ascii "coordinator"
  | .worker => ascii "worker"
  | .client => ascii "client"

/-- `Role(parts[1])`: another text is a role that `valid` refuses. -/
def Role.ofText (bs : Bytes) : Option Role :=
  if bs = ascii "coordinator" then some .coordinator
  else if bs = ascii "worker" then some .worker
  else if bs = ascii "client" then some .client
  else none

/-- `Principal`. -/
structure Principal where
  role : Role
  id : Bytes
  deriving DecidableEq

/-- The parts of a `url.URL` that are read; `hasUser` is `User != nil`. -/
structure Url where
  scheme : Bytes
  hasUser : Bool
  host : Bytes
  opaquePart : Bytes
  rawQuery : Bytes
  forceQuery : Bool
  fragment : Bytes
  /-- `EscapedPath()`. -/
  escapedPath : Bytes
  deriving DecidableEq

/-- `asn1.RawValue`. -/
structure RawValue where
  tagClass : ℕ
  tag : ℕ
  isCompound : Bool
  bytes : Bytes
  deriving DecidableEq

/-- What `netip.ParseAddr` returns; `isUnspecified` is asked after
`Unmap`. -/
structure Addr where
  zone : Bytes
  isUnspecified : Bool
  is4 : Bool
  deriving DecidableEq

/-- **The parsers of the standard library** that the package calls. A
failure is `none`. -/
structure Library where
  /-- `url.Parse`. -/
  urlParse : Bytes → Option Url
  /-- `url.PathEscape`. -/
  pathEscape : Bytes → Bytes
  /-- `url.PathUnescape`. -/
  pathUnescape : Bytes → Option Bytes
  /-- `asn1.Unmarshal` into a list of raw values, with the rest. -/
  unmarshalNames : Bytes → Option (List RawValue × Bytes)
  /-- `netip.ParseAddr`. -/
  parseAddr : Bytes → Option Addr

namespace Principal

variable (lib : Library) (p : Principal)

/-- `WorkerID`. -/
def workerID : Bytes := if p.role = .worker then p.id else []

/-- `URI`. -/
def uri : Bytes := ascii "spiffe://distributedzk.local/" ++ p.role.text ++ ascii "/" ++ lib.pathEscape p.id

/-- `valid`. -/
def valid : Bool :=
  if p.id = [] ∨ Utf8.validString p.id = false then false
  else
    match p.role with
    | .coordinator => p.id == ascii "main"
    | .worker | .client => true

end Principal

section

variable (lib : Library)

/-- **`ParsePrincipal`.** -/
def parsePrincipal (identity : Bytes) : Option Principal :=
  match lib.urlParse identity with
  | none => none
  | some u =>
    if u.scheme ≠ ascii "spiffe" ∨ u.host ≠ ascii "distributedzk.local" ∨ u.hasUser = true ∨
        u.opaquePart ≠ [] ∨ u.rawQuery ≠ [] ∨ u.forceQuery = true ∨ u.fragment ≠ [] ∨
        0x23 ∈ identity then none
    else
      match u.escapedPath.splitOn 0x2F with
      | [[], role, escaped] =>
        match lib.pathUnescape escaped with
        | none => none
        | some id =>
          if id = [] ∨ Utf8.validString id = false then none
          else
            match Role.ofText role with
            | none => none
            | some role =>
              let p : Principal := ⟨role, id⟩
              if p.valid = false ∨ p.uri lib ≠ identity then none else some p
      | _ => none

/-- `x509.ExtKeyUsage`, as far as it is asked for. -/
inductive ExtKeyUsage where
  | serverAuth
  | clientAuth
  | other (n : ℕ)
  deriving DecidableEq

/-- `pkix.Extension`. -/
structure Extension where
  id : List ℕ
  value : Bytes
  deriving DecidableEq

/-- `x509.Certificate`. -/
structure Certificate where
  uris : List (Option Url)
  extensions : List Extension
  notBefore : ℕ
  notAfter : ℕ
  isCA : Bool
  extKeyUsage : List ExtKeyUsage
  /-- `VerifyHostname` succeeds. -/
  verifyHostname : Bytes → Bool

/-- The loop over the names of a subject alternative name: the first URI
decides. -/
def firstUri (names : List RawValue) : Option RawValue :=
  names.find? fun name => name.tagClass == 2 && name.tag == 6 && !name.isCompound

/-- The loop over the extensions. -/
def sanPrincipal : List Extension → Option Principal
  | [] => none
  | ext :: exts =>
    if ext.id ≠ [2, 5, 29, 17] then sanPrincipal exts
    else
      match lib.unmarshalNames ext.value with
      | some (names, []) =>
        match firstUri names with
        | some name => parsePrincipal lib name.bytes
        | none => sanPrincipal exts
      | _ => none

/-- **`certificatePrincipal`**; the certificate is not nil where it is
called. -/
def certificatePrincipal (cert : Certificate) : Option Principal :=
  match cert.uris with
  | [some _] => sanPrincipal lib cert.extensions
  | _ => none

/-- `roleUsages`. -/
def roleUsages : Role → List ExtKeyUsage
  | .client => [.clientAuth]
  | _ => [.clientAuth, .serverAuth]

/-- `checkRoleUsages` returns no error. -/
def checkRoleUsages (cert : Certificate) (p : Principal) : Bool :=
  !cert.isCA && (roleUsages p.role).all fun usage => decide (usage ∈ cert.extKeyUsage)

/-- `tls.ConnectionState`. -/
structure ConnectionState where
  version : ℕ
  handshakeComplete : Bool
  verifiedChains : List (List (Option Certificate))

/-- `tls.VersionTLS13`. -/
def versionTLS13 : ℕ := 0x0304

/-- A certificate of the chain is there, and valid now. -/
def currentlyValid (now : ℕ) : Option Certificate → Bool
  | none => false
  | some cert => !(decide (now < cert.notBefore) || decide (cert.notAfter < now))

/-- **`verifiedPrincipal`.** -/
def verifiedPrincipal (state : ConnectionState) (now : ℕ) : Option Principal :=
  if state.version < versionTLS13 then none
  else
    match state.verifiedChains with
    | (some leaf :: rest) :: _ =>
      if (some leaf :: rest).all (currentlyValid now) then
        match certificatePrincipal lib leaf with
        | none => none
        | some p => if checkRoleUsages leaf p then some p else none
      else none
    | _ => none

/-- What a request's context says of its peer: nothing, something that is
not TLS, or the connection it came on. -/
inductive Peer where
  | missing
  | notTLS
  | tls (state : ConnectionState)

/-- `codes.Code`, as far as it is returned. -/
inductive Code where
  | unauthenticated
  | permissionDenied
  | invalidArgument
  | unavailable
  deriving DecidableEq, Repr

/-- How a call ends without its handler: with a status, with the error of
its context, or with a panic. -/
inductive Refusal where
  | status (code : Code) (message : Bytes)
  | context
  | panicked
  deriving DecidableEq

/-- **`AuthenticatePeer`**, at the time it reads. -/
def authenticatePeer (peer : Peer) (now : ℕ) : Except Refusal Principal :=
  let refused := Except.error (.status .unauthenticated (ascii "verified peer identity required"))
  match peer with
  | .tls state =>
    if state.handshakeComplete then
      match verifiedPrincipal lib state now with
      | some p => .ok p
      | none => refused
    else refused
  | _ => refused

/-- The leaf of the chain the transport verified. -/
def Peer.leaf : Peer → Option Certificate
  | .tls state =>
    match state.verifiedChains with
    | (some leaf :: _) :: _ => some leaf
    | _ => none
  | _ => none

/-- **`VerifyPeerHostname`**: the peer is authenticated once more, at the
time this reads, and its leaf must cover the host. -/
def verifyPeerHostname (peer : Peer) (now : ℕ) (host : Bytes) : Except Refusal Unit :=
  match authenticatePeer lib peer now with
  | .error e => .error e
  | .ok _ =>
    match peer.leaf with
    | none => .error .panicked
    | some leaf =>
      if leaf.verifyHostname host then .ok ()
      else .error (.status .permissionDenied
        (ascii "advertised host is not covered by peer certificate"))

end

end RpcAuth

end ZkRuntime
