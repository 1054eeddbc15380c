import ZkRuntime.Common.JsonString
import ZkRuntime.RpcAuth.Model.Endpoint
/-!
# IP literals

`netip.ParseAddr`: dotted decimal, the textual forms of IPv6, and those
with a zone. An address is its fields, four of eight bits or eight of
sixteen. `net.JoinHostPort` and the check of the listen address, in
`cmd/coordinator/config.go`, are here as well.
-/

namespace ZkRuntime

namespace RpcAuth

namespace NetIp

/-- A field of dotted decimal, without leading zeros. -/
def octet (s : Bytes) : Option ℕ :=
  if s ≠ [] ∧ s.all Bytes.isDigit = true ∧ (s.head? = some 0x30 → s.length = 1) ∧ Bytes.decimalValue s < 256 then
    some (Bytes.decimalValue s)
  else none

/-- Four fields. -/
def parseIPv4 (s : Bytes) : Option (List ℕ) :=
  match s.splitOn 0x2E with
  | [a, b, c, d] =>
    match octet a, octet b, octet c, octet d with
    | some a, some b, some c, some d => some [a, b, c, d]
    | _, _, _, _ => none
  | _ => none

/-- A field of IPv6: one to four hexadecimal digits. -/
def group (s : Bytes) : Option ℕ :=
  if s ≠ [] ∧ s.length ≤ 4 ∧ s.all (fun c => (Json.hexVal c).isSome) = true then
    some (s.foldl (fun n c => n * 16 + (Json.hexVal c).getD 0) 0)
  else none

/-- Fields between colons. -/
def groups : List Bytes → Option (List ℕ)
  | [] => some []
  | g :: gs =>
    match group g, groups gs with
    | some u, some us => some (u :: us)
    | _, _ => none

/-- The same, where the last may be an IPv4 address in place of two. -/
def groupsEmbedded : List Bytes → Option (List ℕ)
  | [] => none
  | [g] =>
    if 0x2E ∈ g then
      match parseIPv4 g with
      | some [a, b, c, d] => some [a * 256 + b, c * 256 + d]
      | _ => none
    else (group g).map fun u => [u]
  | g :: gs =>
    match group g, groupsEmbedded gs with
    | some u, some us => some (u :: us)
    | _, _ => none

/-- The text in front of the first `::` and behind it. -/
def cutEllipsis : Bytes → Option (Bytes × Bytes)
  | a :: b :: s =>
    if a = 0x3A ∧ b = 0x3A then some ([], s)
    else (cutEllipsis (b :: s)).map fun p => (a :: p.1, p.2)
  | _ => none

/-- The eight fields. An ellipsis stands for one field of zeros or more. -/
def fields (s : Bytes) : Option (List ℕ) :=
  match cutEllipsis s with
  | some (l, r) =>
    match (if l = [] then some [] else groups (l.splitOn 0x3A)),
      (if r = [] then some [] else groupsEmbedded (r.splitOn 0x3A)) with
    | some us, some vs =>
      if us.length + vs.length < 8 then some (us ++ List.replicate (8 - us.length - vs.length) 0 ++ vs) else none
    | _, _ => none
  | none =>
    match groupsEmbedded (s.splitOn 0x3A) with
    | some us => if us.length = 8 then some us else none
    | none => none

/-- An address with its zone. `fields` has four members or eight. -/
structure IpAddr where
  fields : List ℕ
  zone : Bytes
  deriving DecidableEq

/-- `parseIPv6`: a zone is behind the first percent sign, and not empty. -/
def parseIPv6 (s : Bytes) : Option IpAddr :=
  let body := s.takeWhile (· != 0x25)
  let tail := s.drop body.length
  if tail.length = 1 then none
  else (fields body).map fun us => ⟨us, tail.drop 1⟩

/-- `netip.ParseAddr`: the first dot, colon or percent sign decides. -/
def parseAddr (s : Bytes) : Option IpAddr :=
  match s.find? fun c => c == 0x2E || c == 0x3A || c == 0x25 with
  | some c =>
    if c = 0x2E then (parseIPv4 s).map fun fs => ⟨fs, []⟩
    else if c = 0x3A then parseIPv6 s
    else none
  | none => none

/-- `Is4`. -/
def IpAddr.is4 (ip : IpAddr) : Bool := ip.fields.length == 4

/-- `Unmap`: an IPv4 address mapped into IPv6 is taken out of it. -/
def IpAddr.unmap (ip : IpAddr) : IpAddr :=
  match ip.fields with
  | [0, 0, 0, 0, 0, 0xFFFF, u, v] => ⟨[u / 256, u % 256, v / 256, v % 256], []⟩
  | _ => ip

/-- `IsUnspecified`. -/
def IpAddr.isUnspecified (ip : IpAddr) : Bool := ip.fields.all (· == 0) && ip.zone == []

/-- What the package asks of an address. -/
def IpAddr.toAddr (ip : IpAddr) : Addr := ⟨ip.zone, ip.unmap.isUnspecified, ip.is4⟩

/-- The library, with this reading of addresses. -/
def library (lib : Library) : Library := { lib with parseAddr := fun s => (parseAddr s).map IpAddr.toAddr }

end NetIp

/-- `net.JoinHostPort`. -/
def joinHostPort (host port : Bytes) : Bytes :=
  if 0x3A ∈ host then 0x5B :: (host ++ 0x5D :: 0x3A :: port) else host ++ 0x3A :: port

/-- `validateCoordinatorListenAddress`. -/
def validateCoordinatorListenAddress (lib : Library) (address : Bytes) : Bool :=
  match splitHostPort address with
  | none => false
  | some (host, port) =>
    if port.length = 0 ∨ 5 < port.length ∨ (1 < port.length ∧ port.head? = some 0x30) then false
    else if port.all Bytes.isDigit = false ∨ 65535 < Bytes.decimalValue port then false
    else if host = [] then !(address.head? == some 0x5B)
    else
      match lib.parseAddr host with
      | some ip => !(ip.zone != [] || (ip.is4 && address.head? == some 0x5B))
      | none =>
        if address.head? = some 0x5B then false
        else (parseTCPEndpoint lib (joinHostPort host (ascii "1"))).isSome

end RpcAuth

end ZkRuntime
