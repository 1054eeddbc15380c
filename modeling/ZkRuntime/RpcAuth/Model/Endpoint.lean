import ZkRuntime.RpcAuth.Model.Identity
/-!
# Endpoints

`internal/rpcauth/endpoint.go`, with the `net.SplitHostPort` it begins
with. The loops of the source go over runes; a byte beyond ASCII is in no
rune they let through, so they are loops over bytes here.
-/

namespace ZkRuntime

namespace RpcAuth

/-- The place of the last byte `c`. -/
def lastIndexByte (bs : Bytes) (c : UInt8) : Option ℕ :=
  (bs.reverse.findIdx? (· == c)).map fun k => bs.length - 1 - k

/-- The host of `host:port` and the place behind which a closing bracket is
not expected; `i` is the place of the last colon. -/
def splitHost (hostport : Bytes) (i : ℕ) : Option (Bytes × ℕ × ℕ) :=
  if hostport.head? = some 0x5B then
    match hostport.findIdx? (· == 0x5D) with
    | none => none
    | some e => if e + 1 = i then some ((hostport.take e).drop 1, 1, e + 1) else none
  else
    if 0x3A ∈ hostport.take i then none else some (hostport.take i, 0, 0)

/-- `net.SplitHostPort`. -/
def splitHostPort (hostport : Bytes) : Option (Bytes × Bytes) :=
  match lastIndexByte hostport 0x3A with
  | none => none
  | some i =>
    match splitHost hostport i with
    | none => none
    | some (host, j, k) =>
      if 0x5B ∈ hostport.drop j ∨ 0x5D ∈ hostport.drop k then none
      else some (host, hostport.drop (i + 1))

def isLetter (b : UInt8) : Bool :=
  (0x61 ≤ b.toNat && b.toNat ≤ 0x7A) || (0x41 ≤ b.toNat && b.toNat ≤ 0x5A)

def isHexLetter (b : UInt8) : Bool :=
  (0x61 ≤ b.toNat && b.toNat ≤ 0x66) || (0x41 ≤ b.toNat && b.toNat ≤ 0x46)

/-- **`numericAddressLabel`.** -/
def numericAddressLabel (label : Bytes) : Bool :=
  let hex := label.take 2 == ascii "0x" || label.take 2 == ascii "0X"
  let label := if hex then label.drop 2 else label
  label != [] && label.all fun c => Bytes.isDigit c || (hex && isHexLetter c)

/-- A label a host name may have. -/
def validLabel (label : Bytes) : Bool :=
  !(label.length == 0 || decide (63 < label.length) || label.head? == some 0x2D ||
    label.getLast? == some 0x2D) &&
  label.all fun c => isLetter c || Bytes.isDigit c || c == 0x2D

/-- The port of an endpoint. -/
def validPort (port : Bytes) : Bool :=
  !(port == [] || decide (5 < port.length) || port.head? == some 0x30) &&
  port.all Bytes.isDigit &&
  !(decide (Bytes.decimalValue port < 1) || decide (65535 < Bytes.decimalValue port))

/-- **`ParseTCPEndpoint`**: the host, where the endpoint is one. -/
def parseTCPEndpoint (lib : Library) (address : Bytes) : Option Bytes :=
  match splitHostPort address with
  | none => none
  | some (host, port) =>
    if host = [] ∨ validPort port = false then none
    else
      match lib.parseAddr host with
      | some ip =>
        if ip.zone ≠ [] ∨ ip.isUnspecified = true ∨ (ip.is4 = true ∧ 0x5B ∈ address) then none
        else some host
      | none =>
        if 253 < host.length ∨ 0x5B ∈ address ∨ 0x5D ∈ address then none
        else
          let labels := host.splitOn 0x2E
          if labels.all validLabel = false then none
          -- a name needs a letter, and must not read as a numeric address
          else if labels.any (fun label => label.any isLetter) = false ∨
              labels.all numericAddressLabel = true then none
          else some host

example : splitHostPort (ascii "[::1]:80") = some (ascii "::1", ascii "80") := by decide +kernel

example : splitHostPort (ascii "a:b:80") = none := by decide +kernel

end RpcAuth

end ZkRuntime
