import ZkRuntime.Common.JsonString
import ZkRuntime.RpcAuth.Model.Endpoint
/-!
# `net/url`

`Parse`, `EscapedPath`, `PathEscape` and `PathUnescape`, as far as
principals depend on them. How a host in brackets is read is a parameter.
-/

namespace ZkRuntime

namespace RpcAuth

namespace NetUrl

/-- The parts of a URL, `encoding`; the modes of user information and of
fragments unescape as paths do. -/
inductive Mode where
  | path
  | pathSegment
  | host
  deriving DecidableEq, Repr

/-- One byte in a set of characters. -/
def isIn (set : String) (c : UInt8) : Bool := (ascii set).contains c

/-- **`shouldEscape`.** -/
def shouldEscape (m : Mode) (c : UInt8) : Bool :=
  if isLetter c || Bytes.isDigit c then false
  else if m = .host && isIn "!$&'()*+,;=:[]<>\"" c then false
  else if isIn "-_.~" c then false
  else if isIn "$&+,/:;=?@" c then
    match m with
    | .path => c = 0x3F
    | .pathSegment => isIn "/;,?" c
    | .host => true
  else true

/-- A digit of `upperhex`. -/
def upperHex (n : ℕ) : UInt8 := if n < 10 then (0x30 + n).toUInt8 else (0x37 + n).toUInt8

/-- One byte of `escape`. -/
def escapeByte (m : Mode) (c : UInt8) : Bytes :=
  if shouldEscape m c then [0x25, upperHex (c.toNat / 16), upperHex (c.toNat % 16)] else [c]

/-- `escape`. -/
def escape (m : Mode) (s : Bytes) : Bytes := s.flatMap (escapeByte m)

/-- `unescape`: in a host only bytes beyond ASCII and the percent sign may be
escaped, and what should be escaped must be. -/
def unescape (m : Mode) : Bytes → Option Bytes
  | [] => some []
  | c :: cs =>
    if c = 0x25 then
      match cs with
      | a :: b :: rest =>
        match Json.hexVal a, Json.hexVal b with
        | some x, some y =>
          if m = .host ∧ x < 8 ∧ ¬ (a = 0x32 ∧ b = 0x35) then none
          else (unescape m rest).map ((x * 16 + y).toUInt8 :: ·)
        | _, _ => none
      | _ => none
    else if m = .host ∧ c.toNat < 0x80 ∧ shouldEscape m c then none
    else (unescape m cs).map (c :: ·)

/-- `PathEscape`. -/
def pathEscape (s : Bytes) : Bytes := escape .pathSegment s

/-- `PathUnescape`. -/
def pathUnescape (s : Bytes) : Option Bytes := unescape .pathSegment s

/-- `strings.Cut` at a byte. -/
def cut (c : UInt8) (s : Bytes) : Bytes × Bytes := (s.takeWhile (· != c), (s.dropWhile (· != c)).drop 1)

/-- The loop of `getScheme`, with what it has passed. -/
def schemeFrom (rawURL : Bytes) : Bytes → Bytes → Option (Bytes × Bytes)
  | _, [] => some ([], rawURL)
  | passed, c :: cs =>
    if isLetter c then schemeFrom rawURL (passed ++ [c]) cs
    else if Bytes.isDigit c || isIn "+-." c then
      if passed = [] then some ([], rawURL) else schemeFrom rawURL (passed ++ [c]) cs
    else if c = 0x3A then
      if passed = [] then none else some (passed, cs)
    else some ([], rawURL)

/-- `getScheme`. -/
def getScheme (rawURL : Bytes) : Option (Bytes × Bytes) := schemeFrom rawURL [] rawURL

def toLower (c : UInt8) : UInt8 := if 0x41 ≤ c.toNat ∧ c.toNat ≤ 0x5A then c + 0x20 else c

/-- `validOptionalPort`. -/
def validOptionalPort (port : Bytes) : Bool :=
  match port with
  | [] => true
  | c :: ds => c == 0x3A && ds.all Bytes.isDigit

/-- `parseHost`. -/
def parseHost (ipLiteral : Bytes → Option Bytes) (host : Bytes) : Option Bytes :=
  if host.head? = some 0x5B then ipLiteral host
  else
    match lastIndexByte host 0x3A with
    | some i => if validOptionalPort (host.drop i) then unescape .host host else none
    | none => unescape .host host

/-- `validUserinfo`. -/
def validUserinfo (s : Bytes) : Bool :=
  s.all fun c => isLetter c || Bytes.isDigit c || isIn "-._:~!$&'()*+,;=%@" c

/-- The user information is there, and can be read. -/
def parseUserinfo (userinfo : Bytes) : Option Bool :=
  if validUserinfo userinfo = false then none
  else if 0x3A ∉ userinfo then (unescape .path userinfo).map fun _ => true
  else
    match unescape .path (cut 0x3A userinfo).1, unescape .path (cut 0x3A userinfo).2 with
    | some _, some _ => some true
    | _, _ => none

/-- `parseAuthority`: whether there is user information, and the host. -/
def parseAuthority (ipLiteral : Bytes → Option Bytes) (authority : Bytes) : Option (Bool × Bytes) :=
  match lastIndexByte authority 0x40 with
  | none => (parseHost ipLiteral authority).map fun host => (false, host)
  | some i =>
    match parseHost ipLiteral (authority.drop (i + 1)) with
    | none => none
    | some host => (parseUserinfo (authority.take i)).map fun user => (user, host)

/-- `validEncoded`, for a path. -/
def validEncoded (s : Bytes) : Bool :=
  s.all fun c => isIn "!$&'()*+,;=:@" c || isIn "[]" c || c == 0x25 || !shouldEscape .path c

/-- `EscapedPath`, of the fields `Path` and `RawPath`. -/
def escapedPath (path rawPath : Bytes) : Bytes :=
  if rawPath ≠ [] ∧ validEncoded rawPath = true ∧ unescape .path rawPath = some path then rawPath
  else if path = ascii "*" then ascii "*"
  else escape .path path

/-- `setPath`, and `EscapedPath` after it. -/
def setPath (p : Bytes) : Option Bytes :=
  (unescape .path p).map fun path => escapedPath path (if p = escape .path path then [] else p)

/-- The authority and the path of `parse`. -/
def parseRest (ipLiteral : Bytes → Option Bytes) (scheme rest rawQuery : Bytes) (forceQuery : Bool) :
    Option Url :=
  if (scheme ≠ [] ∨ rest.take 3 ≠ ascii "///") ∧ rest.take 2 = ascii "//" then
    let authority := (rest.drop 2).takeWhile (· != 0x2F)
    match parseAuthority ipLiteral authority with
    | none => none
    | some (hasUser, host) =>
      (setPath ((rest.drop 2).dropWhile (· != 0x2F))).map fun path =>
        ⟨scheme, hasUser, host, [], rawQuery, forceQuery, [], path⟩
  else (setPath rest).map fun path => ⟨scheme, false, [], [], rawQuery, forceQuery, [], path⟩

/-- `parse`, which is handed what is in front of a fragment. -/
def parseReference (ipLiteral : Bytes → Option Bytes) (rawURL : Bytes) : Option Url :=
  if rawURL.any fun b => decide (b.toNat < 0x20) || b == 0x7F then none
  else if rawURL = ascii "*" then some ⟨[], false, [], [], [], false, [], ascii "*"⟩
  else
    match getScheme rawURL with
    | none => none
    | some (scheme, rest) =>
      let scheme := scheme.map toLower
      let forceQuery := rest.getLast? == some 0x3F && rest.count 0x3F == 1
      let path := if forceQuery then rest.dropLast else (cut 0x3F rest).1
      let rawQuery := if forceQuery then [] else (cut 0x3F rest).2
      if path.head? ≠ some 0x2F then
        if scheme ≠ [] then some ⟨scheme, false, [], path, rawQuery, forceQuery, [], []⟩
        else if 0x3A ∈ (cut 0x2F path).1 then none
        else parseRest ipLiteral scheme path rawQuery forceQuery
      else parseRest ipLiteral scheme path rawQuery forceQuery

/-- **`Parse`.** -/
def parse (ipLiteral : Bytes → Option Bytes) (rawURL : Bytes) : Option Url :=
  match parseReference ipLiteral (cut 0x23 rawURL).1 with
  | none => none
  | some u =>
    if (cut 0x23 rawURL).2 = [] then some u
    else (unescape .path (cut 0x23 rawURL).2).map fun fragment => { u with fragment := fragment }

end NetUrl

/-- **The library**, with `net/url` in it. -/
def netUrl (ipLiteral : Bytes → Option Bytes)
    (unmarshalNames : Bytes → Option (List RawValue × Bytes)) (parseAddr : Bytes → Option Addr) :
    Library where
  urlParse := NetUrl.parse ipLiteral
  pathEscape := NetUrl.pathEscape
  pathUnescape := NetUrl.pathUnescape
  unmarshalNames := unmarshalNames
  parseAddr := parseAddr

end RpcAuth

end ZkRuntime
