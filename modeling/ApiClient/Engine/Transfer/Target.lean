import ApiClient.Engine.Answer
import ApiClient.Engine.Network
import ApiClient.Http.Uri
import ApiClient.Text.Base64
import ApiClient.Url.Path

/-!
# ApiClient.Engine.Transfer.Target

Where a transfer goes: the address of a request as the transfer client reads it.

Design points:

* An address without a scheme is one of the plain protocol. A path alone is no address.
* A host that is a number in any spelling is an address of version 4. A name is kept as it is
  written, and the names of the own machine are known without asking.
* The user and the password of an address are not part of the target. They go into a header.
* Dots are taken out of a path, and apart from that path and query are sent as they are written.
-/

namespace ApiClient.Transfer

/-- An authority: who asks, and at which place. -/
structure Authority where
  /-- The user and the password with a colon between them. -/
  credentials : Option Bytes
  /-- The host. -/
  host : Host
  /-- The port. -/
  port : Option Nat
deriving Repr, DecidableEq

/-! ## Hosts -/

/-- A character that may stand in a name. -/
def isNameChar (c : Char) : Bool := c.isAlphanum || "-._~".toList.contains c

/-- The address of version 4 that a name spells. Every part of it is a number, in lower case. -/
def numericHost? (name : List Char) : Option Host :=
  let isPart (part : List Char) : Bool :=
    !part.isEmpty && part != ['0', 'x'] && !part.contains 'X'
  if (Pieces.cut '.' name).all isPart then (Host.parseIpv4 name).toOption else none

/-- The host of a text. -/
def hostOf? (s : List Char) : Option Host :=
  if s.head? == some '[' then (Host.parse s).toOption
  else if s.isEmpty || !s.all isNameChar then none
  else some ((numericHost? s).getD (.domain (String.ofList s)))

/-- The address of the own machine. -/
def loopback : Host := .ipv4 0x7f000001

/-- Whether a name is one of the own machine. -/
def isOwnName (name : String) : Bool :=
  let name := name.toLower
  name == "localhost" || name == "localhost." || name.endsWith ".localhost"

/-- The host to which a connection is opened. -/
def resolved : Host → Host
  | .domain name => if isOwnName name then loopback else .domain name
  | host => host

/-! ## Authorities -/

/-- The credentials of a user information, decoded. They hold no zero byte. -/
def credentialsOf? (user : List Char) : Option Bytes :=
  let decoded (s : List Char) : Bytes := Percent.decode (Bytes.ofText (String.ofList s))
  let (name, rest) := user.span (· != ':')
  let credentials := decoded name ++ 0x3a :: decoded (rest.drop 1)
  if credentials.contains 0 then none else some credentials

/-- The host and the port of a text; the host may have brackets. -/
def splitPort (s : List Char) : List Char × List Char :=
  if s.head? == some '[' then
    let (front, rest) := s.span (· != ']')
    (front ++ rest.take 1, rest.drop 1)
  else s.span (· != ':')

/-- The port of a text behind a host: a colon and a number of 16 bits. The number may be missing if
`mayLack` allows it. -/
def portOf? (mayLack : Bool) : List Char → Option (Option Nat)
  | [] => some none
  | [':'] => if mayLack then some none else none
  | ':' :: digits =>
    match Answer.decimal? (Bytes.ofText (String.ofList digits)) with
    | some n => if n < 65536 then some (some n) else none
    | none => none
  | _ => none

/-- The authority of a text. -/
def Authority.parse? (mayLackPort : Bool) (s : List Char) : Option Authority := do
  let (credentials, place) ← match s.span (· != '@') with
    | (user, _ :: place) => (credentialsOf? user).map fun c => (some c, place)
    | (place, []) => some (none, place)
  let (host, rest) := splitPort place
  return ⟨credentials, ← hostOf? host, ← portOf? mayLackPort rest⟩

/-- The value of a header that carries credentials. -/
def basicText (credentials : Bytes) : String :=
  "Basic " ++ String.ofList (Base64.encode credentials)

/-! ## Targets -/

/-- Where a transfer goes. -/
structure Target where
  /-- The scheme. -/
  scheme : String
  /-- Who asks, and at which place. -/
  authority : Authority
  /-- The path. -/
  path : String
  /-- The query. -/
  query : Option String
deriving Repr, DecidableEq

/-- A path without dots. No segment is a drive to it, so two dots drop any segment. -/
def withoutDots (path : String) : String :=
  let segments := (Pieces.cut '/' (path.toList.drop 1)).map String.ofList
  "/" ++ "/".intercalate (Url.addSegments (·.drop 1) (fun _ s => s) [] segments).reverse

/-- The first labels of names that stand for other protocols where an address has no scheme. -/
def foreignLabels : List String := ["ftp.", "dict.", "ldap.", "imap.", "smtp.", "pop3."]

/-- Whether a host without a scheme stands for another protocol. -/
def isForeign : Host → Bool
  | .domain name => foreignLabels.any fun label => name.toLower.startsWith label
  | _ => false

/-- The target of an address. -/
def Target.ofUri (u : Uri) : Except EngineFault Target := do
  let some text := u.authority | throw (.invalidUrl .relativeWithoutBase)
  let some authority := Authority.parse? u.scheme.isSome text.toList
    | throw (.invalidUrl .invalidHostChar)
  let scheme := u.scheme.getD "http"
  if scheme != "http" && scheme != "https" || u.scheme.isNone && isForeign authority.host then
    throw (.unknownScheme u.text scheme)
  return { scheme, authority, path := withoutDots u.path, query := u.query }

namespace Target

/-- The port that the scheme uses by itself. -/
def defaultPort (t : Target) : Nat := (Url.defaultPort? t.scheme).getD 80

/-- The place to which a direct connection is opened. -/
def endpoint (t : Target) : Endpoint :=
  ⟨resolved t.authority.host, t.authority.port.getD t.defaultPort⟩

/-- The host with its port, if that is not the scheme's own. -/
def placeText (t : Target) : String :=
  t.authority.host.text
    ++ ((t.authority.port.filter (· != t.defaultPort)).map fun p => s!":{p}").getD ""

/-- The target of a request to the place itself. -/
def directText (t : Target) : String := t.path ++ (t.query.map ("?" ++ ·)).getD ""

/-- The target of a request to a proxy, without an empty query. -/
def absoluteText (t : Target) : String :=
  s!"{t.scheme}://" ++ t.placeText ++ t.path
    ++ ((t.query.filter (· != "")).map ("?" ++ ·)).getD ""

end Target

/-! ## Proxies -/

/-- The port of a proxy whose address names none. -/
def proxyPort : Nat := 1080

/-- The place of a proxy and the credentials for it, for a transfer to the given address. A proxy
that speaks something else is not reached. -/
def proxyOf (url : String) (proxy : Uri) : Except EngineFault (Endpoint × Option Bytes) :=
  match proxy.authority.bind fun a => Authority.parse? proxy.scheme.isSome a.toList with
  | none => .error (.noAddress url proxy.text)
  | some a =>
    if proxy.scheme.all (· == "http") then
      .ok (⟨resolved a.host, a.port.getD proxyPort⟩, a.credentials)
    else .error (.unreachable url)

end ApiClient.Transfer
