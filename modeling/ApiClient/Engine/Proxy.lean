import ApiClient.Engine.Network

/-!
# ApiClient.Engine.Proxy

Addresses of proxies, as users write them: an optional protocol, optional credentials, a host and an
optional port.
-/

namespace ApiClient

/-- What a proxy speaks. -/
inductive ProxyProtocol where
  /-- The protocol of the requests themselves. -/
  | http
  /-- A protocol for connections of any kind. -/
  | socks
deriving Repr, DecidableEq

/-- The address of a proxy. -/
structure ProxyAddress where
  /-- What the proxy speaks. -/
  protocol : ProxyProtocol
  /-- The user's name and password. -/
  credentials : Option (String × String)
  /-- The host. -/
  host : String
  /-- The port. -/
  port : Nat
deriving Repr, DecidableEq

namespace ProxyAddress

/-- Splits a text at the first occurrence of a character. -/
def splitAtFirst (c : Char) (s : List Char) : Option (List Char × List Char) :=
  match s.span (· != c) with
  | (front, _ :: rest) => some (front, rest)
  | (_, []) => none

/-- Splits a text behind the first `://`. -/
def splitProtocol : List Char → Option (List Char × List Char)
  | [] => none
  | ':' :: '/' :: '/' :: rest => some ([], rest)
  | c :: rest => (splitProtocol rest).map fun (front, rest) => (c :: front, rest)

/-- The protocol of a name. -/
def protocolOf (name : String) : Option ProxyProtocol :=
  if name == "http" then some .http
  else if ["socks", "socks4", "socks4a", "socks5"].contains name then some .socks
  else none

/-- Splits a text at its last `@` into credentials and the rest; credentials have a colon. -/
def splitCredentials (s : List Char) : Option (Option (String × String) × List Char) :=
  if s.contains '@' then do
    let rest := (s.reverse.takeWhile (· != '@')).reverse
    let (user, password) ← splitAtFirst ':' (s.take (s.length - rest.length - 1))
    return (some (String.ofList user, String.ofList password), rest)
  else some (none, s)

/-- The address of a text. -/
def parse? (s : String) : Option ProxyAddress := do
  let trimmed := (s.toList.reverse.dropWhile (· == '/')).reverse
  let (protocol, rest) ← match splitProtocol trimmed with
    | none => some (.http, trimmed)
    | some (name, rest) => (protocolOf (String.ofList name)).map (·, rest)
  let (credentials, place) ← splitCredentials rest
  let (host, port) ← match splitAtFirst ':' place with
    | none => some (place, if protocol = .http then 80 else 1080)
    | some (host, digits) =>
      if digits.isEmpty || !digits.all Char.isDigit then none
      else some (host, digits.foldl (fun n c => 10 * n + (c.toNat - 48)) 0)
  return { protocol, credentials, host := String.ofList host, port }

/-- The place of a proxy. A host that is no host of a URL is taken for a name. -/
def endpoint (p : ProxyAddress) : Endpoint :=
  ⟨(Host.parse p.host.toList).toOption.getD (.domain p.host), p.port⟩

end ProxyAddress

end ApiClient
