import ApiClient.Address.Resolve
import ApiClient.Codec.Basic
import ApiClient.Error.Engine

/-!
# ApiClient.Error.Transport

Errors of transports, and the causes that errors carry.

Design points:

* An error is a kind, by which callers decide what to do, and a cause, which says what happened. A
  cause is a value of its own type, so that a caller can look for the cause it knows.
* An answer with an error status is no error of the transport.
-/

namespace ApiClient

/-- The kinds of transport errors. -/
inductive TransportErrorKind where
  /-- A request or an answer that violates the protocol. -/
  | invalidRequestResponse
  /-- An address that cannot be called. -/
  | invalidUrl
  /-- An ill-formed header. -/
  | invalidHeader
  /-- No connection to the server. -/
  | connectError
  /-- No connection through the proxy. -/
  | proxyError
  /-- No connection to the name server. -/
  | dnsServerError
  /-- A host without an address. -/
  | unknownHostError
  /-- A failure while sending. -/
  | sendError
  /-- A failure while receiving. -/
  | receiveError
  /-- A failure of local input or output. -/
  | localIoError
  /-- A time limit that passed. -/
  | timeoutError
  /-- A failure of encryption. -/
  | sslError
  /-- Too many redirections. -/
  | tooManyRedirect
  /-- Anything else. -/
  | unknownError
deriving Repr, DecidableEq

namespace TransportErrorKind

/-- The name of a kind. -/
def text : TransportErrorKind → String
  | invalidRequestResponse => "InvalidRequestResponse"
  | invalidUrl => "InvalidUrl"
  | invalidHeader => "InvalidHeader"
  | connectError => "ConnectError"
  | proxyError => "ProxyError"
  | dnsServerError => "DnsServerError"
  | unknownHostError => "UnknownHostError"
  | sendError => "SendError"
  | receiveError => "ReceiveError"
  | localIoError => "LocalIoError"
  | timeoutError => "TimeoutError"
  | sslError => "SslError"
  | tooManyRedirect => "TooManyRedirect"
  | unknownError => "UnknownError"

/-- All kinds. -/
def all : List TransportErrorKind :=
  [invalidRequestResponse, invalidUrl, invalidHeader, connectError, proxyError, dnsServerError,
   unknownHostError, sendError, receiveError, localIoError, timeoutError, sslError,
   tooManyRedirect, unknownError]

/-- The kind of a name. -/
def ofText? (s : String) : Option TransportErrorKind := all.find? (·.text == s)

end TransportErrorKind

/-- What an error carries. -/
inductive Cause where
  /-- A text alone. -/
  | message (text : String)
  /-- An error of a type of the caller's own: the name of the type, and the text. -/
  | custom (type text : String)
  /-- An input or output error. -/
  | io (e : IoError)
  /-- A JSON error. -/
  | json (e : Json.Error)
  /-- An error of a codec. -/
  | codec (e : CodecError)
  /-- An error of an address. -/
  | address (e : AddressError)
  /-- A text that is no header value. -/
  | invalidHeaderValue
  /-- A failure below a transport. -/
  | engine (e : EngineFault)
  /-- An error of a transport. -/
  | transport (kind : TransportErrorKind) (uri : Option Uri) (cause : Cause)
deriving DecidableEq

namespace Cause

/-- The text of a transport error with the given cause. -/
def transportText (kind : TransportErrorKind) (uri : Option Uri) (cause : String) : String :=
  s!"[{kind.text}]" ++ (uri.map fun u => s!"[{u.text}]").getD "" ++ " " ++ cause

/-- The text of the cause. -/
def text : Cause → String
  | message t => t
  | custom _ t => t
  | io e => e.message
  | json e => e.message
  | codec e => e.message
  | address e => e.message
  | invalidHeaderValue => HeaderValue.invalidMessage
  | engine e => e.message
  | transport kind uri cause => transportText kind uri cause.text

/-- The texts of the errors behind the cause, nearest first. -/
def sources : Cause → List String
  | codec e => e.sources
  | engine e => e.sources
  | transport _ _ cause => cause.text :: cause.sources
  | _ => []

end Cause

/-- An error of a transport. -/
structure TransportError where
  /-- The kind. -/
  kind : TransportErrorKind
  /-- The address of the request. -/
  uri : Option Uri := none
  /-- What happened. -/
  cause : Cause
deriving DecidableEq

namespace TransportError

/-- The text of the error. -/
def text (e : TransportError) : String := Cause.transportText e.kind e.uri e.cause.text

/-- The texts of the errors behind this one, nearest first. -/
def chain (e : TransportError) : List String := e.cause.text :: e.cause.sources

/-- The error as a cause. -/
def toCause (e : TransportError) : Cause := .transport e.kind e.uri e.cause

end TransportError

end ApiClient
