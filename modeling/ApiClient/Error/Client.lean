import ApiClient.Error.Transport
import ApiClient.Http.Status

/-!
# ApiClient.Error.Client

Errors of a client's calls.

Design points:

* The kind says which stage of a call failed. An answer with an error status has a kind of its own,
  which names the status.
* Only an error made from an answer carries a status, headers and a body; they are one optional
  record.
* The message of a status error shows the beginning of the body, the record keeps all of it.
-/

namespace ApiClient

/-- The statuses of requests at fault. -/
inductive ClientErrorStatus where
  /-- The status 400. -/
  | badRequest
  /-- The status 401. -/
  | unauthorized
  /-- The status 403. -/
  | forbidden
  /-- The status 404. -/
  | notFound
  /-- The status 405. -/
  | methodNotAllowed
  /-- The status 406. -/
  | notAcceptable
  /-- The status 409. -/
  | conflict
  /-- The status 410. -/
  | gone
  /-- The status 415. -/
  | unsupportedMediaType
  /-- The status 422. -/
  | unprocessableEntity
  /-- The status 429. -/
  | tooManyRequests
  /-- Any other registered status of the class. -/
  | other (status : Status)
deriving Repr, DecidableEq

namespace ClientErrorStatus

/-- The case of a status. -/
def ofStatus (s : Status) : ClientErrorStatus :=
  match s.code with
  | 400 => badRequest
  | 401 => unauthorized
  | 403 => forbidden
  | 404 => notFound
  | 405 => methodNotAllowed
  | 406 => notAcceptable
  | 409 => conflict
  | 410 => gone
  | 415 => unsupportedMediaType
  | 422 => unprocessableEntity
  | 429 => tooManyRequests
  | _ => other s

/-- The status of a case. -/
def status : ClientErrorStatus → Status
  | badRequest => ⟨400, by decide⟩
  | unauthorized => ⟨401, by decide⟩
  | forbidden => ⟨403, by decide⟩
  | notFound => ⟨404, by decide⟩
  | methodNotAllowed => ⟨405, by decide⟩
  | notAcceptable => ⟨406, by decide⟩
  | conflict => ⟨409, by decide⟩
  | gone => ⟨410, by decide⟩
  | unsupportedMediaType => ⟨415, by decide⟩
  | unprocessableEntity => ⟨422, by decide⟩
  | tooManyRequests => ⟨429, by decide⟩
  | other s => s

/-- The name of a case. -/
def text : ClientErrorStatus → String
  | badRequest => "BadRequest"
  | unauthorized => "Unauthorized"
  | forbidden => "Forbidden"
  | notFound => "NotFound"
  | methodNotAllowed => "MethodNotAllowed"
  | notAcceptable => "NotAcceptable"
  | conflict => "Conflict"
  | gone => "Gone"
  | unsupportedMediaType => "UnsupportedMediaType"
  | unprocessableEntity => "UnprocessableEntity"
  | tooManyRequests => "TooManyRequests"
  | other s => s!"Other({s.code})"

end ClientErrorStatus

/-- The statuses of servers at fault. -/
inductive ServerErrorStatus where
  /-- The status 500. -/
  | internalServerError
  /-- The status 501. -/
  | notImplemented
  /-- The status 502. -/
  | badGateway
  /-- The status 503. -/
  | serviceUnavailable
  /-- The status 504. -/
  | gatewayTimeout
  /-- Any other registered status of the class. -/
  | other (status : Status)
deriving Repr, DecidableEq

namespace ServerErrorStatus

/-- The case of a status. -/
def ofStatus (s : Status) : ServerErrorStatus :=
  match s.code with
  | 500 => internalServerError
  | 501 => notImplemented
  | 502 => badGateway
  | 503 => serviceUnavailable
  | 504 => gatewayTimeout
  | _ => other s

/-- The status of a case. -/
def status : ServerErrorStatus → Status
  | internalServerError => ⟨500, by decide⟩
  | notImplemented => ⟨501, by decide⟩
  | badGateway => ⟨502, by decide⟩
  | serviceUnavailable => ⟨503, by decide⟩
  | gatewayTimeout => ⟨504, by decide⟩
  | other s => s

/-- The name of a case. -/
def text : ServerErrorStatus → String
  | internalServerError => "InternalServerError"
  | notImplemented => "NotImplemented"
  | badGateway => "BadGateway"
  | serviceUnavailable => "ServiceUnavailable"
  | gatewayTimeout => "GatewayTimeout"
  | other s => s!"Other({s.code})"

end ServerErrorStatus

/-- The kinds of client errors. -/
inductive ClientErrorKind where
  /-- The address could not be made. -/
  | uriExpansion
  /-- The transport failed. -/
  | transport (kind : TransportErrorKind)
  /-- The answer blames the request. -/
  | clientStatus (status : ClientErrorStatus)
  /-- The answer blames the server. -/
  | serverStatus (status : ServerErrorStatus)
  /-- The answer has another status that is no success, or an unregistered one. -/
  | unknownStatus (status : Status)
  /-- A status handler failed. -/
  | statusHandling
  /-- An exchange handler failed. -/
  | exchange
  /-- An interceptor failed. -/
  | interceptor
  /-- An exchange handler returned no value. -/
  | missingValue
  /-- A body was not encoded or decoded. -/
  | codec
  /-- A body was not read. -/
  | localIo
deriving Repr, DecidableEq

namespace ClientErrorKind

/-- The name of a kind. -/
def text : ClientErrorKind → String
  | uriExpansion => "UriExpansion"
  | transport kind => s!"Transport({kind.text})"
  | clientStatus status => s!"ClientStatus({status.text})"
  | serverStatus status => s!"ServerStatus({status.text})"
  | unknownStatus status => s!"UnknownStatus({status.code})"
  | statusHandling => "StatusHandling"
  | exchange => "Exchange"
  | interceptor => "Interceptor"
  | missingValue => "MissingValue"
  | codec => "Codec"
  | localIo => "LocalIo"

/-- The kinds that say nothing but the stage. -/
def stages : List ClientErrorKind :=
  [uriExpansion, statusHandling, exchange, interceptor, missingValue, codec, localIo]

/-- The kind of a name of a stage. -/
def ofText? (s : String) : Option ClientErrorKind := stages.find? (·.text == s)

/-- The status that a kind names. -/
def status? : ClientErrorKind → Option Status
  | clientStatus status => some status.status
  | serverStatus status => some status.status
  | unknownStatus status => some status
  | _ => none

/-- The kind of a status that is no success. -/
def ofStatus (s : Status) : ClientErrorKind :=
  if s.reason?.isNone then unknownStatus s
  else if s.isClientError then clientStatus (.ofStatus s)
  else if s.isServerError then serverStatus (.ofStatus s)
  else unknownStatus s

end ClientErrorKind

/-- The answer that a status error was made from. -/
structure StatusReport where
  /-- The status. -/
  status : Status
  /-- The headers. -/
  headers : HeaderMap
  /-- The whole body. -/
  body : Bytes
deriving DecidableEq

/-- An error of a client's call. -/
structure ClientError where
  /-- The stage that failed. -/
  kind : ClientErrorKind
  /-- What happened. -/
  cause : Cause
  /-- The answer, if the error was made from one. -/
  report : Option StatusReport := none
deriving DecidableEq

namespace ClientError

/-- The text of the cause. -/
def message (e : ClientError) : String := e.cause.text

/-- The text of the error. -/
def text (e : ClientError) : String := s!"[{e.kind.text}] {e.cause.text}"

/-- The texts of the errors behind this one, nearest first. -/
def chain (e : ClientError) : List String := e.cause.text :: e.cause.sources

/-- An error with a text alone. -/
def ofMessage (kind : ClientErrorKind) (text : String) : ClientError := ⟨kind, .message text, none⟩

/-- A transport's error. -/
def ofTransport (e : TransportError) : ClientError := ⟨.transport e.kind, e.toCause, none⟩

/-- A failure to read a body. -/
def ofIo (e : IoError) : ClientError := ⟨.localIo, .io e, none⟩

/-- A failure to decode a value. -/
def ofJson (e : Json.Error) : ClientError := ⟨.codec, .json e, none⟩

/-- A failure to encode or decode a body. -/
def ofCodec (e : CodecError) : ClientError := ⟨.codec, .codec e, none⟩

/-- A failure to make an address. -/
def ofAddress (e : AddressError) : ClientError := ⟨.uriExpansion, .address e, none⟩

/-- A text that is no header value. -/
def invalidHeader : ClientError := .ofTransport ⟨.invalidHeader, none, .invalidHeaderValue⟩

/-- The number of bytes of a body that a message shows. -/
def shownBytes : Nat := 1024

/-- The message of a status error. -/
def statusMessage (status : Status) (body : Bytes) : String :=
  if body.isEmpty then s!"{status.code} {status.text}: [no body]"
  else s!"{status.code} {status.text}: \"{Utf8.decodeLossy (body.take shownBytes)}\""

/-- The error of an answer whose status is no success. -/
def ofStatus (status : Status) (headers : HeaderMap) (body : Bytes) : ClientError :=
  ⟨.ofStatus status, .message (statusMessage status body), some ⟨status, headers, body⟩⟩

/-- The error of an answer whose body is still to be read. -/
def readStatus (status : Status) (headers : HeaderMap) (body : Stream) : ReadResult ClientError :=
  body.readAll.1.map (ofStatus status headers)

end ClientError

end ApiClient
