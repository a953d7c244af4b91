import ApiClient.Error.Client
import ApiClient.Message.Response

/-!
# ApiClient.Client.Reply

Responses as callers handle them.

Design points:

* A body is read once, unless it was buffered: then every reading of the whole body starts from its
  beginning.
* Decoding goes by the media type that the headers name. A body without a media type is a byte
  string, and a body without content decodes into nothing.
-/

namespace ApiClient

/-- A response in the hands of a caller. -/
structure Reply where
  /-- The response. -/
  response : Response
  /-- The codecs that decode its body. -/
  codecs : List Codec

namespace Reply

/-- The media type of the body, if the headers name one. -/
def mediaTypeOf (headers : HeaderMap) : Option MediaType := do
  MediaType.parse? (← (← headers.get? .contentType).text?)

/-- The media type of the body, if the headers name one. -/
def mediaType? (r : Reply) : Option MediaType := mediaTypeOf r.response.headers

/-- Whether the body was buffered. -/
def isBuffered (r : Reply) : Bool := r.response.body.isBuffered

/-- The reply with another body. -/
def withBody (r : Reply) (body : ResponseBody) : Reply :=
  { r with response := { r.response with body } }

/-- Goes back to the start of a buffered body, and says whether it was one. -/
def rewind (r : Reply) : Bool × Reply :=
  if r.isBuffered then
    let (done, body) := r.response.body.rewind
    (done, r.withBody body)
  else (false, r)

/-- The body, or what is left of one that was not buffered. -/
def readBytes (r : Reply) : Except ClientError Bytes × Reply :=
  let r := r.rewind.2
  let (result, body) := r.response.body.readAll
  (result.mapError .ofIo, r.withBody body)

/-- The body as text, or what is left of one that was not buffered. -/
def readText (r : Reply) : Except ClientError String × Reply :=
  let r := r.rewind.2
  let (result, body) := r.response.body.readText
  (result.mapError .ofIo, r.withBody body)

/-- What a body decodes into, if there is anything in it. -/
def decodeBytes (codecs : List Codec) (mediaType : Option MediaType) (target : Expectation)
    (body : Bytes) : Except ClientError (Option Json) :=
  if body.isEmpty then .ok none
  else do
    let mediaType := mediaType.getD .octetStream
    let codec ← (Codec.findReader codecs target mediaType).mapError ClientError.ofCodec
    match ← (codec.read body mediaType).mapError ClientError.ofCodec with
    | none => .ok none
    | some value =>
      (target.shape.conform value).mapError (fun e => .ofJson (.misshapen e)) |>.map some

/-- Decodes the body, or what is left of one that was not buffered. -/
def decode (r : Reply) (target : Expectation) : Except ClientError (Option Json) × Reply :=
  match r.readBytes with
  | (.error e, r) => (.error e, r)
  | (.ok body, r) => (decodeBytes r.codecs r.mediaType? target body, r)

end Reply

/-- How a handler of the caller's fails. -/
inductive Failure where
  /-- With an error of a client's call. -/
  | client (e : ClientError)
  /-- With anything else. -/
  | other (cause : Cause)
deriving DecidableEq

/-- The error of a failed handler: its own if it is one of a call, else one of the given kind. -/
def Failure.toError (kind : ClientErrorKind) : Failure → ClientError
  | client e => e
  | other cause => ⟨kind, cause, none⟩

end ApiClient
