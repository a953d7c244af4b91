import ApiClient.Client.Execute
import ApiClient.Client.Status

/-!
# ApiClient.Client.Retrieve

The ways to send a draft and take what comes back.

Design points:

* `retrieve` builds the request and sends nothing; one of the functions on a `Retrieval` sends it. A
  build that failed is reported then.
* Retrieving checks the status before the body is decoded. An exchange gives every reply to the
  caller's handler, whatever its status is.
-/

namespace ApiClient

variable {σ : Type}

/-- A request that was built to be retrieved. -/
structure Retrieval (σ : Type) where
  /-- The client that sends it. -/
  client : Client σ
  /-- The request, or why it could not be built. -/
  request : Except ClientError Prepared
  /-- The handlers of this call. -/
  handlers : List (StatusHandler σ) := []

/-- A decoded reply with its status and headers. -/
structure Entity (β : Type) where
  /-- The status. -/
  status : Status
  /-- The headers. -/
  headers : HeaderMap
  /-- The body. -/
  body : β

namespace Client

/-- Builds the request of a draft. A request that was built is logged. -/
def prepare (c : Client σ) (d : Draft) : Call σ (Except ClientError Prepared × Draft) := do
  let (request, left) := c.build d
  match request with
  | .ok (parts, _) => Call.log .debug s!"Built request {lineText parts}"
  | .error _ => pure ()
  return (request, left)

/-- Builds the request of a draft for retrieval. -/
def retrieve (c : Client σ) (d : Draft) : Call σ (Retrieval σ × Draft) := do
  let (request, left) ← c.prepare d
  return ({ client := c, request }, left)

/-- Sends a built request, and makes the reply of the response. -/
def send (c : Client σ) (request : Prepared) :
    Call σ (RequestParts × Except ClientError Reply) := do
  let (parts, outcome) ← c.execute request.1 request.2
  return (parts, outcome.map fun response => { response, codecs := c.codecs })

/-- Sends a draft and gives the reply to a handler. -/
def exchange {α : Type} (c : Client σ)
    (handler : RequestParts → Reply → Call σ (Reply × Except Failure α)) (d : Draft) :
    Call σ (Except ClientError α × Draft) := do
  let (request, left) ← c.prepare d
  match request with
  | .error e => return (.error e, left)
  | .ok request =>
    match ← c.send request with
    | (_, .error e) => return (.error e, left)
    | (parts, .ok reply) =>
      let (_, result) ← handler parts reply.rewind.2
      return (result.mapError (Failure.toError .exchange), left)

/-- Sends a draft and gives the reply to a handler, which has to return a value. -/
def exchangeRequired {α : Type} (c : Client σ)
    (handler : RequestParts → Reply → Call σ (Reply × Except Failure (Option α))) (d : Draft) :
    Call σ (Except ClientError α × Draft) := do
  let (result, left) ← c.exchange handler d
  return (result.bind fun
    | some value => .ok value
    | none => .error (.ofMessage .missingValue "Exchange handler returned no value"), left)

end Client

namespace Retrieval

/-- The retrieval with one more handler, to be asked after the others. -/
def onStatus (r : Retrieval σ) (handler : StatusHandler σ) : Retrieval σ :=
  { r with handlers := r.handlers ++ [handler] }

/-- Sends the request and handles the status of the reply. -/
def reply (r : Retrieval σ) : Call σ (Except ClientError Reply) := do
  match r.request with
  | .error e => return .error e
  | .ok request =>
    match ← r.client.send request with
    | (_, .error e) => return .error e
    | (parts, .ok reply) =>
      let (reply, result) ← reply.handleStatus (r.handlers ++ r.client.statusHandlers) parts
      return result.map fun _ => reply

/-- The decoded body, if there is anything in it. -/
def body (r : Retrieval σ) (target : Expectation) : Call σ (Except ClientError (Option Json)) := do
  return (← r.reply).bind fun reply => (reply.decode target).1

/-- The body. -/
def bodyBytes (r : Retrieval σ) : Call σ (Except ClientError Bytes) := do
  return (← r.reply).bind fun reply => reply.readBytes.1

/-- The body as text. -/
def bodyText (r : Retrieval σ) : Call σ (Except ClientError String) := do
  return (← r.reply).bind fun reply => reply.readText.1

/-- The decoded body with status and headers. -/
def entity (r : Retrieval σ) (target : Expectation) :
    Call σ (Except ClientError (Entity (Option Json))) := do
  return (← r.reply).bind fun reply =>
    (reply.decode target).1.map fun body =>
      { status := reply.response.status, headers := reply.response.headers, body }

/-- Status and headers; the body is read and dropped. -/
def bodilessEntity (r : Retrieval σ) : Call σ (Except ClientError (Entity Unit)) := do
  match ← r.reply with
  | .error e => return .error e
  | .ok reply =>
    match reply.readBytes.1 with
    | .error e => return .error e
    | .ok bytes =>
      Call.log .debug s!"Discarded {bytes.length} bytes of response body"
      return .ok { status := reply.response.status, headers := reply.response.headers, body := () }

end Retrieval

end ApiClient
