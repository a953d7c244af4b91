import ApiClient.Client.Basic
import ApiClient.Engine.Transfer.Answer
import ApiClient.Engine.Transfer.Target
import ApiClient.Url.Join

/-!
# ApiClient.Engine.Transfer

The transfer client: a machine for single transfers, with settings that each request may override.

Design points:

* A setting of the request wins over the same setting of the client.
* The machine adds its own header lines where the request has none of the name, spelled in title
  case; the lines of the request keep their lower case unless it asks for title case.
* A redirection is an answer unless the client is told to follow. Following always fails, because
  the body that would have to be sent again is gone, even if it was empty.
-/

namespace ApiClient

variable {σ : Type}

namespace Transfer

/-- The settings of one transfer. -/
structure Settings where
  /-- What to do with redirections. -/
  redirectPolicy : RedirectPolicy
  /-- Whether encoded bodies are asked for and decoded. -/
  decompression : Bool
  /-- The proxy. -/
  proxy : Option Uri
  /-- Whether the header names of the request are sent in title case. -/
  titleCase : Bool

/-- A request as the machine gets it. -/
structure Outbound where
  /-- The method. -/
  method : Method
  /-- The address. -/
  url : Uri
  /-- The headers. -/
  headers : HeaderMap
  /-- The settings of the transfer. -/
  settings : Settings
  /-- The body. -/
  body : RequestBody

end Transfer

/-- A transfer client. -/
structure TransferClient (σ : Type) where
  /-- The network. -/
  network : Network σ
  /-- What to do with redirections. -/
  redirectPolicy : RedirectPolicy := .none
  /-- Whether encoded bodies are asked for and decoded. -/
  decompression : Bool := true
  /-- The proxy. -/
  proxy : Option Uri := none
  /-- Why a request is not accepted for the machine, if it is not. -/
  refusal? : Transfer.Outbound → Option String := fun _ => none

namespace Transfer

/-- The settings of a request: its own ones, or else those of the client. -/
def settings (c : TransferClient σ) (e : Extensions) : Settings :=
  { redirectPolicy := e.redirectPolicy.getD c.redirectPolicy
    decompression := e.decompression.getD c.decompression
    proxy := e.proxy.getD c.proxy
    titleCase := e.titleCaseHeaders.getD false }

/-- The error for a name of the sending software that is no header value. -/
def headerError (p : RequestParts) : TransportError :=
  { kind := .invalidHeader, uri := some p.url, cause := .invalidHeaderValue }

/-- The error for a request that is not accepted. -/
def refusalError (p : RequestParts) (reason : String) : TransportError :=
  { kind := .invalidRequestResponse, uri := some p.url, cause := .message reason }

/-- The headers of a request with the name of the sending software. -/
def headersOf [Build] (p : RequestParts) : Except TransportError HeaderMap :=
  if p.headers.contains .userAgent then .ok p.headers
  else match HeaderValue.ofText? (p.engineUserAgent "resty-isahc") with
    | some value => .ok (p.headers.append .userAgent value)
    | none => .error (headerError p)

/-- The size of a body from which on the server is asked whether it wants the body. -/
def askingSize : Nat := 1024 * 1024

/-- The number of bytes of a body that are announced. -/
def announced (headers : HeaderMap) (body : RequestBody) : Option Nat :=
  ((headers.get? .contentLength).bind fun v => Answer.word? v.bytes).or body.size?

/-- Whether a byte string occurs in another one. -/
def occursIn (part : Bytes) : Bytes → Bool
  | [] => part.isEmpty
  | b :: rest => part.isPrefixOf (b :: rest) || occursIn part rest

/-- Whether the headers of a request say that its body goes in chunks. -/
def asksForChunks (headers : HeaderMap) : Bool :=
  (headers.get? .transferEncoding).any fun v =>
    occursIn chunkCoding.bytes (Bytes.toLower v.bytes)

/-- Where a transfer goes on its way. -/
structure Route where
  /-- The place to which a connection is opened. -/
  place : Endpoint
  /-- The credentials for the proxy there, or nothing, if it is one. -/
  proxy : Option (Option Bytes)

/-- The route of a transfer. -/
def routeOf (s : Settings) (url : String) (t : Target) : Except EngineFault Route :=
  match s.proxy with
  | none => .ok ⟨t.endpoint, none⟩
  | some proxy => (proxyOf url proxy).map fun (place, credentials) => ⟨place, some credentials⟩

/-- The lines that the machine adds to those of a request. -/
def addedLines (s : Settings) (t : Target) (route : Route) (method : Method) (size : Option Nat)
    (inChunks : Bool) : List (String × String) :=
  [("Host", t.placeText), ("Accept", "*/*")]
    ++ (t.authority.credentials.map fun c => ("Authorization", basicText c)).toList
    ++ (route.proxy.join.map fun c => ("Proxy-Authorization", basicText c)).toList
    ++ (if s.decompression then [("Accept-Encoding", "deflate, gzip")] else [])
    ++ (if route.proxy.isSome then [("Proxy-Connection", "Keep-Alive")] else [])
    ++ (if inChunks then [] else (size.map fun n => ("Content-Length", toString n)).toList)
    ++ (if method = .post then [("Content-Type", "application/x-www-form-urlencoded")] else [])
    ++ (if size.all (askingSize < ·) then [("Expect", "100-continue")] else [])

/-- The request of a transfer as it is sent, and why it is not sent to its end. -/
def wire (s : Settings) (url : String) (t : Target) (route : Route) (method : Method)
    (headers : HeaderMap) (body : RequestBody) : WireRequest × Option EngineFault :=
  let size := announced headers body
  let headers := if size.isNone then headers.insert .transferEncoding chunkCoding else headers
  let own := headers.lines.map fun l =>
    (if s.titleCase then titleCase l.1.text else l.1.text, l.2.bytes)
  let added := (addedLines s t route method size (asksForChunks headers)).filter fun l =>
    !(HeaderName.ofText? l.1).any headers.contains
  let sent := body.sent size
  ({ method := method.text
     target := if route.proxy.isSome then t.absoluteText else t.directText
     headers := own ++ added.map fun l => (l.1, Bytes.ofText l.2)
     body := sent.bytes
     isComplete := sent.isComplete },
   sent.fault? url)

/-! ## Redirections -/

/-- The address that a reference leads to: one by itself, or one from a base. -/
def follow? (base : Uri) (reference : String) : Option Uri :=
  match Url.parse reference with
  | .ok url => url.toUri?
  | .error .relativeWithoutBase => do
    let base ← (Url.parse base.text).toOption
    ((← (base.join reference).toOption)).toUri?
  | .error _ => none

/-- Whether an answer to a transfer from the given address is a redirection with a place to go. -/
def isRedirection (base : Uri) (answer : EngineAnswer) : Bool :=
  300 ≤ answer.status.code && answer.status.code < 400
    && (((answer.headers.get? .location).bind HeaderValue.text?).bind (follow? base)).isSome

/-- What becomes of an answer that may be a redirection. -/
def checkRedirect (s : Settings) (base : Uri) (answer : EngineAnswer) :
    Except EngineFault EngineAnswer :=
  match s.redirectPolicy with
  | .none => .ok answer
  | .limit 0 =>
    if isRedirection base answer then .error (.tooManyRedirects base.text) else .ok answer
  | _ => if isRedirection base answer then .error (.bodyNotRepeatable base.text) else .ok answer

end Transfer

namespace TransferClient

open Transfer

/-- Makes a transfer. -/
def send (c : TransferClient σ) (out : Outbound) : Call σ (Except EngineFault EngineAnswer) := do
  let url := out.url.text
  match Target.ofUri out.url with
  | .error fault => return .error fault
  | .ok target => match routeOf out.settings url target with
    | .error fault => return .error fault
    | .ok route =>
      let (request, failure) := wire out.settings url target route out.method out.headers out.body
      match ← c.network.exchange route.place request, failure with
      | .unknownHost, _ => return .error (.noAddress url target.placeText)
      | .refused, _ => return .error (.unreachable url)
      | _, some fault => return .error fault
      | .silence, none => return .error (.timeout url)
      | .bytes data, none =>
        return ((readAnswer out.settings.decompression data).mapError (Refusal.fault url)).bind
          (checkRedirect out.settings out.url)

/-- The kind of error as which a fault counts. -/
def kindOf : EngineFault → TransportErrorKind
  | .invalidUrl _ | .unknownScheme .. | .schemeNotAllowed _ | .badAnswer _ =>
    .invalidRequestResponse
  | .badContentCoding _ => .invalidHeader
  | .unreachable _ => .connectError
  | .noAddress .. => .unknownHostError
  | .requestBody _ | .shortRequestBody _ | .brokenOff _ => .sendError
  | .timeout _ => .timeoutError
  | .tooManyRedirects _ => .tooManyRedirect
  | _ => .unknownError

/-- The error of a fault. -/
def faultError (p : RequestParts) (fault : EngineFault) : TransportError :=
  { kind := kindOf fault, uri := some p.url, cause := .engine fault }

/-- Makes what the machine gets of a request. -/
def outbound [Build] (c : TransferClient σ) : EngineStep σ Outbound := do
  let parts := (← get).parts
  let headers ← EngineStep.query fun r => headersOf r.parts
  let body ← EngineStep.takeBody
  return { method := parts.method, url := parts.url, headers
           settings := settings c parts.extensions, body }

/-- A request as the machine accepts it. By then the body has been taken. -/
def accepted (c : TransferClient σ) (p : RequestParts) (out : Outbound) :
    Except TransportError Outbound :=
  match c.refusal? out with
  | some reason => .error (refusalError p reason)
  | none => .ok out

/-- Sends what the machine got of a request, and makes the response. -/
def answer (c : TransferClient σ) (out : Outbound) : EngineStep σ Response := do
  let out ← EngineStep.query fun r => c.accepted r.parts out
  match ← (c.send out : Call σ (Except EngineFault EngineAnswer)) with
  | .ok answer => EngineStep.respond answer
  | .error fault => EngineStep.fail (faultError · fault)

/-- Calls the client with a request. -/
def call [Build] (c : TransferClient σ) (r : Request) :
    Call σ (Request × Except TransportError Response) :=
  EngineStep.runOn (do c.answer (← c.outbound)) r

/-- The client as a transport. -/
def transport [Build] (c : TransferClient σ) : Transport σ := ⟨"Client", c.call⟩

end TransferClient

end ApiClient
