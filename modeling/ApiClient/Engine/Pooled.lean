import ApiClient.Client.Basic
import ApiClient.Coding.Compressed
import ApiClient.Engine.Network
import ApiClient.Engine.Pooled.Answer
import ApiClient.Url.Join

/-!
# ApiClient.Engine.Pooled

The pooled client: default headers, decoding of gzip bodies, and redirections with a referer.

Design points:

* Default headers fill in what a request leaves unset, name by name.
* A redirection after which the request is repeated without its body is always followed. One that
  asks for the body again is an answer, because a body is read only once.
* A decoded answer does not show the coding and the length that it had on the way.
-/

namespace ApiClient

variable {σ : Type}

/-- A pooled client. -/
structure PooledClient (σ : Type) where
  /-- The network. -/
  network : Network σ
  /-- Headers for requests that do not set them. -/
  defaultHeaders : HeaderMap := ∅
  /-- Whether gzip bodies are asked for and decoded. -/
  gzip : Bool := true
  /-- Whether a redirected request says where it comes from. -/
  referer : Bool := true
  /-- Where requests to unencrypted addresses go instead. -/
  proxy : Option Endpoint := none
  /-- Whether the proxy is left aside. -/
  noProxy : Bool := false
  /-- Whether header names are sent in title case. -/
  titleCase : Bool := false

namespace Pooled

/-- The greatest number of redirections of a call. -/
def maxRedirects : Nat := 10

/-- One request of a call. -/
structure Hop where
  /-- The method. -/
  method : Method
  /-- The address. -/
  url : Url
  /-- The headers. -/
  headers : HeaderMap
  /-- The body, if it was not sent yet and is due. -/
  body : Option RequestBody

/-- A request as the client gets it. -/
structure Outbound where
  /-- The method. -/
  method : Method
  /-- The address. -/
  url : Url
  /-- The headers. -/
  headers : HeaderMap
  /-- The body. -/
  body : RequestBody

/-- The error for an address that is no URL. -/
def urlError (p : RequestParts) (e : UrlError) : TransportError :=
  { kind := .invalidUrl, uri := some p.url, cause := .message e.message }

/-- The error for a name of the sending software that is no header value. -/
def headerError (p : RequestParts) : TransportError :=
  { kind := .invalidHeader, uri := some p.url, cause := .invalidHeaderValue }

/-- The address of a request as a URL. -/
def urlOf (p : RequestParts) : Except TransportError Url :=
  (Url.parse p.url.text).mapError (urlError p)

/-- The headers of a request with the name of the sending software. -/
def headersOf [Build] (p : RequestParts) : Except TransportError HeaderMap :=
  if p.headers.contains .userAgent then .ok p.headers
  else match HeaderValue.ofText? (p.engineUserAgent "resty-reqwest") with
    | some value => .ok (p.headers.insert .userAgent value)
    | none => .error (headerError p)

/-- Fills in what headers leave unset. Of several default values the last one counts. -/
def fillIn (defaults headers : HeaderMap) : HeaderMap :=
  defaults.entries.foldl (fun m e =>
    if headers.contains e.1 then m else (e.2.getLast?.map (m.insert e.1)).getD m) headers

/-- The value that any media type is accepted. -/
def anything : HeaderValue := ⟨Bytes.ofText "*/*", by decide⟩

/-- The value that names the gzip coding. -/
def gzipCoding : HeaderValue := ⟨Bytes.ofText "gzip", by decide⟩

/-- The header of a request for a part of a resource. -/
def range : HeaderName := ⟨"range", by decide⟩

/-- The headers with which a call starts. -/
def startHeaders (c : PooledClient σ) (headers : HeaderMap) : HeaderMap :=
  let accept := if c.defaultHeaders.contains .accept then c.defaultHeaders
    else c.defaultHeaders.insert .accept anything
  let headers := fillIn accept headers
  if c.gzip && !headers.contains .acceptEncoding && !headers.contains range then
    headers.insert .acceptEncoding gzipCoding
  else headers

/-- The proxy that is used. -/
def proxyOf (c : PooledClient σ) : Option Endpoint := if c.noProxy then none else c.proxy

/-- The place to which a hop goes. -/
def placeOf (c : PooledClient σ) (h : Hop) : Option Endpoint :=
  if h.url.scheme == "http" then (proxyOf c).or h.url.endpoint? else none

/-! ## Framing of requests -/

/-- A value with chunks behind its other codings. -/
def withChunks (codings : HeaderValue) : HeaderValue :=
  (HeaderValue.ofBytes? (codings.bytes ++ Bytes.ofText ", chunked")).getD chunkCoding

/-- The headers of a request that goes in chunks, because they name a coding. Chunks come last, and
a length that is a number is dropped. -/
def chunkHeaders (headers : HeaderMap) : HeaderMap :=
  let headers := if endsInChunks (headers.values .transferEncoding) then headers
    else headers.changeLast .transferEncoding withChunks
  if (agreedLength? (headers.values .contentLength)).isSome then headers.erase .contentLength
  else headers

/-- Whether a request with the given method has no body unless its headers frame one. -/
def lacksBody (method : Method) : Bool := ["GET", "HEAD", "CONNECT"].contains method.text

/-- The number of bytes that one read of a body takes. -/
def readSize : Nat := 8192

/-- What is sent of a body for which the request has no room. One read of it still succeeds. -/
def unwanted (body : RequestBody) : SentBody :=
  match body.drain with
  | (_, some e, _) => ⟨[], false, some e⟩
  | (_, none, _) =>
    match (body.read readSize).2.read readSize with
    | (.ok (_ :: _), _) => ⟨[], true, some ⟨.other, "channel closed"⟩⟩
    | _ => ⟨[], true, none⟩

/-- The headers with which a body is sent, and what is sent of it. A known size wins over a length
among the headers, and codings among them win over both. -/
def framed (method : Method) (headers : HeaderMap) (body : RequestBody) : HeaderMap × SentBody :=
  let headers := match body.size?.bind fun n => HeaderValue.ofText? (toString n) with
    | some size => headers.insert .contentLength size
    | none => headers
  if headers.contains .transferEncoding then
    let sent := body.sent none
    (chunkHeaders headers,
      { sent with bytes := (body.size?.map (sent.bytes.take ·)).getD sent.bytes })
  else match agreedLength? (headers.values .contentLength) with
    | some n => (headers, body.sent (some n))
    | none =>
      if lacksBody method then (headers, unwanted body)
      else (headers.insert .transferEncoding chunkCoding, body.sent none)

/-- The request of a hop as it is sent, and why it is not sent to its end or is given up. -/
def wire (c : PooledClient σ) (h : Hop) : WireRequest × Option EngineFault :=
  let (headers, sent) := match h.body with
    | some body => framed h.method h.headers body
    | none => (h.headers.erase .transferEncoding, ⟨[], true, none⟩)
  let lines := headers.lines.map (fun l => (l.1.text, l.2.bytes))
    ++ [("host", Bytes.ofText h.url.placeText)]
  let origin := if (proxyOf c).isSome then s!"{h.url.scheme}:" ++ h.url.authorityText else ""
  ({ method := h.method.text
     target := origin ++ h.url.path ++ (h.url.query.map ("?" ++ ·)).getD ""
     headers := lines.map fun l => (if c.titleCase then titleCase l.1 else l.1, l.2)
     body := sent.bytes
     isComplete := sent.isComplete },
   (sent.fault? h.url.text).or
     (if sent.bytes.isEmpty then sent.failure.map .requestBody else none))

/-! ## Answers -/

/-- Whether headers announce a gzip body that is not empty. -/
def isGzip (headers : HeaderMap) : Bool :=
  (headers.values .contentEncoding ++ headers.values .transferEncoding).contains gzipCoding
    && (headers.get? .contentLength).all (·.bytes != Bytes.ofText "0")

/-- A decoded body. -/
def decodeBody (body : Source) : Source :=
  if body.rest.isEmpty then body
  else match Compressed.gzip false body.rest with
    | ⟨bytes, none, _⟩ => .ofBytes bytes
    | ⟨bytes, some _, _⟩ => Answer.failingSource bytes Answer.brokenBody

/-- The answer of a head with the given framing. -/
def toAnswer (c : PooledClient σ) (h : Answer.Head) (framing : Framing) : EngineAnswer :=
  let body := framing.source h.rest
  if c.gzip && isGzip h.headers then
    h.toAnswer ((h.headers.erase .contentEncoding).erase .contentLength) (decodeBody body)
  else h.toAnswer h.headers body

/-! ## Redirections -/

/-- The headers that belong to a body. -/
def bodyHeaders : List HeaderName :=
  [.transferEncoding, .contentEncoding, .contentType, .contentLength]

/-- The headers that another server must not see. -/
def privateHeaders : List HeaderName :=
  [⟨"authorization", by decide⟩, .cookie, ⟨"cookie2", by decide⟩,
   ⟨"proxy-authorization", by decide⟩, ⟨"www-authenticate", by decide⟩]

/-- The address from which a redirection leads, as the next request shows it. -/
def refererText (current next : Url) : Option String :=
  if next.scheme == "http" && current.scheme == "https" then none
  else some { current with username := "", password := none, fragment := none }.text

/-- Where an answer redirects a request to. -/
def locationOf (url : Url) (headers : HeaderMap) : Option Url := do
  let text ← Utf8.decode? (← headers.get? .location).bytes
  let next ← (url.join text).toOption
  next.toUri?.map fun _ => next

/-- The hop that follows an answer, if the answer redirects. -/
def next? (c : PooledClient σ) (h : Hop) (answer : Answer.Head) : Option Hop := do
  let h ← match answer.status.code with
    | 301 | 302 | 303 =>
      some { h with
        body := none
        headers := bodyHeaders.foldl HeaderMap.erase h.headers
        method := if h.method = .head then .head else .get }
    | 307 | 308 => if h.body.isSome then none else some h
    | _ => none
  let url ← locationOf h.url answer.headers
  let referer := if c.referer then (refererText h.url url).bind HeaderValue.ofText? else none
  let headers := (referer.map (h.headers.insert .referer)).getD h.headers
  let headers := if url.endpoint? = h.url.endpoint? then headers
    else privateHeaders.foldl HeaderMap.erase headers
  return { h with url, headers }

end Pooled

namespace PooledClient

open Pooled

/-- The answer to a hop and those that redirections add to it, at most `left` of them. -/
def exchange (c : PooledClient σ) : (left : Nat) → Hop → Call σ (Except EngineFault EngineAnswer)
  | left, h => do
    let url := h.url.text
    let some place := placeOf c h | return .error (.unreachable url)
    let (request, failure) := wire c h
    match ← c.network.exchange place request, failure with
    | .unknownHost, _ => return .error (.noAddress url h.url.placeText)
    | .refused, _ => return .error (.unreachable url)
    | _, some fault => return .error fault
    | .silence, none => return .error (.timeout url)
    | .bytes data, none =>
      let some head := finalHead? data.length data | return .error (.badAnswer url)
      let some framing := framing? h.method head | return .error (.badAnswer url)
      match next? c h head, left with
      | none, _ => return .ok (toAnswer c head framing)
      | some _, 0 => return .error (.tooManyRedirects url)
      | some hop, left + 1 => c.exchange left hop

/-- Sends a request as the client got it. -/
def send (c : PooledClient σ) (out : Outbound) : Call σ (Except EngineFault EngineAnswer) :=
  if out.url.scheme != "http" && out.url.scheme != "https" then
    return .error (.schemeNotAllowed out.url.text)
  else c.exchange maxRedirects
    { method := out.method, url := out.url, headers := startHeaders c out.headers
      body := some out.body }

/-- The kind of error as which a fault counts. -/
def kindOf : EngineFault → TransportErrorKind
  | .invalidUrl _ | .unknownScheme .. | .schemeNotAllowed _ => .invalidUrl
  | .timeout _ => .timeoutError
  | .noAddress .. | .unreachable _ => .connectError
  | .tooManyRedirects _ => .tooManyRedirect
  | .requestBody _ => .sendError
  | .badAnswer _ | .shortRequestBody _ => .invalidRequestResponse
  | _ => .unknownError

/-- The error of a fault. -/
def faultError (p : RequestParts) (fault : EngineFault) : TransportError :=
  { kind := kindOf fault, uri := some p.url, cause := .engine fault }

/-- Makes what the client gets of a request. The body is taken behind all that may fail. -/
def outbound [Build] : EngineStep σ Outbound := do
  let method := (← get).parts.method
  let url ← EngineStep.query fun r => urlOf r.parts
  let headers ← EngineStep.query fun r => headersOf r.parts
  let body ← EngineStep.takeBody
  return { method, url, headers, body }

/-- Sends what the client got of a request, and makes the response. -/
def answer (c : PooledClient σ) (out : Outbound) : EngineStep σ Response := do
  match ← (c.send out : Call σ (Except EngineFault EngineAnswer)) with
  | .ok answer => EngineStep.respond answer
  | .error fault => EngineStep.fail (faultError · fault)

/-- Calls the client with a request. -/
def call [Build] (c : PooledClient σ) (r : Request) :
    Call σ (Request × Except TransportError Response) :=
  EngineStep.runOn (do c.answer (← outbound)) r

/-- The client as a transport. -/
def transport [Build] (c : PooledClient σ) : Transport σ := ⟨"Client", c.call⟩

end PooledClient

end ApiClient
