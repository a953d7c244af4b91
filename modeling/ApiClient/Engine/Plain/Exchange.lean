import ApiClient.Client.Basic
import ApiClient.Engine.Plain.Answer
import ApiClient.Engine.Proxy
import ApiClient.Text.Base64
import ApiClient.Url.Join

/-!
# ApiClient.Engine.Plain.Exchange

The plain agent: one connection for each request, no decoding of bodies, no encryption.

Design points:

* A hook of the agent may answer in place of the network. It sees the request before the address is
  read.
* The body is read where it is, and only once there is a connection. A request that gets no
  connection, and one that the hook answers, leave it unread.
* The agent goes where redirections lead, without the body and without the header lines that belong
  to it or to the first server.
* An encrypted address gets as far as the connection, and then fails.
-/

namespace ApiClient

variable {σ : Type}

/-- A plain agent. -/
structure PlainAgent (σ : Type) where
  /-- The network. -/
  network : Network σ
  /-- How many requests may follow each other in a call; zero means that redirections are
  answers. -/
  redirects : Nat := 5
  /-- The proxy. -/
  proxy : Option ProxyAddress := none
  /-- Whether addresses have to be encrypted. -/
  httpsOnly : Bool := false
  /-- A hook that may answer a request. -/
  hook : Option (Plain.Outbound → Call σ (Option (Except EngineFault Plain.Reported))) := none

namespace Plain

/-- One request of a call. -/
structure Hop where
  /-- The method. -/
  method : Method
  /-- The address. -/
  url : Url
  /-- The header lines that were set. -/
  headers : List (String × String)
  /-- Whether the body goes with the request. -/
  hasBody : Bool

/-- The value of a header line with the given name, in any case. -/
def lineValue? (lines : List (String × String)) (name : String) : Option String :=
  (lines.find? (·.1.toLower == name)).map (·.2)

/-- Whether header lines say that the body goes in chunks. -/
def isChunked (lines : List (String × String)) : Bool :=
  (lineValue? lines "transfer-encoding").any fun codings =>
    ((Pieces.cut ',' codings.toList).getLast?.map Blank.trim) == some "chunked".toList

/-- A hop with the header lines that frame its body and name the user of its address. -/
def Hop.complete (h : Hop) : Hop :=
  let framed := hasLine h.headers "content-length" || hasLine h.headers "transfer-encoding"
  let password := h.url.password.getD ""
  let named := h.url.username != "" || password != ""
  { h with headers := h.headers
      ++ (if h.hasBody && !framed then [("Transfer-Encoding", "chunked")] else [])
      ++ if named && !hasLine h.headers "authorization" then
          [("Authorization", "Basic " ++ Base64.ofText s!"{h.url.username}:{password}")]
        else [] }

/-- What the request line names as the target. -/
def Hop.target (proxied : Bool) (h : Hop) : String :=
  (if proxied then s!"{h.url.scheme}://{h.url.placeText}" else "") ++ h.url.path
    ++ match h.url.query with
      | none | some "" => ""
      | some query => "?" ++ query

/-- The request of a hop as it is sent with its body, and how the reading of the body failed. -/
def Hop.wire (proxied : Bool) (h : Hop) (body : RequestBody) : WireRequest × Option IoError :=
  let line (name value : String) : List (String × String) :=
    if hasLine h.headers name.toLower then [] else [(name, value)]
  let lines := line "Host" h.url.placeText ++ line "Accept" "*/*" ++ h.headers
  let length := (lineValue? h.headers "content-length").bind (Answer.decimal? <| Bytes.ofText ·)
  let announced := if isChunked h.headers then none else length
  let sent := body.sent announced
  ({ method := h.method.text
     target := h.target proxied
     headers := lines.map fun l => (l.1, Bytes.ofText l.2)
     body := sent.bytes
     isComplete := sent.isComplete }, sent.failure)

/-- The name of the agent itself. -/
def agentName : String := "ureq/2.12.1"

/-- The request for a connection through a proxy. -/
def tunnelRequest (proxy : ProxyAddress) (place : String) : WireRequest :=
  { method := "CONNECT"
    target := place
    headers := [("Host", Bytes.ofText place), ("User-Agent", Bytes.ofText agentName),
        ("Proxy-Connection", Bytes.ofText "Keep-Alive")]
      ++ (proxy.credentials.map fun (user, password) =>
        ("Proxy-Authorization",
          Bytes.ofText ("basic " ++ Base64.ofText s!"{user}:{password}"))).toList }

/-- The bytes of an answer from the network. -/
def received (url host : String) : WireAnswer → Except EngineFault Bytes
  | .unknownHost => .error (.noAddress url host)
  | .refused => .error (.unreachable url)
  | .silence => .error (.timeout url)
  | .bytes data => .ok data

/-- Whether a status of the proxy lets a connection through. -/
def checkTunnel (url : String) (data : Bytes) : Except EngineFault Unit := do
  let answer ← readAnswer .get data
  if answer.code ≠ 200 then throw (.proxyRefused url)

/-- The hop that follows an answer with a redirection, if there is one. -/
def Hop.next (h : Hop) (answer : Reported) : Except EngineFault (Option Hop) := do
  let some location := firstValue? answer.fields "location" | return none
  let url ← (h.url.join location).mapError EngineFault.invalidUrl
  let safe := ["GET", "HEAD"].contains h.method.text
  let kept := safe || ["OPTIONS", "TRACE"].contains h.method.text
  let method ← match answer.code with
    | 301 | 302 | 303 => pure (some (if safe then h.method else .get))
    | 307 | 308 => pure (if kept then some h.method else none)
    | _ => pure none
  let dropped := ["content-length", "cookie", "authorization"]
  return method.map fun method =>
    { method, url, headers := h.headers.filter fun l => !dropped.contains l.1.toLower
      hasBody := false }

end Plain

namespace PlainAgent

open Plain

/-- The answer to a single hop. Its body, if it has one, is that of the call. -/
def exchangeOnce (a : PlainAgent σ) (h : Hop) :
    StateT RequestBody (Call σ) (Except EngineFault Reported) := do
  let url := h.url.text
  let some host := h.url.host | return .error (.invalidUrl .emptyHost)
  let scheme := h.url.scheme
  if !(["http", "https", "test"].contains scheme) then return .error (.unknownScheme url scheme)
  if a.httpsOnly && scheme != "https" then return .error (.insecure url)
  if scheme == "test" then return .error (.unknownScheme url scheme)
  if a.proxy.any (·.protocol == .socks) then return .error (.unreachable url)
  let place := ((a.proxy.map ProxyAddress.endpoint).or h.url.endpoint?).getD ⟨host, 0⟩
  if scheme == "https" then
    let tunnel := s!"{host.text}:{h.url.port.getD 443}"
    let request := match a.proxy with
      | some proxy => tunnelRequest proxy tunnel
      | none => { method := "", target := "", headers := [], isComplete := false }
    let answer ← a.network.exchange place request
    return do
      let data ← received url host.text answer
      if a.proxy.isSome then checkTunnel url data
      throw (.unknownScheme url scheme)
  else
    let body ← if h.hasBody then get else pure .empty
    let (request, failure) := h.complete.wire a.proxy.isSome body
    match ← a.network.exchange place request with
    | .unknownHost => return .error (.noAddress url host.text)
    | .refused => return .error (.unreachable url)
    | answer =>
      if h.hasBody then set body.drain.2.2
      match failure with
      | some e => return .error (.network none e)
      | none => return do readAnswer h.method (← received url host.text answer)

/-- The answer to a hop and those that redirections add to it, at most `left` of them. -/
def exchange (a : PlainAgent σ) (left : Nat) (h : Hop) :
    StateT RequestBody (Call σ) (Except EngineFault Reported) := do
  match ← a.exchangeOnce h with
  | .error e => return .error e
  | .ok answer =>
    if answer.code < 300 || answer.code ≥ 399 || a.redirects == 0 then return .ok answer
    else match left with
      | 0 => return .error (.tooManyRedirects h.url.text)
      | left + 1 =>
        match h.complete.next answer with
        | .error e => return .error e
        | .ok none => return .ok answer
        | .ok (some next) => a.exchange left next

/-- Sends a request over the network. -/
def send (a : PlainAgent σ) (out : Outbound) :
    StateT RequestBody (Call σ) (Except EngineFault Reported) :=
  match Url.parse out.url with
  | .error e => return .error (.invalidUrl e)
  | .ok url => do
    let hop : Hop := { method := out.method, url, headers := out.headers, hasBody := true }
    return (← a.exchange (a.redirects - 1) hop).mapError (EngineFault.located url.text)

/-- Lets the hook answer, or sends the request. -/
def run (a : PlainAgent σ) (out : Outbound) :
    StateT RequestBody (Call σ) (Except EngineFault Reported) := do
  match invalidLine? out.headers with
  | some (name, value) => return .error (.badHeaderLine s!"{name}: {value}")
  | none =>
    match a.hook with
    | none => a.send out
    | some hook =>
      match ← hook out with
      | some result => return result
      | none => a.send out

/-- The kind of error as which a fault counts. -/
def kindOf : EngineFault → TransportErrorKind
  | .invalidUrl _ | .unknownScheme .. | .schemeNotAllowed _ => .invalidUrl
  | .insecure _ => .sslError
  | .noAddress .. => .unknownHostError
  | .unreachable _ => .connectError
  | .malformedProxy | .proxyRefused _ => .proxyError
  | .tooManyRedirects _ => .tooManyRedirect
  | .badStatusLine _ | .badAnswer _ => .invalidRequestResponse
  | .badHeaderLine _ | .tooManyHeaders _ => .invalidHeader
  | .timeout _ => .timeoutError
  | .network _ e | .requestBody e =>
    if e.kind = .timedOut ∨ e.kind = .wouldBlock then .timeoutError else .localIoError
  | .shortRequestBody _ | .bodyNotRepeatable _ | .badContentCoding _ | .brokenOff _ => .unknownError

/-- The error of a fault. -/
def faultError (p : RequestParts) (fault : EngineFault) : TransportError :=
  { kind := kindOf fault, uri := some p.url, cause := .engine fault }

/-- Makes the response of an answer that was reported. -/
def respond (reported : Reported) : EngineStep σ Response := do
  EngineStep.respond (← EngineStep.query fun r => reported.toAnswer r.parts)

/-- Sends what the agent made of a request, and makes the response. -/
def answer (a : PlainAgent σ) (out : Outbound) : EngineStep σ Response := do
  match ← EngineStep.onBody (a.run out) with
  | .ok reported => respond reported
  | .error fault => EngineStep.fail (faultError · fault)

/-- Calls the agent with a request. -/
def call [Build] (a : PlainAgent σ) (r : Request) :
    Call σ (Request × Except TransportError Response) :=
  EngineStep.runOn (do a.answer (← EngineStep.query outbound)) r

/-- The agent as a transport. -/
def transport [Build] (a : PlainAgent σ) : Transport σ := ⟨"Client", a.call⟩

end PlainAgent

end ApiClient
