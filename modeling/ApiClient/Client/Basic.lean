import ApiClient.Client.Draft
import ApiClient.Client.Journal
import ApiClient.Client.Reply

/-!
# ApiClient.Client.Basic

Clients: a transport with the caller's defaults and hooks.

Design points:

* A client is a value. Changing a client gives another one, and requests keep the one they were
  drafted with.
* An interceptor either answers a request itself or passes it on, and then sees what came back. It
  passes it on at most once, because what it does then is part of its decision and not a function it
  calls.
-/

namespace ApiClient

variable {σ : Type}

/-- What sends requests. -/
structure Transport (σ : Type) where
  /-- The name in diagnostics. -/
  name : String
  /-- Sends a request, and tells what is left of it. -/
  call : Request → Call σ (Request × Except TransportError Response)

/-- How a call ends. -/
abbrev Outcome := Except ClientError Response

/-- Where an interceptor stands. -/
structure ChainPosition where
  /-- The number of interceptors up to this one. -/
  position : Nat
  /-- The number of all interceptors. -/
  total : Nat
deriving Repr, DecidableEq

/-- The position in diagnostics. -/
def ChainPosition.debug (p : ChainPosition) : String :=
  s!"Next \x7b position: {p.position}, interceptors: {p.total} \x7d"

/-- What an interceptor decides. -/
inductive Interception (σ : Type) where
  /-- This is the end of the call; nothing behind the interceptor sees it. -/
  | answer (parts : RequestParts) (outcome : Outcome)
  /-- The request goes on, and `resume` sees what comes back. -/
  | forward (parts : RequestParts) (body : Bytes)
    (resume : RequestParts → Outcome → Call σ (RequestParts × Outcome))

/-- A hook around the sending of requests. -/
structure Interceptor (σ : Type) where
  /-- Looks at a request and decides. -/
  intercept : ChainPosition → RequestParts → Bytes → Call σ (Interception σ)

/-- A hook for statuses. -/
structure StatusHandler (σ : Type) where
  /-- Whether the handler is for the status. -/
  accepts : Status → Call σ Bool
  /-- Handles a reply. -/
  act : RequestParts → Reply → Call σ (Reply × Except Failure Unit)

/-- A client. -/
structure Client (σ : Type) where
  /-- What sends the requests. -/
  transport : Transport σ
  /-- The base of relative addresses. -/
  baseUrl : Option Url := none
  /-- What is put behind the name of the sending software. -/
  appendedUserAgent : String := ""
  /-- Headers of all requests that do not set them. -/
  defaultHeaders : HeaderMap := ∅
  /-- Cookies of all requests that do not set them. -/
  defaultCookies : Cookies := ∅
  /-- What is done to every new draft. -/
  defaultRequests : List (Draft → Draft) := []
  /-- What is done to every request before it is sent. -/
  initializers : List (RequestParts → Call σ RequestParts) := []
  /-- The hooks around the sending. -/
  interceptors : List (Interceptor σ) := []
  /-- Which responses are buffered. -/
  buffering : Option (Uri → Method → Call σ Bool) := none
  /-- The hooks for statuses. -/
  statusHandlers : List (StatusHandler σ) := []
  /-- The codecs for bodies. -/
  codecs : List Codec

namespace Client

/-- Adds a line to the headers of all requests that do not set it. -/
def addDefaultHeader (c : Client σ) (name : HeaderName) (value : HeaderValue) : Client σ :=
  { c with defaultHeaders := c.defaultHeaders.append name value }

/-- Adds to what is done to every new draft. -/
def addDefaultRequest (c : Client σ) (change : Draft → Draft) : Client σ :=
  { c with defaultRequests := c.defaultRequests ++ [change] }

/-- Adds to what is done to every request before it is sent. -/
def addInitializer (c : Client σ) (change : RequestParts → Call σ RequestParts) : Client σ :=
  { c with initializers := c.initializers ++ [change] }

/-- Adds a hook behind the hooks around the sending. -/
def addInterceptor (c : Client σ) (hook : Interceptor σ) : Client σ :=
  { c with interceptors := c.interceptors ++ [hook] }

/-- Adds a hook for statuses, to be asked after the others. -/
def addStatusHandler (c : Client σ) (handler : StatusHandler σ) : Client σ :=
  { c with statusHandlers := c.statusHandlers ++ [handler] }

/-- A new draft with the client's defaults. -/
def draft (c : Client σ) (method : Method) : Draft :=
  c.defaultRequests.foldl (fun d change => change d)
    { method, appendedUserAgent := c.appendedUserAgent }

/-- Whether the client buffers the response to a request. -/
def buffers (c : Client σ) (url : Uri) (method : Method) : Call σ Bool :=
  match c.buffering with
  | some policy => policy url method
  | none => pure false

/-- The client in diagnostics. -/
def debug (c : Client σ) : String :=
  let listed (items : List String) : String := "[" ++ ", ".intercalate items ++ "]"
  "RestClient \x7b inner: RestClientInner \x7b http_caller: " ++ c.transport.name
    ++ ", base_url: " ++ Url.debugOption Url.debug c.baseUrl
    ++ ", appended_user_agent: " ++ Quoted.text c.appendedUserAgent
    ++ ", default_headers: " ++ c.defaultHeaders.debug
    ++ ", default_cookies: " ++ c.defaultCookies.debug
    ++ ", default_requests: " ++ toString c.defaultRequests.length
    ++ ", initializers: " ++ toString c.initializers.length
    ++ ", interceptors: " ++ toString c.interceptors.length
    ++ ", buffering: " ++ toString c.buffering.isSome
    ++ ", status_handlers: " ++ listed (c.statusHandlers.map fun _ => "StatusHandler")
    ++ ", codecs: " ++ listed (c.codecs.map Codec.name) ++ " \x7d \x7d"

end Client

end ApiClient
