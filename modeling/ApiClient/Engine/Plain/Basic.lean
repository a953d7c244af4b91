import ApiClient.Engine.Answer
import ApiClient.Engine.Outcome

/-!
# ApiClient.Engine.Plain.Basic

What the plain agent makes of requests and of answers.

Design points:

* The agent keeps header lines as texts. Setting a header replaces the lines of its name, unless the
  name starts with `x-`: such lines add up.
* An answer reports its header lines one by one. The headers of the response are made by going
  through the reported names and adding all values of each.
* What the agent cannot take, in the request or in the answer, is an error of the request at hand.
-/

namespace ApiClient.Plain

/-- A request as the agent gets it. -/
structure Outbound where
  /-- The method. -/
  method : Method
  /-- The address. -/
  url : String
  /-- The header lines. -/
  headers : List (String × String)

/-- An answer as the agent reports it. -/
structure Reported where
  /-- The protocol version. -/
  version : String
  /-- The status. -/
  code : Nat
  /-- The header lines: names in lower case, and values as far as they are text. -/
  fields : List (String × Option String)
  /-- The body. -/
  body : Stream

/-! ## Errors

Each error of the agent's own is made from the request and names its address. -/

/-- The error for a header value of the request that is not visible ASCII. -/
def unreadableValueError (p : RequestParts) (value : HeaderValue) : TransportError :=
  { kind := .invalidHeader
    uri := some p.url
    cause := .message
      s!"invalid header value({Quoted.bytes value.bytes}): failed to convert header to a str" }

/-- The error for a text that is no header value. -/
def headerValueError (p : RequestParts) (text : String) : TransportError :=
  { kind := .invalidHeader
    uri := some p.url
    cause := .message s!"invalid header value({text}): {HeaderValue.invalidMessage}" }

/-- The error for a text that is no header name. -/
def headerNameError (p : RequestParts) (text : String) : TransportError :=
  { kind := .invalidHeader
    uri := some p.url
    cause := .message s!"invalid header name({text}): invalid HTTP header name" }

/-- The error for a number that is no status code. -/
def statusError (p : RequestParts) (code : Nat) : TransportError :=
  { kind := .invalidRequestResponse
    uri := some p.url
    cause := .message s!"invalid status code({code}): invalid status code" }

/-- The error for a text that is no protocol version. -/
def versionError (p : RequestParts) (text : String) : TransportError :=
  { kind := .invalidRequestResponse
    uri := some p.url
    cause := .message s!"invalid http version: {text}" }

/-! ## Requests -/

/-- Sets a header among header lines. -/
def setLine (lines : List (String × String)) (name value : String) : List (String × String) :=
  (if name.startsWith "x-" || name.startsWith "X-" then lines else lines.filter (·.1 != name))
    ++ [(name, value)]

/-- Whether header lines have a name, in any case. -/
def hasLine (lines : List (String × String)) (name : String) : Bool :=
  lines.any (·.1.toLower == name)

/-- Sets a header of a request to a value that has to be visible ASCII. -/
def setValue (p : RequestParts) (lines : List (String × String)) (line : HeaderName × HeaderValue) :
    Except TransportError (List (String × String)) :=
  match line.2.text? with
  | some text => .ok (setLine lines line.1.text text)
  | none => .error (unreadableValueError p line.2)

/-- The name of the sending software as a header value. -/
def userAgent [Build] (p : RequestParts) : Except TransportError HeaderValue :=
  let text := p.engineUserAgent "resty-ureq"
  match HeaderValue.ofText? text with
  | some value => .ok value
  | none => .error (headerValueError p text)

/-- Header lines with the name of the sending software, if the request does not give one. -/
def withAgent [Build] (p : RequestParts) (lines : List (String × String)) :
    Except TransportError (List (String × String)) :=
  if p.headers.contains .userAgent then .ok lines
  else do setValue p lines (.userAgent, ← userAgent p)

/-- Header lines with the length of the body, if it is known and the request does not give it. -/
def withLength (p : RequestParts) (size : Option Nat) (lines : List (String × String)) :
    List (String × String) :=
  match size with
  | some n =>
    if p.headers.contains .contentLength then lines
    else setLine lines HeaderName.contentLength.text (toString n)
  | none => lines

/-- The header lines of a request with a body of the given size. -/
def headerLines [Build] (p : RequestParts) (size : Option Nat) :
    Except TransportError (List (String × String)) := do
  let lines ← p.headers.lines.foldlM (setValue p) []
  return withLength p size (← withAgent p lines)

/-- The request as the agent gets it. -/
def outbound [Build] (r : Request) : Except TransportError Outbound := do
  return ⟨r.parts.method, r.parts.url.text, ← headerLines r.parts r.body.size?⟩

/-- A header line whose name is not one on the wire, if there is one. -/
def invalidLine? (lines : List (String × String)) : Option (String × String) :=
  lines.find? (·.1.toList.contains '\x22')

/-! ## Answers -/

/-- All text values that are reported of a name, in order. -/
def valuesOf (fields : List (String × Option String)) (name : String) : List String :=
  fields.filterMap fun f => if f.1 = name then f.2 else none

/-- Adds a reported value to headers. -/
def addValue (p : RequestParts) (name : HeaderName) (headers : HeaderMap) (text : String) :
    Except TransportError HeaderMap :=
  match HeaderValue.ofText? text with
  | some value => .ok (headers.append name value)
  | none => .error (headerValueError p text)

/-- Adds all reported values of a name to headers. -/
def addName (p : RequestParts) (fields : List (String × Option String)) (headers : HeaderMap)
    (field : String × Option String) : Except TransportError HeaderMap :=
  match HeaderName.ofText? field.1 with
  | some name => (valuesOf fields field.1).foldlM (addValue p name) headers
  | none => .error (headerNameError p field.1)

/-- The headers of the response: for each reported line all values of its name. -/
def responseHeaders (p : RequestParts) (fields : List (String × Option String)) :
    Except TransportError HeaderMap :=
  fields.foldlM (addName p fields) ∅

/-- The answer to a request that was reported, if it has a status and a version. -/
def Reported.toAnswer (p : RequestParts) (r : Reported) : Except TransportError EngineAnswer := do
  let some status := Status.ofNat? r.code | throw (statusError p r.code)
  let some version := Version.ofText? r.version | throw (versionError p r.version)
  return ⟨status, version, ← responseHeaders p r.fields, r.body⟩

end ApiClient.Plain
