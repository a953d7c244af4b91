import ApiClient.Body.Request
import ApiClient.Client.Journal
import ApiClient.Error.Engine
import ApiClient.Url.Basic

/-!
# ApiClient.Engine.Network

The network as engines see it.

Design points:

* An engine opens a connection for each request, sends the request and takes what comes back. So the
  network is one function from a place and a request to what happens.
* A request is not text here: its line, its header lines and its body are apart, and the body is
  free of any framing.
* A server that is silent is one whose answer does not come within the time for the call.
-/

namespace ApiClient

/-- A place in the network. -/
structure Endpoint where
  /-- The host. -/
  host : Host
  /-- The port. -/
  port : Nat
deriving Repr, DecidableEq

/-- A request as it is sent. -/
structure WireRequest where
  /-- The method. -/
  method : String
  /-- What the request line names as the target. -/
  target : String
  /-- The header lines, with names as they are spelled. -/
  headers : List (String × Bytes)
  /-- The bytes of the body that were sent. -/
  body : Bytes := []
  /-- Whether the request was sent to its end. -/
  isComplete : Bool := true
deriving DecidableEq

/-- A name in which every word starts with a capital. -/
def titleCase (name : String) : String :=
  String.ofList <| (name.toList.foldl
    (fun (done, start) c => ((if start then c.toUpper else c) :: done, c == '-'))
    (([], true) : List Char × Bool)).1.reverse

/-- The value that names the coding in chunks. -/
def chunkCoding : HeaderValue := ⟨Bytes.ofText "chunked", by decide⟩

/-- The request line. -/
def WireRequest.line (r : WireRequest) : String := s!"{r.method} {r.target} HTTP/1.1"

/-- What happens to a request. -/
inductive WireAnswer where
  /-- The host has no address. -/
  | unknownHost
  /-- Nothing listens at the place. -/
  | refused
  /-- The server took the request and is silent. -/
  | silence
  /-- The server sent bytes and closed the connection. -/
  | bytes (data : Bytes)
deriving DecidableEq

/-- A network. -/
structure Network (σ : Type) where
  /-- Sends a request to a place. -/
  exchange : Endpoint → WireRequest → Call σ WireAnswer

/-- The place that a URL names, if it names a host. -/
def Url.endpoint? (u : Url) : Option Endpoint :=
  u.host.map fun host => ⟨host, u.port.getD ((Url.defaultPort? u.scheme).getD 0)⟩

/-- A host with its port, if that is not the scheme's own. -/
def Url.placeText (u : Url) : String :=
  ((u.host.map Host.text).getD "") ++ (u.port.map fun p => s!":{p}").getD ""

/-- What of a body is sent. -/
structure SentBody where
  /-- The bytes that the server gets. -/
  bytes : Bytes
  /-- Whether these are all that were announced. -/
  isComplete : Bool
  /-- How the reading of the body failed, if it did. -/
  failure : Option IoError

/-- Why less was sent than was announced, if so. -/
def SentBody.fault? (s : SentBody) (url : String) : Option EngineFault :=
  if s.isComplete then none else some ((s.failure.map .requestBody).getD (.shortRequestBody url))

/-- What is sent of a body of which `announced` bytes are due, or all of them. The server gets no
more than was announced. -/
def RequestBody.sent (b : RequestBody) (announced : Option Nat) : SentBody :=
  let (delivered, failure, _) := b.drain
  match announced with
  | some n => ⟨delivered.take n, n ≤ delivered.length, failure⟩
  | none => ⟨delivered, failure.isNone, failure⟩

end ApiClient
