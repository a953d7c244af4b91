import ApiClient.Body.Source

/-!
# ApiClient.Body.Request

Bodies of requests.

Design points:

* A body is bytes in memory or a stream. The size of a stream is what its maker declared, if
  anything; nothing checks it against the bytes that come.
* Taking all bytes of a body in memory gives the whole body, whatever was read before; a stream
  gives what is left of it.
-/

namespace ApiClient

/-- The body of a request. -/
inductive RequestBody where
  /-- Bytes in memory, of which the first `position` were read. -/
  | bytes (data : Bytes) (position : Nat)
  /-- A stream with its declared size. -/
  | stream (source : Stream) (size : Option Nat)

namespace RequestBody

/-- The body that consists of the given bytes. -/
def ofBytes (data : Bytes) : RequestBody := .bytes data 0

/-- The body without content. -/
def empty : RequestBody := ofBytes []

instance : Inhabited RequestBody := ⟨empty⟩

/-- The size, if it is known. -/
def size? : RequestBody → Option Nat
  | bytes data _ => some data.length
  | stream _ size => size

/-- Whether the body is known to have no content. -/
def isEmpty (b : RequestBody) : Bool := b.size? == some 0

/-- The whole body, if it is in memory. -/
def data? : RequestBody → Option Bytes
  | bytes data _ => some data
  | stream .. => none

/-- One read into a buffer of `n` bytes. -/
def read (n : Nat) : RequestBody → ReadResult Bytes × RequestBody
  | bytes data position =>
    let piece := (data.drop position).take n
    (.ok piece, .bytes data (position + piece.length))
  | stream source size =>
    let (result, source) := source.read n
    (result, .stream source size)

/-- What reads deliver until the end or a failure, and the failure. -/
def drain : RequestBody → Bytes × Option IoError × RequestBody
  | bytes data position => (data.drop position, none, .bytes data data.length)
  | stream source size =>
    let (delivered, failure, source) := source.drain
    (delivered, failure, .stream source size)

/-- Everything that was not read yet. -/
def readAll (b : RequestBody) : ReadResult Bytes × RequestBody :=
  match b.drain with
  | (_, some e, left) => (.error e, left)
  | (delivered, none, left) => (.ok delivered, left)

/-- Goes to a place in the bytes in memory. A stream stays where it is. -/
def seek (place : Nat) : RequestBody → RequestBody
  | bytes data _ => .bytes data place
  | stream source size => .stream source size

/-- The body with bytes of its own, at the place it had in the bytes it was lent. -/
def toOwned : RequestBody → RequestBody
  | bytes data position => (ofBytes data).seek position
  | stream source size => .stream source size

/-- The body as bytes: all of them if they are in memory, else what is left of the stream. -/
def toBytes : RequestBody → ReadResult Bytes
  | bytes data _ => .ok data
  | stream source _ => source.readAll.1

/-- A size in diagnostics. -/
def debugSize : Option Nat → String
  | some n => s!"Some({n})"
  | none => "None"

/-- The body in diagnostics. -/
def debug : RequestBody → String
  | bytes data _ => s!"Bytes({data.length})"
  | stream _ size => s!"Reader \x7b size: {debugSize size} \x7d"

end RequestBody

end ApiClient
