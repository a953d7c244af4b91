import ApiClient.Body.Source

/-!
# ApiClient.Body.Response

Bodies of responses.

Design points:

* A body is a stream or bytes in memory. Only bytes in memory can be read again.
* `buffer` moves what is left of a stream into memory and marks the body; bytes that were in memory
  from the start are only marked, and keep their position.
-/

namespace ApiClient

/-- The body of a response. -/
structure ResponseBody where
  /-- Where the bytes are. -/
  content : BodyContent
  /-- Whether the body was moved into memory for repeated reading. -/
  isBuffered : Bool := false

namespace ResponseBody

/-- The body of a stream. -/
def ofStream (source : Stream) : ResponseBody := { content := .stream source }

/-- The body that consists of the given bytes. -/
def ofBytes (data : Bytes) : ResponseBody := { content := .bytes data 0 }

instance : Inhabited ResponseBody := ⟨ofBytes []⟩

/-- The whole body, if it is in memory. -/
def data? (b : ResponseBody) : Option Bytes := b.content.data?

/-- One read into a buffer of `n` bytes. -/
def read (n : Nat) (b : ResponseBody) : ReadResult Bytes × ResponseBody :=
  let (result, content) := b.content.read n
  (result, { b with content })

/-- Everything that was not read yet. -/
def readAll (b : ResponseBody) : ReadResult Bytes × ResponseBody :=
  let (result, content) := b.content.readAll
  (result, { b with content })

/-- Everything that was not read yet, as text. -/
def readText (b : ResponseBody) : ReadResult String × ResponseBody :=
  match b.readAll with
  | (.ok bytes, b) =>
    ((match Utf8.decode? bytes with
      | some text => .ok text
      | none => .error .invalidText), b)
  | (.error e, b) => (.error e, b)

/-- Moves what is left of a stream into memory and marks the body. If the stream fails, the body is
neither moved nor marked. -/
def buffer (b : ResponseBody) : ReadResult Unit × ResponseBody :=
  match b.content with
  | .bytes .. => (.ok (), { b with isBuffered := true })
  | .stream source =>
    match source.readAll with
    | (.ok bytes, _) => (.ok (), { content := .bytes bytes 0, isBuffered := true })
    | (.error e, source) => (.error e, { b with content := .stream source })

/-- Goes back to the start of a body in memory, and says whether there was one to go back in. -/
def rewind (b : ResponseBody) : Bool × ResponseBody :=
  match b.content with
  | .bytes data _ => (true, { b with content := .bytes data 0 })
  | .stream _ => (false, b)

/-- The body in diagnostics. -/
def debug (b : ResponseBody) : String :=
  match b.content with
  | .stream _ => "Reader"
  | .bytes data _ => s!"Bytes \x7b len: {data.length}, buffered: {b.isBuffered} \x7d"

end ResponseBody

end ApiClient
