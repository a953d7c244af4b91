import ApiClient.Body.Request
import ApiClient.Http.Header
import ApiClient.Http.MediaType
import ApiClient.Text.Percent

/-!
# ApiClient.Form.Part

Parts of multipart forms.

Design points:

* A part knows a media type of its own, which its metadata may override. It can stand in a header,
  as every value of the metadata can.
* The name of a part is written between quotes if that needs no escape, and percent-encoded
  otherwise. A file name is always quoted, with a backslash before quotes, backslashes and line
  breaks.
* The head of a part ends before the empty line; nothing in it comes from the content.
-/

namespace ApiClient

/-- What is said about a part beside its name. -/
structure PartMetadata where
  /-- Headers of the part. -/
  headers : HeaderMap := ∅
  /-- The name of the file that the part is. -/
  fileName : Option String := none

namespace PartMetadata

/-- Sets a header, in the place of all values that it has. -/
def addHeader (m : PartMetadata) (name : HeaderName) (value : HeaderValue) : PartMetadata :=
  { m with headers := m.headers.insert name value }

/-- Sets the media type. A media type that cannot stand in a header is passed over. -/
def setMediaType (m : PartMetadata) (mediaType : MediaType) : PartMetadata :=
  match HeaderValue.ofText? mediaType.text with
  | some value => m.addHeader .contentType value
  | none => m

/-- Sets the file name. -/
def setFileName (m : PartMetadata) (fileName : String) : PartMetadata :=
  { m with fileName := some fileName }

/-- Adds header lines behind those that are there. -/
def addLines (m : PartMetadata) (lines : List (HeaderName × HeaderValue)) : PartMetadata :=
  { m with headers := lines.foldl (fun headers l => headers.append l.1 l.2) m.headers }

/-- The metadata in diagnostics. -/
def debug (m : PartMetadata) : String :=
  let fileName := match m.fileName with
    | some name => s!"Some({Quoted.text name})"
    | none => "None"
  "PartMetadata \x7b headers: " ++ m.headers.debug ++ ", file_name: " ++ fileName ++ " \x7d"

end PartMetadata

/-- The content of a part. -/
inductive PartContent where
  /-- Bytes in memory. -/
  | bytes (data : Bytes)
  /-- A stream with its declared size. -/
  | stream (source : Stream) (size : Option Nat)

namespace PartContent

/-- The size, if it is known. -/
def size? : PartContent → Option Nat
  | bytes data => some data.length
  | stream _ size => size

/-- The content as a stream. -/
def toStream : PartContent → Stream
  | bytes data => .ofBytes data
  | stream source _ => source

/-- The content in diagnostics. -/
def debug : PartContent → String
  | bytes data => s!"Bytes({data.length})"
  | stream _ size => s!"Stream \x7b size: {RequestBody.debugSize size} \x7d"

end PartContent

/-- A part of a form. -/
structure Part where
  /-- What is said about the part. -/
  metadata : PartMetadata := {}
  /-- The media type if the metadata has none. -/
  defaultMediaType : String
  /-- The content. -/
  content : PartContent
  /-- The media type holds no line break and no other control. -/
  valid : (Bytes.ofText defaultMediaType).all HeaderValue.isByte = true := by decide

namespace Part

/-- A part that is a text. -/
def text (value : String) : Part :=
  { defaultMediaType := "text/plain;charset=UTF-8", content := .bytes (Bytes.ofText value) }

/-- A part that is a byte string. -/
def bytes (data : Bytes) : Part :=
  { defaultMediaType := "application/octet-stream", content := .bytes data }

/-- A part that is a stream. -/
def stream (source : Stream) (size : Option Nat) : Part :=
  { defaultMediaType := "application/octet-stream", content := .stream source size }

/-- The error of opening a file that is not there. -/
def noSuchFile : IoError := ⟨.notFound, "No such file or directory (os error 2)"⟩

/-- The part of the file with the given path and content; its media type follows from the
extension. -/
def file (path : String) (data : Option Bytes) : ReadResult Part :=
  match data with
  | none => .error noSuchFile
  | some data =>
    let name := String.ofList (path.toList.reverse.takeWhile (· != '/')).reverse
    let mediaType : PartMetadata := match HeaderValue.ofText? (MediaType.guessText name) with
      | some value => ({} : PartMetadata).addHeader .contentType value
      | none => {}
    .ok { stream (.ofBytes data) (some data.length) with
      metadata := mediaType.setFileName name }

/-! ## The head of a part -/

/-- Bytes that a quoted name keeps: visible ASCII but the space, the quote, the brackets, the accent
and the bytes with a meaning in URIs. -/
def keepsInName (b : UInt8) : Bool :=
  0x20 < b && b < 0x7f && !(Bytes.ofText "\"<>\x60#?\x7b\x7d/%").contains b

/-- The parameter that names a part. -/
def nameParameter (name : String) : Bytes :=
  let raw := Bytes.ofText name
  if raw.all keepsInName then Bytes.ofText "name=\"" ++ raw ++ Bytes.ofText "\""
  else Bytes.ofText "name*=utf-8''" ++ Bytes.ofText (Percent.encodeText keepsInName name)

/-- A byte of a file name between quotes. -/
def escapeFileByte (b : UInt8) : Bytes :=
  if b == 0x5c || b == 0x22 || b == 0x0d || b == 0x0a then [0x5c, b] else [b]

/-- The parameter that names a file. -/
def fileNameParameter (fileName : String) : Bytes :=
  Bytes.ofText "filename=\"" ++ (Bytes.ofText fileName).flatMap escapeFileByte ++ Bytes.ofText "\""

/-- The value that says what a part is. -/
def disposition (name : String) (p : Part) : Bytes :=
  Bytes.ofText "form-data; " ++ nameParameter name
    ++ match p.metadata.fileName with
      | some fileName => Bytes.ofText "; " ++ fileNameParameter fileName
      | none => []

/-- The media type of a part: the one that its metadata names, or else its own. -/
def mediaTypeBytes (p : Part) : Bytes :=
  match p.metadata.headers.get? .contentType with
  | some value => value.bytes
  | none => Bytes.ofText p.defaultMediaType

/-- The header lines of a part: names and values. -/
def headerLines (name : String) (p : Part) : List (String × Bytes) :=
  [("Content-Disposition", disposition name p), ("Content-Type", mediaTypeBytes p)]
    ++ (p.content.size?.map fun n => ("Content-Length", Bytes.ofText (toString n))).toList
    ++ (p.metadata.headers.lines.filter (·.1 ≠ .contentType)).map
      fun l => (l.1.text, l.2.bytes)

/-- A header line as it is written, without its line end. -/
def lineBytes (line : String × Bytes) : Bytes :=
  Bytes.ofText line.1 ++ Bytes.ofText ": " ++ line.2

/-- The header lines of a part with line ends between them. -/
def head (name : String) (p : Part) : Bytes :=
  List.intercalate [0x0d, 0x0a] ((headerLines name p).map lineBytes)

/-- The part in diagnostics. -/
def debug (p : Part) : String :=
  "Part \x7b meta: " ++ p.metadata.debug ++ ", default_content_type: "
    ++ Quoted.text p.defaultMediaType ++ ", body: " ++ p.content.debug ++ " \x7d"

end Part

end ApiClient
