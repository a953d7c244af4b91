import ApiClient.Text.Utf8

/-!
# ApiClient.Http.MediaType

Media types: `type/subtype` with an optional suffix and parameters.

Design points:

* Names are kept in lower case and parameters as they were written, apart from the case of their
  names and of a character set, so the text of a media type is what a header shows.
* The suffix is what follows the last `+` of the subtype; a `+` at the very start is part of the
  subtype.
* A `;` with nothing but blanks behind it introduces no parameter and is dropped.
-/

namespace ApiClient

/-- A media type. -/
structure MediaType where
  /-- The top-level type. -/
  topLevel : String
  /-- The subtype without its suffix. -/
  subtype : String
  /-- The suffix. -/
  suffix : Option String
  /-- The text of the parameters from their first semicolon on, or nothing. -/
  parameters : String
deriving Repr, DecidableEq, Inhabited

/-- Why a text is no media type. -/
inductive MediaTypeError where
  /-- No slash between type and subtype. -/
  | missingSlash
  /-- A parameter without a value. -/
  | missingEqual
  /-- A quoted value without its closing quote. -/
  | missingQuote
  /-- A byte that cannot stand at its position. -/
  | invalidToken (byte : UInt8) (position : Nat)
deriving Repr, DecidableEq

/-- The text of the error. -/
def MediaTypeError.message : MediaTypeError → String
  | .missingSlash =>
    "mime parse error: a slash (/) was missing between the type and subtype"
  | .missingEqual =>
    "mime parse error: an equals sign (=) was missing between a parameter and its value"
  | .missingQuote => "mime parse error: a quote (\") was missing from a parameter value"
  | .invalidToken byte position =>
    let digits := String.ofList ((Nat.toDigits 16 byte.toNat).map Char.toUpper)
    s!"mime parse error: an invalid token was encountered, {digits} at position {position}"

namespace MediaType

/-- A byte of a name or of an unquoted value. -/
def isToken (b : UInt8) : Bool :=
  Ascii.isAlphanumeric b || (Bytes.ofText "!#$%&'*+-.^_\x60|~").contains b

/-- A byte that may stand between quotes, the closing quote apart. -/
def isQuotedByte (b : UInt8) : Bool := 0x1f < b && b != 0x7f && b != 0x22

/-- The type and subtype as text. -/
def essence (m : MediaType) : String :=
  m.topLevel ++ "/" ++ m.subtype ++ (m.suffix.map ("+" ++ ·)).getD ""

/-- The text of the media type. -/
def text (m : MediaType) : String := m.essence ++ m.parameters

/-- The media type `text/plain; charset=utf-8`. -/
def plainText : MediaType := ⟨"text", "plain", none, "; charset=utf-8"⟩
/-- The media type of arbitrary bytes. -/
def octetStream : MediaType := ⟨"application", "octet-stream", none, ""⟩
/-- The media type of JSON. -/
def json : MediaType := ⟨"application", "json", none, ""⟩
/-- The media type of forms in the format of a query. -/
def urlEncoded : MediaType := ⟨"application", "x-www-form-urlencoded", none, ""⟩
/-- The media type of forms in parts. -/
def formData : MediaType := ⟨"multipart", "form-data", none, ""⟩

/-- The error at a byte string: its first byte does not belong there. -/
def unexpected {α : Type} (atEnd : MediaTypeError) (position : Nat) :
    Bytes → Except MediaTypeError α
  | [] => .error atEnd
  | b :: _ => .error (.invalidToken b position)

/-- The content of a quoted value, its closing quote, and the rest. A quote directly behind the
opening one belongs to the content. -/
def splitQuoted (position : Nat) (s : Bytes) : Except MediaTypeError (Bytes × Bytes) :=
  let (first, s) : Bytes × Bytes := match s with
    | 0x22 :: rest => ([0x22], rest)
    | _ => ([], s)
  let (content, rest) := s.span isQuotedByte
  match rest with
  | 0x22 :: rest => .ok (first ++ content ++ [0x22], rest)
  | _ => unexpected .missingQuote (position + first.length + content.length) rest

/-- The blanks behind a quoted value and the semicolon of the next parameter. -/
def splitSeparator (position : Nat) (s : Bytes) : Except MediaTypeError (Bytes × Bytes) :=
  let (blanks, rest) := s.span (· == 0x20)
  match rest with
  | [] => .ok (blanks, [])
  | 0x3b :: rest => .ok (blanks ++ [0x3b], rest)
  | b :: _ => .error (.invalidToken b (position + blanks.length))

/-- The value at the start of a byte string with what ends it, and the rest. -/
def splitValue (isCharset : Bool) (position : Nat) (s : Bytes) :
    Except MediaTypeError (Bytes × Bytes) := do
  let shown (value : Bytes) : Bytes := if isCharset then Bytes.toLower value else value
  match s with
  | 0x22 :: quoted =>
    let (content, rest) ← splitQuoted (position + 1) quoted
    let (separator, rest) ← splitSeparator (position + 1 + content.length) rest
    .ok (0x22 :: shown content ++ separator, rest)
  | _ =>
    let (value, rest) := s.span isToken
    match rest with
    | [] => .ok (shown value, [])
    | b :: rest =>
      if b == 0x3b && !value.isEmpty then .ok (shown value ++ [0x3b], rest)
      else .error (.invalidToken b (position + value.length))

/-- The parameter at the start of a byte string with its separator, and the rest. -/
def splitParameter (position : Nat) (s : Bytes) : Except MediaTypeError (Bytes × Bytes) := do
  let (name, rest) := s.span isToken
  match rest with
  | 0x3d :: value =>
    if name.isEmpty then .error (.invalidToken 0x3d position)
    else
      let lower := Bytes.toLower name
      let isCharset := lower == Bytes.ofText "charset"
      let (written, rest) ← splitValue isCharset (position + name.length + 1) value
      .ok (lower ++ 0x3d :: written, rest)
  | _ => unexpected .missingEqual (position + name.length) rest

/-- The text of parameters as it is kept. Each round takes a blank or a parameter, so as many rounds
suffice as there are bytes. -/
def readParameters : Nat → Nat → Bytes → Except MediaTypeError Bytes
  | 0, _, _ => .ok []
  | _ + 1, _, [] => .ok []
  | rounds + 1, position, b :: rest => do
    if b == 0x20 then .ok (b :: (← readParameters rounds (position + 1) rest))
    else
      let (written, rest) ← splitParameter position (b :: rest)
      .ok (written ++ (← readParameters rounds (position + written.length) rest))

/-- The text of a byte string in lower case. -/
def lowerText (bytes : Bytes) : String := Utf8.decodeLossy (Bytes.toLower bytes)

/-- The media type of a type, a subtype with its suffix, and the text of the parameters. -/
def ofNames (topLevel sub parameters : Bytes) : MediaType :=
  let shown := if parameters.all (· == 0x20) then [] else 0x3b :: parameters
  let behind := (sub.reverse.takeWhile (· != 0x2b)).reverse
  let front := sub.take (sub.length - behind.length - 1)
  if front.isEmpty then
    ⟨lowerText topLevel, lowerText sub, none, Utf8.decodeLossy shown⟩
  else
    ⟨lowerText topLevel, lowerText front, some (lowerText behind), Utf8.decodeLossy shown⟩

/-- Reads a media type. -/
def parse (s : String) : Except MediaTypeError MediaType := do
  let (topLevel, rest) := (Bytes.ofText s).span isToken
  match rest with
  | 0x2f :: rest =>
    if topLevel.isEmpty then .error (.invalidToken 0x2f 0)
    else
      let start := topLevel.length + 1
      let (sub, rest) := rest.span isToken
      match rest with
      | [] => .ok (ofNames topLevel sub [])
      | b :: rest =>
        if b == 0x3b && !sub.isEmpty then
          let parameters ← readParameters rest.length (start + sub.length + 1) rest
          .ok (ofNames topLevel sub parameters)
        else .error (.invalidToken b (start + sub.length))
  | _ => unexpected .missingSlash topLevel.length rest

/-- The media type that a text names, if it is one. -/
def parse? (s : String) : Option MediaType := (parse s).toOption

/-- Whether the media type is a JSON format. -/
def isJson (m : MediaType) : Bool := m.subtype == "json" || m.suffix == some "json"

/-- Whether the media type is a form in the format of a query. -/
def isUrlEncoded (m : MediaType) : Bool := m.essence == urlEncoded.essence

/-- Whether the media type is a form in parts. -/
def isFormData (m : MediaType) : Bool := m.essence == formData.essence

/-- Whether the media type is a form. -/
def isForm (m : MediaType) : Bool := m.isUrlEncoded || m.isFormData

/-- The media types of file name extensions. -/
def extensions : List (String × String) :=
  [("txt", "text/plain"), ("json", "application/json"), ("png", "image/png"),
   ("jpg", "image/jpeg"), ("jpeg", "image/jpeg"), ("gif", "image/gif"),
   ("svg", "image/svg+xml"), ("html", "text/html"), ("htm", "text/html"), ("css", "text/css"),
   ("js", "text/javascript"), ("xml", "text/xml"), ("csv", "text/csv"), ("md", "text/markdown"),
   ("pdf", "application/pdf"), ("zip", "application/zip"), ("gz", "application/gzip"),
   ("wasm", "application/wasm"), ("mp3", "audio/mpeg"), ("mp4", "video/mp4"),
   ("bin", "application/octet-stream"), ("webp", "image/webp"), ("ico", "image/x-icon"),
   ("bmp", "image/bmp"), ("tif", "image/tiff"), ("tiff", "image/tiff"), ("wav", "audio/wav"),
   ("ogg", "audio/ogg"), ("flac", "audio/flac"), ("mpeg", "video/mpeg"), ("mpg", "video/mpeg"),
   ("mov", "video/quicktime"), ("avi", "video/x-msvideo"), ("webm", "video/webm"),
   ("ogv", "video/ogg"), ("ttf", "font/ttf"), ("otf", "font/otf"), ("woff", "font/woff"),
   ("woff2", "font/woff2"), ("log", "text/plain"), ("tsv", "text/tab-separated-values"),
   ("ics", "text/calendar"), ("yaml", "text/x-yaml"), ("yml", "text/x-yaml"),
   ("toml", "text/x-toml"), ("rs", "text/x-rust"), ("xhtml", "application/xhtml+xml"),
   ("sh", "application/x-sh"), ("tar", "application/x-tar"),
   ("7z", "application/x-7z-compressed"), ("rar", "application/x-rar-compressed"),
   ("jar", "application/java-archive"), ("epub", "application/epub+zip"),
   ("doc", "application/msword"), ("xls", "application/vnd.ms-excel"),
   ("ppt", "application/vnd.ms-powerpoint"),
   ("docx", "application/vnd.openxmlformats-officedocument.wordprocessingml.document"),
   ("xlsx", "application/vnd.openxmlformats-officedocument.spreadsheetml.sheet"),
   ("pptx", "application/vnd.openxmlformats-officedocument.presentationml.presentation")]

/-- The text behind the last dot of a file name, if a name stands before the dot. -/
def extension? (fileName : String) : Option String :=
  let chars := fileName.toList
  let behind := (chars.reverse.takeWhile (· != '.')).reverse
  if behind.length + 1 < chars.length then some (String.ofList behind) else none

/-- The text of the media type of a file, by the extension of its name in any case. -/
def guessText (fileName : String) : String :=
  (do extensions.lookup (← extension? fileName).toLower).getD octetStream.text

end MediaType

end ApiClient
