import ApiClient.Body.Source
import ApiClient.Http.MediaType
import ApiClient.Json.Shape

/-!
# ApiClient.Codec.Basic

Codecs: how structured values become bodies and bodies become values.

Design points:

* Between caller and codec every structured value is a JSON value.
* A codec is a record of functions, so a list of codecs may hold any mixture, and each can be asked
  what it can do before it does it.
* Of several codecs the first one that can do what is asked for is taken.
-/

namespace ApiClient

/-- What a caller expects a body to be decoded into. -/
structure Expectation where
  /-- The name of the expected type. -/
  name : String
  /-- The shape of the expected value. -/
  shape : Json.Shape

/-- Which fields of objects a writer of JSON lets through. -/
structure JsonView where
  /-- The names of the fields. -/
  fields : List String
deriving Repr, DecidableEq

/-- What a caller tells codecs beside the value. -/
structure Hints where
  /-- The view on JSON objects. -/
  view : Option JsonView := none
deriving Repr, DecidableEq

/-- An encoded value. -/
structure EncodedBody where
  /-- The bytes. -/
  bytes : Bytes
  /-- The media type that the codec chose. -/
  mediaType : MediaType
deriving Repr, DecidableEq

/-- Why a value is no form. -/
inductive FormFault where
  /-- The value is not an object. -/
  | notObject
  /-- A field is neither a scalar nor a list of scalars. -/
  | nestedField
deriving Repr, DecidableEq

/-- The text of the fault. -/
def FormFault.message : FormFault → String
  | .notObject => "form must be an object"
  | .nestedField => "nested field"

/-- Why a body was not encoded or decoded. -/
inductive CodecError where
  /-- No codec decodes the media type into what is expected. -/
  | noReader (target mediaType : String)
  /-- No codec encodes the value as the media type. -/
  | noWriter (mediaType : String)
  /-- The value has no form in the media type. -/
  | unsupportedValue (mediaType : String) (fault : FormFault)
  /-- The JSON text is faulty. -/
  | json (e : Json.Error)
  /-- The text is not UTF-8. -/
  | utf8 (fault : Utf8.Fault)
  /-- Reading or writing failed. -/
  | io (e : IoError)
deriving Repr, DecidableEq

namespace CodecError

/-- The name of the error's case. -/
def name : CodecError → String
  | noReader .. => "NoReader"
  | noWriter _ => "NoWriter"
  | unsupportedValue .. => "UnsupportedValue"
  | json _ => "Json"
  | utf8 _ => "Utf8"
  | io _ => "Io"

/-- The text of the error. -/
def message : CodecError → String
  | noReader target mediaType =>
    s!"No body codec can read \x60{mediaType}\x60 into \x60{target}\x60"
  | noWriter mediaType => s!"No body codec can write the value as \x60{mediaType}\x60"
  | unsupportedValue mediaType fault =>
    s!"Unsupported value for \x60{mediaType}\x60: {fault.message}"
  | json e => s!"JSON error: {e.message}"
  | utf8 fault => s!"Invalid UTF-8 text: {fault.message}"
  | io e => s!"IO error: {e.message}"

/-- The texts of the errors behind this one, nearest first. -/
def sources : CodecError → List String
  | json e => [e.message]
  | utf8 fault => [fault.message]
  | io e => [e.message]
  | _ => []

end CodecError

/-- A way to encode and decode bodies. -/
structure Codec where
  /-- The name in diagnostics. -/
  name : String
  /-- Whether the codec decodes the media type into what is expected. -/
  canRead : Expectation → MediaType → Bool
  /-- Whether the codec encodes the value as the media type, if one is declared. -/
  canWrite : Json → Option MediaType → Bool
  /-- Decodes a body; there may be nothing in it. -/
  read : Bytes → MediaType → Except CodecError (Option Json)
  /-- Encodes a value. -/
  write : Json → Option MediaType → Hints → Except CodecError EncodedBody

namespace Codec

/-- The codec that decodes the media type into what is expected. -/
def findReader (codecs : List Codec) (target : Expectation) (mediaType : MediaType) :
    Except CodecError Codec :=
  match codecs.find? (·.canRead target mediaType) with
  | some codec => .ok codec
  | none => .error (.noReader target.name mediaType.text)

/-- Encodes a value by the codec that can do it. -/
def writeBody (codecs : List Codec) (value : Json) (declared : Option MediaType) (hints : Hints) :
    Except CodecError EncodedBody :=
  match codecs.find? (·.canWrite value declared) with
  | some codec => codec.write value declared hints
  | none => .error (.noWriter ((declared.map MediaType.text).getD "<unspecified>"))

end Codec

end ApiClient
