import ApiClient.Codec.Basic
import ApiClient.Json.Printer

/-!
# ApiClient.Codec.Json

The codec of JSON. It writes any value, or the part of it that a view lets through; in a body,
blanks alone and a null both mean that there is nothing.
-/

namespace ApiClient

namespace JsonView

/-- Whether the view lets a field through. -/
def shows (view : JsonView) (field : String × Json) : Bool := view.fields.contains field.1

mutual

/-- What a view shows of a value: of an object the fields that it lets through, of a list the view
of each item. -/
def apply (view : JsonView) : Json → Json
  | .object fields => .object (fields.filter view.shows)
  | .array items => .array (applyAll view items)
  | value => value

/-- What a view shows of each value. -/
def applyAll (view : JsonView) : List Json → List Json
  | [] => []
  | item :: rest => apply view item :: applyAll view rest

end

end JsonView

namespace Codec

/-- The value that a JSON text stands for, if it stands for one. -/
def readJson (body : Bytes) : Except CodecError (Option Json) :=
  if body.all Ascii.isBlank then .ok none
  else match Json.parse body with
    | .error e => .error (.json (.malformed e))
    | .ok value => .ok (if value.isNull then none else some value)

/-- The bytes of a value under the hints. -/
def writeJson (value : Json) (hints : Hints) : Bytes :=
  Bytes.ofText (match hints.view with
    | some view => (view.apply value).render
    | none => value.render)

/-- The codec of JSON. -/
def json : Codec where
  name := "JsonCodec"
  canRead _ mediaType := mediaType.isJson
  canWrite _ declared := declared.all MediaType.isJson
  read body _ := readJson body
  write value declared hints := .ok ⟨writeJson value hints, declared.getD MediaType.json⟩

end Codec

end ApiClient
