import ApiClient.Codec.Basic
import ApiClient.Form.Multipart
import ApiClient.Form.UrlEncoded

/-!
# ApiClient.Codec.Form

The codec of forms.

Design points:

* An object is a form if each field is null, a scalar, or a list of scalars. A null field is left
  out and a list is written as one field for each item.
* In a decoded form every value is a text. A name that occurs once has its text, a name that occurs
  more often the list of its texts.
* A form in parts needs a boundary, which is a parameter of the codec.
-/

namespace ApiClient.Codec

/-- The text of a scalar. -/
def scalarText : Json → Option String
  | .string s => some s
  | .number n => some n.render
  | .bool b => some (toString b)
  | _ => none

/-- The texts of a field's values. -/
def fieldTexts : Json → Option (List String)
  | .null => some []
  | .array items => items.mapM scalarText
  | value => (scalarText value).map ([·])

/-- The pairs of an object's fields, if each of them has its texts. -/
def pairsOf : Json.Fields → Option (List (String × String))
  | [] => some []
  | (name, value) :: rest => do
    some ((← fieldTexts value).map (name, ·) ++ (← pairsOf rest))

/-- The pairs of a value that is a form. -/
def formPairs (value : Json) : Except FormFault (List (String × String)) :=
  match value with
  | .object fields =>
    match pairsOf fields with
    | some pairs => .ok pairs
    | none => .error .nestedField
  | _ => .error .notObject

/-- What a name has after one more text: the first text stands alone, and from the second on there
is a list. -/
def gather (text : String) : Option Json → Json
  | none => .string text
  | some (.array texts) => .array (texts ++ [.string text])
  | some first => .array [first, .string text]

/-- The object of pairs. -/
def groupPairs (pairs : List (String × String)) : Json.Fields :=
  pairs.foldl (fun fields (name, text) => Entries.update name (gather text) fields) []

/-- The form in parts that pairs make up. -/
def multipartOf (boundary : Boundary) (pairs : List (String × String)) : Multipart :=
  { boundary, fields := pairs.map fun (name, text) => (name, Part.text text) }

/-- Writes a value as a form. -/
def writeForm (boundary : Boundary) (value : Json) (declared : Option MediaType) :
    Except CodecError EncodedBody :=
  let mediaType := declared.getD MediaType.urlEncoded
  match formPairs value with
  | .error fault => .error (.unsupportedValue mediaType.text fault)
  | .ok pairs =>
    if mediaType.isFormData then
      let form := multipartOf boundary pairs
      match form.toBytes with
      | .ok bytes => .ok ⟨bytes, form.mediaType⟩
      | .error e => .error (.io e)
    else .ok ⟨UrlEncoded.write pairs, mediaType⟩

/-- The codec of forms. -/
def form (boundary : Boundary) : Codec where
  name := "FormCodec"
  canRead _ mediaType := mediaType.isUrlEncoded
  canWrite value declared := value.isObject && declared.any MediaType.isForm
  read body _ := .ok (some (.object (groupPairs (UrlEncoded.read body))))
  write value declared _ := writeForm boundary value declared

end ApiClient.Codec
