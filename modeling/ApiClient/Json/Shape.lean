import ApiClient.Json.Reader
import ApiClient.Text.Quoted
import ApiClient.Text.Utf8

/-!
# ApiClient.Json.Shape

Shapes: what a caller expects a JSON value to look like, and the check of a value against a shape.

Design points:

* `Shape.conform` gives the value as the shape sees it: unknown fields are gone, missing optional
  fields are null, fields stand in declaration order and a dictionary is sorted by name.
* A record may be given as an object or, by position, as a list.
* Faults of an object come in the order of its own fields; missing fields are noticed after that, in
  declaration order.
-/

namespace ApiClient

/-- What a JSON value is expected to look like. -/
inductive Json.Shape where
  /-- Any value. -/
  | any
  /-- A text. -/
  | text
  /-- A text or null. -/
  | optionalText
  /-- A truth value. -/
  | boolean
  /-- An integer from 0 to 255. -/
  | octet
  /-- A signed integer of 64 bits. -/
  | integer
  /-- A list of values of one shape. -/
  | list (item : Json.Shape)
  /-- A record with the given fields; a field of shape `optionalText` may be missing. -/
  | record (name : String) (fields : List (String × Json.Shape))
  /-- An object whose values are all texts. -/
  | dictionary
deriving Repr

namespace Json

/-- Why a value does not have the expected shape. -/
inductive ShapeError where
  /-- A value of another kind. -/
  | invalidType (found : String) (expected : String)
  /-- A number outside the expected range. -/
  | invalidValue (found : String) (expected : String)
  /-- A record without a field that it must have. -/
  | missingField (name : String)
  /-- A list of another length. -/
  | invalidLength (length : Nat) (expected : String)
deriving Repr, DecidableEq

/-- The text of a shape error. -/
def ShapeError.message : ShapeError → String
  | .invalidType found expected => s!"invalid type: {found}, expected {expected}"
  | .invalidValue found expected => s!"invalid value: {found}, expected {expected}"
  | .missingField name => s!"missing field \x60{name}\x60"
  | .invalidLength length expected => s!"invalid length {length}, expected {expected}"

/-- The kind of a value as errors name it. -/
def described : Json → String
  | null => "null"
  | bool b => s!"boolean \x60{b}\x60"
  | number (.int i) => s!"integer \x60{i}\x60"
  | number (.double d) => s!"floating point \x60{d.render}\x60"
  | string s => s!"string {Quoted.text s}"
  | array _ => "sequence"
  | object _ => "map"

/-- The result of checking a value. -/
abbrev Conformed (α : Type) := Except ShapeError α

/-- Fails because the value is of another kind. -/
def mistyped {α : Type} (value : Json) (expected : String) : Conformed α :=
  .error (.invalidType value.described expected)

/-- A value that must be a text. -/
def asText (value : Json) : Conformed Json :=
  match value with
  | string s => .ok (string s)
  | _ => mistyped value "a string"

/-- A value that must be an integer between the bounds. -/
def asInteger (low high : Int) (expected : String) (value : Json) : Conformed Json :=
  match value with
  | number (.int i) =>
    if low ≤ i ∧ i ≤ high then .ok value else .error (.invalidValue value.described expected)
  | _ => mistyped value expected

/-- The order of texts by their UTF-8 bytes. -/
def byteLess (a b : String) : Bool :=
  (Bytes.ofText a).map UInt8.toNat < (Bytes.ofText b).map UInt8.toNat

/-- Puts a field into fields sorted by name. -/
def insertSorted (name : String) (value : Json) : Fields → Fields
  | [] => [(name, value)]
  | (n, v) :: rest =>
    if byteLess name n then (name, value) :: (n, v) :: rest
    else (n, v) :: insertSorted name value rest

/-- A value that must be an object of texts, sorted by name. -/
def asDictionary (value : Json) : Conformed Json :=
  match value with
  | object fields => do
    let texts ← fields.mapM fun (name, v) => do .ok (name, ← asText v)
    .ok (object (texts.foldl (fun sorted (name, v) => insertSorted name v sorted) []))
  | _ => mistyped value "a map"

/-- A record's fields in declaration order, from those that were found; null stands for an optional
field that is missing. -/
def complete (found : Fields) : List (String × Bool) → Conformed Fields
  | [] => .ok []
  | (name, optional) :: rest =>
    match field? name found with
    | some v => do .ok ((name, v) :: (← complete found rest))
    | none =>
      if optional then do .ok ((name, null) :: (← complete found rest))
      else .error (.missingField name)

/-- Whether a missing field of this shape counts as null. -/
def Shape.isOptional : Shape → Bool
  | optionalText => true
  | _ => false

/-- The number of fields as errors name it. -/
def countElements (n : Nat) : String := if n == 1 then "1 element" else s!"{n} elements"

mutual

/-- The value as the shape sees it, or why it does not have the shape. -/
def Shape.conform : Shape → Json → Conformed Json
  | .any, value => .ok value
  | .text, value => asText value
  | .optionalText, .null => .ok null
  | .optionalText, value => asText value
  | .boolean, .bool b => .ok (bool b)
  | .boolean, value => mistyped value "a boolean"
  | .octet, value => asInteger 0 255 "u8" value
  | .integer, value => asInteger (-0x8000000000000000) 0x7fffffffffffffff "i64" value
  | .list item, .array values => (values.mapM item.conform).map array
  | .list _, value => mistyped value "a sequence"
  | .record name fields, .array values => do
    let found ← Shape.conformByPosition name fields.length 0 fields values
    if values.length > fields.length then
      .error (.invalidLength values.length "fewer elements in array")
    else .ok (object found)
  | .record _ fields, .object given => do
    let found ← given.filterMapM fun (name, v) => Shape.conformField fields name v
    (complete found (fields.map fun f => (f.1, f.2.isOptional))).map object
  | .record name _, value => mistyped value s!"struct {name}"
  | .dictionary, value => asDictionary value

/-- A field of an object, if the record has it. -/
def Shape.conformField : List (String × Shape) → String → Json → Conformed (Option (String × Json))
  | [], _, _ => .ok none
  | (n, shape) :: rest, name, v =>
    if n == name then (shape.conform v).map fun v => some (name, v)
    else Shape.conformField rest name v

/-- A record given as a list: the fields from position `index` on. -/
def Shape.conformByPosition (record : String) (size : Nat) :
    Nat → List (String × Shape) → List Json → Conformed Fields
  | _, [], _ => .ok []
  | index, _ :: _, [] =>
    .error (.invalidLength index s!"struct {record} with {countElements size}")
  | index, (n, shape) :: rest, v :: values => do
    let v ← shape.conform v
    .ok ((n, v) :: (← Shape.conformByPosition record size (index + 1) rest values))

end

/-- Why a JSON text or value was refused. -/
inductive Error where
  /-- The text is not JSON. -/
  | malformed (e : SyntaxError)
  /-- The value has another shape. -/
  | misshapen (e : ShapeError)
  /-- The value has no JSON form. -/
  | unrepresentable (reason : String)
deriving Repr, DecidableEq

/-- The text of a JSON error. -/
def Error.message : Error → String
  | .malformed e => e.message
  | .misshapen e => e.message
  | .unrepresentable reason => reason

end Json

end ApiClient
