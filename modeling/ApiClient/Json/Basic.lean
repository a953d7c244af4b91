import ApiClient.Entries
import ApiClient.Number.Double
import ApiClient.Text.Bytes

/-!
# ApiClient.Json.Basic

JSON values.

Design points:

* An object is the list of its fields in the order in which their names first occurred.
  `insertField` is the only way a reader adds a field: a name that is already there keeps its place
  and takes the new value.
* Integers and binary floating-point numbers are kept apart, because they are written differently.
-/

namespace ApiClient

/-- A JSON number. -/
inductive Json.Number where
  /-- An integer. -/
  | int (i : Int)
  /-- A binary floating-point number. -/
  | double (d : Double)
deriving Repr, DecidableEq

/-- A JSON value. -/
inductive Json where
  /-- The null value. -/
  | null
  /-- A truth value. -/
  | bool (b : Bool)
  /-- A number. -/
  | number (n : Json.Number)
  /-- A text. -/
  | string (s : String)
  /-- A list of values. -/
  | array (items : List Json)
  /-- The fields of an object, in order. -/
  | object (fields : List (String × Json))
deriving Repr, Inhabited

namespace Json

/-- An object's fields. -/
abbrev Fields := List (String × Json)

/-- A natural number as a value. -/
def nat (n : Nat) : Json := .number (.int n)

/-- Sets a field: a present name keeps its place, a new name goes to the end. -/
def insertField (name : String) (value : Json) (fields : Fields) : Fields :=
  Entries.put name value fields

/-- The value of a field. -/
def field? (name : String) (fields : Fields) : Option Json := Entries.find? name fields

/-- The value of a field, if the value is an object that has it. -/
def get? (name : String) : Json → Option Json
  | object fields => field? name fields
  | _ => none

/-- The value of a field; a missing field counts as null. -/
def get (name : String) (value : Json) : Json := (value.get? name).getD null

/-- The items of a list; any other value has none. -/
def items : Json → List Json
  | array items => items
  | _ => []

/-- The integer of a value that is one. -/
def int? : Json → Option Int
  | number (.int i) => some i
  | _ => none

/-- The natural number of a value that is one. -/
def nat? (value : Json) : Option Nat :=
  value.int?.bind fun i => if i < 0 then none else some i.toNat

/-- Whether the value is the truth value true. -/
def isTrue : Json → Bool
  | bool b => b
  | _ => false

/-- Whether the value is null. -/
def isNull : Json → Bool
  | null => true
  | _ => false

/-- Whether the value is a text. -/
def isString : Json → Bool
  | string _ => true
  | _ => false

/-- Whether the value is an object. -/
def isObject : Json → Bool
  | object _ => true
  | _ => false

/-- The text of a number. -/
def Number.render : Number → String
  | .int i => toString i
  | .double d => d.render

end Json

end ApiClient
