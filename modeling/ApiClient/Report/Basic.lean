import ApiClient.Json.Basic
import ApiClient.Text.Utf8

/-!
# ApiClient.Report.Basic

JSON views of values, for logs and for inspection.

Design points:

* A type has one view. The views of optional values, of lists and of results are made from the views
  of what they hold.
* Bytes are shown as text if they are UTF-8, and else as an object with their hexadecimal digits.
* A view has no inverse: it shows what is of interest, in the words of whoever reads it.
-/

namespace ApiClient

/-- A type whose values have a JSON view. -/
class Reportable (α : Type) where
  /-- The view of a value. -/
  view : α → Json

/-- The view of a value. -/
def report {α : Type} [Reportable α] (a : α) : Json := Reportable.view a

namespace Report

variable {α ε : Type}

/-- Fields and those behind them. -/
def join (first second : Json.Fields) : Json.Fields := first ++ second

/-- Fields that are there under a condition. -/
def when (c : Bool) (fields : Json.Fields) : Json.Fields := if c then fields else []

/-- A field that is there if its value is. -/
def field? [Reportable α] (name : String) (value : Option α) : Json.Fields :=
  (value.map fun a => (name, report a)).toList

instance : Reportable Json := ⟨id⟩
instance : Reportable Unit := ⟨fun _ => .null⟩
instance : Reportable Bool := ⟨.bool⟩
instance : Reportable Nat := ⟨.nat⟩
instance : Reportable String := ⟨.string⟩
instance : Reportable Json.Fields := ⟨.object⟩
instance [Reportable α] : Reportable (List α) := ⟨fun l => .array (l.map report)⟩
instance [Reportable α] : Reportable (Option α) := ⟨fun a => (a.map report).getD .null⟩
instance : Reportable Bytes := ⟨fun bytes =>
  match Utf8.decode? bytes with
  | some text => .string text
  | none => .object [("hex", .string (Bytes.toHex bytes))]⟩
instance [Reportable ε] [Reportable α] : Reportable (Except ε α) := ⟨fun
  | .ok a => report a
  | .error e => report e⟩

end Report

end ApiClient
