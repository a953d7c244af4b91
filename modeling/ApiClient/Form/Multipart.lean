import ApiClient.Form.Part

/-!
# ApiClient.Form.Multipart

Multipart forms: named parts between delimiters.

Design points:

* The boundary comes from outside, because it has to be unpredictable. It is 32 hexadecimal digits,
  so it needs no quotes in a media type and cannot be confused with a line of a part's head.
* A form is written as a stream of its parts' streams with the framing between them, so writing
  needs no part in memory.
* The size of a form is known if that of every part is, and if the total is a number of 64 bits.
-/

namespace ApiClient

/-- What stands between the parts of a form. -/
structure Boundary where
  /-- The text. -/
  text : String
  /-- A boundary is 32 hexadecimal digits. -/
  valid : text.length = 32
    ∧ (Bytes.ofText text).all Ascii.isHexDigit = true

/-- A form of named parts. -/
structure Multipart where
  /-- What stands between the parts. -/
  boundary : Boundary
  /-- The parts with their names, in order. -/
  fields : List (String × Part) := []

namespace Multipart

/-- The form with one more part. -/
def addPart (m : Multipart) (name : String) (part : Part) : Multipart :=
  { m with fields := m.fields ++ [(name, part)] }

/-- The media type of the written form. -/
def mediaType (m : Multipart) : MediaType :=
  { MediaType.formData with parameters := "; boundary=" ++ m.boundary.text }

/-- The delimiter, the head and the empty line in front of a part's content. -/
def opening (boundary : Boundary) (name : String) (part : Part) : Bytes :=
  Bytes.ofText "--" ++ Bytes.ofText boundary.text ++ [0x0d, 0x0a] ++ part.head name
    ++ [0x0d, 0x0a, 0x0d, 0x0a]

/-- The line end behind a part's content. -/
def closing : Bytes := [0x0d, 0x0a]

/-- The delimiter behind all parts. -/
def ending (boundary : Boundary) : Bytes :=
  Bytes.ofText "--" ++ Bytes.ofText boundary.text ++ Bytes.ofText "--" ++ [0x0d, 0x0a]

/-- The stream of a part with its framing. -/
def partStream (boundary : Boundary) (field : String × Part) : Stream :=
  .ofBytes (opening boundary field.1 field.2) ++ field.2.content.toStream ++ .ofBytes closing

/-- The written form. -/
def toStream (m : Multipart) : Stream :=
  m.fields.flatMap (partStream m.boundary) ++ .ofBytes (ending m.boundary)

/-- The sum of two sizes, if it is a number of 64 bits. -/
def addSizes (a b : Nat) : Option Nat := if a + b < 0x10000000000000000 then some (a + b) else none

/-- The size of parts and their framing, added to what stands before them. -/
def sizeFrom (boundary : Boundary) : Option Nat → List (String × Part) → Option Nat
  | size, [] => size
  | size, (name, part) :: rest =>
    let total : Option Nat := do
      let framed ← addSizes (← size) ((opening boundary name part).length + closing.length)
      addSizes framed (← part.content.size?)
    sizeFrom boundary total rest

/-- The size of the written form, if it is known. -/
def size? (m : Multipart) : Option Nat := do
  addSizes (← sizeFrom m.boundary (some 0) m.fields) (ending m.boundary).length

/-- The form as the body of a request. -/
def toBody (m : Multipart) : RequestBody := .stream m.toStream m.size?

/-- The written form in memory. -/
def toBytes (m : Multipart) : ReadResult Bytes := m.toStream.readAll.1

/-- The form in diagnostics. -/
def debug (m : Multipart) : String :=
  let field (f : String × Part) : String := s!"({Quoted.text f.1}, {f.2.debug})"
  "Multipart \x7b boundary: " ++ Quoted.text m.boundary.text ++ ", fields: ["
    ++ ", ".intercalate (m.fields.map field) ++ "] \x7d"

end Multipart

end ApiClient
