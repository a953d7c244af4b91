import ApiClient.Engine.Answer.Chunks
import ApiClient.Engine.Plain.Basic

/-!
# ApiClient.Engine.Plain.Answer

Answers as the plain agent reads them.

Design points:

* The agent is lenient. A header line that it does not understand is dropped, and any transfer
  coding means chunks.
* An answer of the old version has no chunks, whatever it says.
* Data that ends in the middle of a chunk counts as the end of the body. Elsewhere in the chunks it
  is a fault.
-/

namespace ApiClient.Plain

/-! ## Heads -/

/-- The version and the code of a status line. -/
def statusLine (line : Bytes) : Except StatusLineFault (String × Nat) :=
  if !line.all (· < 0x80) then .error .notAscii
  else match Bytes.splitOn 0x20 line with
    | version :: code :: _ =>
      match Answer.decimal? (Answer.dropPlus code) with
      | some n =>
        if n < 65536 then .ok (Utf8.decodeLossy version, n)
        else .error (.notANumber (Utf8.decodeLossy code))
      | none => .error (.notANumber (Utf8.decodeLossy code))
    | _ => .error .wrongTokens

/-- A byte that may stand in a name on the wire. -/
def isNameByte (b : UInt8) : Bool := HeaderName.isByte (Ascii.toLower b) && b != 0x22

/-- What is reported of a header line. A line without a name, or with a name that is none, is
dropped; an empty name stays. -/
def reportedField (line : Bytes) : Option (String × Option String) := do
  let (name, value) ← Answer.fieldOf line
  if !name.all isNameByte then none
  else return (Utf8.decodeLossy name.toLower,
    (Utf8.decode? value).map fun s => String.ofList (Blank.trim s.toList))

/-- The fault of a line that is not there or has no end. -/
def lineFault (line : Bytes) : EngineFault :=
  let shown := ", ".intercalate (line.map fun b => toString b.toNat)
  .network none <| if line.isEmpty then ⟨.unexpectedEof, "Unexpected EOF"⟩
    else ⟨.invalidData, s!"Header field didn't end with \\n: [{shown}]"⟩

/-- The greatest number of header lines. -/
def maxFields : Nat := 100

/-! ## Bodies -/

/-- The value of the first line with a name, if it is text. -/
def firstValue? (fields : List (String × Option String)) (name : String) : Option String :=
  (fields.find? (·.1 == name)).bind (·.2)

/-- The fault of a body that stops too early. -/
def shortBody : IoError := ⟨.unexpectedEof, "response body closed before all bytes were read"⟩

/-- The fault of ill-formed chunks. -/
def brokenChunks : IoError := ⟨.invalidInput, "Error while decoding chunks"⟩

/-- The number that the text of a size stands for: hexadecimal digits behind an optional plus
sign. -/
def sizeOf? (text : Bytes) : Option Nat := do
  let digits := Blank.trim (← Utf8.decode? text).toList
  (Answer.hexadecimal? (Answer.dropPlus (Bytes.ofText (String.ofList digits)))).filter
    (· < Answer.wordLimit)

/-- The size at the front of a chunk. Behind a semicolon everything is ignored up to the line
end. -/
def chunkSize? (data : Bytes) : Option (Nat × Bytes) := do
  let rest ← Answer.lineEnd? (data.dropWhile (· ≠ 0x0d))
  return (← sizeOf? (data.takeWhile fun b => b ≠ 0x0d && b ≠ 0x3b), rest)

/-- The chunks of the plain agent. -/
def chunks : Answer.ChunkGrammar where
  size? := chunkSize?
  close? := Answer.lineEnd?
  size_lt {data rest n} h := by
    simp only [chunkSize?, Option.bind_eq_bind, Option.bind_eq_some_iff, Option.pure_def,
      Option.some.injEq, Prod.mk.injEq] at h
    obtain ⟨rest', h₁, n, _, _, rfl⟩ := h
    have := Answer.length_lt_of_lineEnd? h₁
    have := Answer.length_dropWhile_le (· ≠ 0x0d) data
    omega
  close_le := Answer.length_le_of_lineEnd?

/-- A body in chunks. -/
def chunkSource (data : Bytes) : Source :=
  match chunks.read data with
  | (bytes, .cut) => .ofBytes bytes
  | (bytes, .broken) => Answer.failingSource bytes brokenChunks
  | (bytes, .closed rest) =>
    if (Answer.lineEnd? rest).isSome then .ofBytes bytes
    else Answer.failingSource bytes brokenChunks

/-- The body of an answer to a request with the given method. -/
def bodyOf (method : Method) (version : String) (code : Nat)
    (fields : List (String × Option String)) (rest : Bytes) : Source :=
  if method.text.toLower == "head" || code == 204 || code == 304 then .ofBytes []
  else if version != "HTTP/1.0" && (firstValue? fields "transfer-encoding").any (· != "") then
    chunkSource rest
  else match (firstValue? fields "content-length").bind (Answer.word? <| Bytes.ofText ·) with
    | some n => Answer.lengthSource n shortBody rest
    | none => .ofBytes rest

/-- Reads the answer to a request with the given method. -/
def readAnswer (method : Method) (data : Bytes) : Except EngineFault Reported := do
  let (first, rest) ← (Answer.takeLine data).mapError lineFault
  let (version, code) ← (statusLine first).mapError EngineFault.badStatusLine
  let (lines, rest) ← (Answer.takeLines rest).mapError lineFault
  let fields := lines.filterMap reportedField
  if fields.length > maxFields then throw (.tooManyHeaders maxFields)
  return ⟨version, code, fields, [bodyOf method version code fields rest]⟩

end ApiClient.Plain
