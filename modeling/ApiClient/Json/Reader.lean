import ApiClient.Json.Basic
import ApiClient.Text.Utf8

/-!
# ApiClient.Json.Reader

Reading JSON from bytes, with the place of the first fault.

Design points:

* A reader takes the unread bytes and gives a value and what it left. A `Failure` says how many
  bytes lie beyond the last byte that the fault counts; line and column are computed once, from the
  whole input, in `parse`.
* Nesting is bounded: `value` recurses on the number of brackets that may still be opened. The loops
  over items, fields and characters consume at least one byte a round, so the number of unread bytes
  bounds them.
-/

namespace ApiClient.Json

/-- What is wrong with a JSON text. -/
inductive Fault where
  /-- The text ends inside a list. -/
  | eofInList
  /-- The text ends inside an object. -/
  | eofInObject
  /-- The text ends inside a quoted text. -/
  | eofInString
  /-- The text ends where a value is due. -/
  | eofInValue
  /-- A field name is not followed by a colon. -/
  | expectedColon
  /-- A list item is followed by neither a comma nor the end of the list. -/
  | expectedListEnd
  /-- A field is followed by neither a comma nor the end of the object. -/
  | expectedObjectEnd
  /-- A word other than the three literals. -/
  | expectedWord
  /-- No value starts here. -/
  | expectedValue
  /-- An unknown escape. -/
  | invalidEscape
  /-- An ill-formed number. -/
  | invalidNumber
  /-- A number beyond the greatest finite one. -/
  | numberOutOfRange
  /-- A quoted text that is not UTF-8. -/
  | invalidCodePoint
  /-- A control character in a quoted text. -/
  | controlCharacter
  /-- A field name that is not a quoted text. -/
  | keyMustBeString
  /-- A surrogate without its partner. -/
  | loneSurrogate
  /-- A leading surrogate that no escape follows. -/
  | unfinishedSurrogate
  /-- A comma before the end of a list or object. -/
  | trailingComma
  /-- Something after the value. -/
  | trailingCharacters
  /-- Too many open brackets. -/
  | recursionLimit
deriving Repr, DecidableEq

/-- The text of a fault. -/
def Fault.message : Fault → String
  | .eofInList => "EOF while parsing a list"
  | .eofInObject => "EOF while parsing an object"
  | .eofInString => "EOF while parsing a string"
  | .eofInValue => "EOF while parsing a value"
  | .expectedColon => "expected \x60:\x60"
  | .expectedListEnd => "expected \x60,\x60 or \x60]\x60"
  | .expectedObjectEnd => "expected \x60,\x60 or \x60\x7d\x60"
  | .expectedWord => "expected ident"
  | .expectedValue => "expected value"
  | .invalidEscape => "invalid escape"
  | .invalidNumber => "invalid number"
  | .numberOutOfRange => "number out of range"
  | .invalidCodePoint => "invalid unicode code point"
  | .controlCharacter => "control character (\\u0000-\\u001F) found while parsing a string"
  | .keyMustBeString => "key must be a string"
  | .loneSurrogate => "lone leading surrogate in hex escape"
  | .unfinishedSurrogate => "unexpected end of hex escape"
  | .trailingComma => "trailing comma"
  | .trailingCharacters => "trailing characters"
  | .recursionLimit => "recursion limit exceeded"

/-- A fault and the number of bytes beyond the last byte it counts. -/
structure Failure where
  /-- What is wrong. -/
  fault : Fault
  /-- How many bytes of the input lie beyond. -/
  beyond : Nat
deriving Repr, DecidableEq

/-- Reads something off the unread bytes. -/
abbrev Reader (α : Type) := Bytes → Except Failure (α × Bytes)

namespace Reader

/-- A fault about the bytes read so far. -/
def failAfter {α : Type} (fault : Fault) (unread : Bytes) : Except Failure α :=
  .error ⟨fault, unread.length⟩

/-- A fault about the next byte, or about the end of the input. -/
def failAt {α : Type} (fault : Fault) (unread : Bytes) : Except Failure α :=
  .error ⟨fault, unread.length - 1⟩

/-- A blank between tokens: space, tab, line feed, carriage return. -/
def isGap (b : UInt8) : Bool := b == 0x20 || b == 0x09 || b == 0x0a || b == 0x0d

/-- The unread bytes from the next token on. -/
def skipGap (unread : Bytes) : Bytes := unread.dropWhile isGap

/-! ## Literals and numbers -/

/-- Reads the rest of a literal word. -/
def word (value : Json) : Bytes → Reader Json
  | [], unread => .ok (value, unread)
  | _ :: _, [] => failAfter .eofInValue []
  | expected :: word', b :: unread =>
    if b == expected then word value word' unread else failAfter .expectedWord unread

/-- The value of a decimal digit. -/
def digitValue (b : UInt8) : Nat := b.toNat - 0x30

/-- The value of a run of decimal digits. -/
def digitsValue (digits : Bytes) : Nat := digits.foldl (fun n d => 10 * n + digitValue d) 0

/-- The leading digits of a number, as far as they are below 2⁶⁴, and the power of ten of the last
of them. -/
structure Leading where
  /-- The digits as one number. -/
  digits : Nat
  /-- The power of ten of the last digit. -/
  scale : Int
deriving Repr, DecidableEq

/-- A number with one more digit, if that is below 2⁶⁴. -/
def pushDigit? (n : Nat) (d : UInt8) : Option Nat :=
  let m := 10 * n + digitValue d
  if m < 0x10000000000000000 then some m else none

/-- The leading digits of an integer, behind `n`. The digits without room count as places. -/
def Leading.ofInteger (n : Nat) : Bytes → Leading
  | [] => ⟨n, 0⟩
  | d :: rest =>
    match pushDigit? n d with
    | some m => ofInteger m rest
    | none => ⟨n, rest.length + 1⟩

/-- The leading digits with decimals behind them. The first digit without room ends them. -/
def Leading.withDecimals (lead : Leading) : Bytes → Leading
  | [] => lead
  | d :: rest =>
    match pushDigit? lead.digits d with
    | some m => withDecimals ⟨m, lead.scale - 1⟩ rest
    | none => lead

/-- The digits of an exponent up to and with the one that exceeds 2³¹ - 1, if one does. -/
def exponentOverflow : Nat → Bytes → Option Bytes
  | _, [] => none
  | n, d :: rest =>
    let m := 10 * n + digitValue d
    if m > 2147483647 then some rest else exponentOverflow m rest

/-- A floating-point number from its sign and its leading digits. -/
def doubleOf (negative : Bool) (lead : Leading) : Reader Json := fun unread =>
  match Double.ofDigits? lead.digits lead.scale with
  | some d => .ok (.number (.double (if negative then d.negate else d)), unread)
  | none => failAfter .numberOutOfRange unread

/-- Reads an exponent, behind its mark. -/
def exponent (negative : Bool) (lead : Leading) : Reader Json := fun unread =>
  let (down, unread) := match unread with
    | 0x2b :: rest => (false, rest)
    | 0x2d :: rest => (true, rest)
    | _ => (false, unread)
  match unread with
  | [] => failAfter .eofInValue []
  | b :: after =>
    if !Ascii.isDigit b then failAfter .invalidNumber after
    else
      let (power, rest) := unread.span Ascii.isDigit
      match exponentOverflow 0 power with
      | some left =>
        if lead.digits != 0 && !down then failAfter .numberOutOfRange (left ++ rest)
        else doubleOf negative ⟨0, 0⟩ rest
      | none =>
        let power : Int := digitsValue power
        doubleOf negative { lead with scale := lead.scale + (if down then -power else power) } rest

/-- Reads what may follow the integer digits of a number. An integer without a fraction or an
exponent stays one if it and all its digits fit 64 bits. -/
def fraction (negative : Bool) (lead : Leading) : Reader Json := fun unread =>
  match unread with
  | 0x2e :: rest =>
    let (decimals, rest) := rest.span Ascii.isDigit
    if decimals.isEmpty then
      failAt (if rest.isEmpty then .eofInValue else .invalidNumber) rest
    else
      let lead := lead.withDecimals decimals
      match rest with
      | 0x65 :: rest' => exponent negative lead rest'
      | 0x45 :: rest' => exponent negative lead rest'
      | _ => doubleOf negative lead rest
  | 0x65 :: rest => exponent negative lead rest
  | 0x45 :: rest => exponent negative lead rest
  | _ =>
    let n := lead.digits
    if lead.scale = 0 && !negative then .ok (.number (.int n), unread)
    else if lead.scale = 0 && 0 < n && n ≤ 0x8000000000000000 then .ok (.number (.int (-n)), unread)
    else doubleOf negative lead unread

/-- Reads a number, behind its sign. A leading zero stands alone. -/
def number (negative : Bool) : Reader Json := fun unread =>
  match unread with
  | [] => failAfter .eofInValue []
  | b :: rest =>
    if b == 0x30 then
      if (rest.head?.map Ascii.isDigit).getD false then failAt .invalidNumber rest
      else fraction negative ⟨0, 0⟩ rest
    else if Ascii.isDigit b then
      let (digits, rest) := unread.span Ascii.isDigit
      fraction negative (.ofInteger 0 digits) rest
    else failAfter .invalidNumber rest

/-! ## Quoted texts -/

/-- Reads four hexadecimal digits. -/
def hexFour : Reader Nat
  | a :: b :: c :: d :: rest =>
    match Ascii.hexValue? a, Ascii.hexValue? b, Ascii.hexValue? c, Ascii.hexValue? d with
    | some a, some b, some c, some d => .ok (((a * 16 + b) * 16 + c) * 16 + d, rest)
    | _, _, _, _ => failAfter .invalidEscape rest
  | _ => failAfter .eofInString []

/-- Reads an escaped code unit, and its partner if it is a leading surrogate. -/
def codeUnit : Reader Char := fun unread => do
  let (first, rest) ← hexFour unread
  if 0xdc00 ≤ first && first ≤ 0xdfff then failAfter .loneSurrogate rest
  else if first < 0xd800 || 0xdbff < first then .ok (Char.ofNat first, rest)
  else match rest with
    | [] => failAfter .eofInString []
    | [b] => if b == 0x5c then failAfter .eofInString [] else failAfter .unfinishedSurrogate []
    | b :: u :: rest =>
      if b != 0x5c then failAfter .unfinishedSurrogate (u :: rest)
      else if u != 0x75 then failAfter .unfinishedSurrogate rest
      else
        let (second, rest) ← hexFour rest
        if second < 0xdc00 || 0xdfff < second then failAfter .loneSurrogate rest
        else .ok (Char.ofNat (0x10000 + (first - 0xd800) * 0x400 + (second - 0xdc00)), rest)

/-- Reads an escape, behind its backslash. -/
def escaped : Reader Char := fun unread =>
  match unread with
  | [] => failAfter .eofInString []
  | b :: rest =>
    if b == 0x22 then .ok ('\x22', rest)
    else if b == 0x5c then .ok ('\x5c', rest)
    else if b == 0x2f then .ok ('/', rest)
    else if b == 0x62 then .ok ('\x08', rest)
    else if b == 0x66 then .ok ('\x0c', rest)
    else if b == 0x6e then .ok ('\n', rest)
    else if b == 0x72 then .ok ('\r', rest)
    else if b == 0x74 then .ok ('\t', rest)
    else if b == 0x75 then codeUnit rest
    else failAfter .invalidEscape rest

/-- Reads the bytes of a quoted text up to and with the closing quote, onto the reversed `done`. -/
def quotedBytes : Nat → Bytes → Reader Bytes
  | 0, _, _ => failAfter .eofInString []
  | _ + 1, _, [] => failAfter .eofInString []
  | fuel + 1, done, b :: unread =>
    if b == 0x22 then .ok (done.reverse, unread)
    else if b == 0x5c then do
      let (c, rest) ← escaped unread
      quotedBytes fuel ((String.utf8EncodeChar c).reverse ++ done) rest
    else if b < 0x20 then failAfter .controlCharacter unread
    else quotedBytes fuel (b :: done) unread

/-- Reads a quoted text, behind its opening quote. Where the text is not UTF-8, the fault is as many
bytes in front of the end as the text with its escapes resolved has bytes from the first ill-formed
one on. -/
def quoted : Reader String := fun unread => do
  let (bytes, rest) ← quotedBytes (unread.length + 1) [] unread
  match Utf8.decode bytes with
  | .ok s => .ok (s, rest)
  | .error fault => .error ⟨.invalidCodePoint, rest.length + (bytes.length - fault.index)⟩

/-! ## Lists, objects and values -/

/-- Reads the items of a list and its closing bracket, onto the reversed `done`. -/
def items (item : Reader Json) : Nat → List Json → Reader (List Json)
  | 0, _, _ => failAfter .eofInList []
  | fuel + 1, done, unread =>
    match skipGap unread with
    | [] => failAt .eofInList []
    | b :: rest =>
      if b == 0x5d then .ok (done.reverse, rest)
      else if done.isEmpty then do
        let (v, rest) ← item (b :: rest)
        items item fuel (v :: done) rest
      else if b == 0x2c then
        match skipGap rest with
        | [] => failAt .eofInValue []
        | b :: rest =>
          if b == 0x5d then failAt .trailingComma (b :: rest)
          else do
            let (v, rest) ← item (b :: rest)
            items item fuel (v :: done) rest
      else failAt .expectedListEnd (b :: rest)

/-- Reads a field, from its opening quote on. -/
def member (item : Reader Json) : Reader (String × Json) := fun unread => do
  let (name, rest) ← quoted (unread.drop 1)
  match skipGap rest with
  | [] => failAt .eofInObject []
  | b :: rest =>
    if b != 0x3a then failAt .expectedColon (b :: rest)
    else
      let (value, rest) ← item rest
      .ok ((name, value), rest)

/-- Reads the fields of an object and its closing brace, adding them to `done`. -/
def members (item : Reader Json) : Nat → Bool → Fields → Reader Fields
  | 0, _, _, _ => failAfter .eofInObject []
  | fuel + 1, first, done, unread =>
    match skipGap unread with
    | [] => failAt .eofInObject []
    | b :: rest =>
      if b == 0x7d then .ok (done, rest)
      else if first then
        if b == 0x22 then do
          let ((name, value), rest) ← member item (b :: rest)
          members item fuel false (insertField name value done) rest
        else failAt .keyMustBeString (b :: rest)
      else if b == 0x2c then
        match skipGap rest with
        | [] => failAt .eofInValue []
        | b :: rest =>
          if b == 0x22 then do
            let ((name, value), rest) ← member item (b :: rest)
            members item fuel false (insertField name value done) rest
          else if b == 0x7d then failAt .trailingComma (b :: rest)
          else failAt .keyMustBeString (b :: rest)
      else failAt .expectedObjectEnd (b :: rest)

/-- Reads a value in which at most `depth` brackets are open at once. -/
def value (depth : Nat) : Reader Json := fun unread =>
  match skipGap unread with
  | [] => failAt .eofInValue []
  | b :: rest =>
    if b == 0x6e then word .null [0x75, 0x6c, 0x6c] rest
    else if b == 0x74 then word (.bool true) [0x72, 0x75, 0x65] rest
    else if b == 0x66 then word (.bool false) [0x61, 0x6c, 0x73, 0x65] rest
    else if b == 0x2d then number true rest
    else if Ascii.isDigit b then number false (b :: rest)
    else if b == 0x22 then (quoted rest).map fun (s, rest) => (.string s, rest)
    else if b == 0x5b then
      match depth with
      | 0 => failAt .recursionLimit (b :: rest)
      | depth + 1 =>
        (items (value depth) (rest.length + 1) [] rest).map fun (vs, rest) => (.array vs, rest)
    else if b == 0x7b then
      match depth with
      | 0 => failAt .recursionLimit (b :: rest)
      | depth + 1 =>
        (members (value depth) (rest.length + 1) true [] rest).map fun (fs, rest) =>
          (.object fs, rest)
    else failAt .expectedValue (b :: rest)

/-- The number of brackets that may be open at once. -/
def maxDepth : Nat := 127

/-- Reads one value and nothing else. -/
def document (bytes : Bytes) : Except Failure Json := do
  let (v, rest) ← value maxDepth bytes
  match skipGap rest with
  | [] => .ok v
  | rest => failAt .trailingCharacters rest

end Reader

/-- A fault and where it is. -/
structure SyntaxError where
  /-- What is wrong. -/
  fault : Fault
  /-- The line, from one. -/
  line : Nat
  /-- The number of bytes of that line up to and with the faulty one. -/
  column : Nat
deriving Repr, DecidableEq

/-- The place that ends the given bytes. -/
def SyntaxError.after (fault : Fault) (bytes : Bytes) : SyntaxError where
  fault := fault
  line := bytes.count 0x0a + 1
  column := (bytes.reverse.takeWhile (· != 0x0a)).length

/-- The text of a fault with its place. -/
def SyntaxError.message (e : SyntaxError) : String :=
  s!"{e.fault.message} at line {e.line} column {e.column}"

/-- The value that the bytes hold, or the first fault. -/
def parse (bytes : Bytes) : Except SyntaxError Json :=
  match Reader.document bytes with
  | .ok v => .ok v
  | .error failure =>
    .error (.after failure.fault (bytes.take (bytes.length - failure.beyond)))

end ApiClient.Json
