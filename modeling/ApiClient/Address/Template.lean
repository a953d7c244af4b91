import ApiClient.Text.Blank
import ApiClient.Text.Percent

/-!
# ApiClient.Address.Template

URI templates: literals and expressions in braces.

Design points:

* Reading a template is apart from expanding it. A template reads as an alternation of literals and
  expressions which ends regularly or at a brace that has no partner.
* Expansion goes from left to right and stops at the first fault, so a missing value hides a lone
  brace behind it.
* A literal keeps what a URI may contain, including percent triplets; a value keeps only the
  characters without a meaning in URIs. Every character is thus encoded exactly once.
-/

namespace ApiClient

/-- A template as it was read. -/
inductive Template where
  /-- A literal, and the end. -/
  | done (literal : List Char)
  /-- A literal, and then a brace without its partner. -/
  | broken (literal : List Char)
  /-- A literal, an expression in braces, and what follows. -/
  | hole (literal expression : List Char) (rest : Template)
deriving Repr, DecidableEq

/-- The values of a template's variables. -/
inductive Variables where
  /-- No values. -/
  | none
  /-- Values for the expressions in their order. -/
  | positional (values : List String)
  /-- Values by name. -/
  | named (values : List (String × String))
deriving Repr, DecidableEq

/-- Why a template cannot be expanded. -/
inductive TemplateFault where
  /-- A brace without its partner, or a brace inside an expression. -/
  | unbalancedBraces
  /-- An expression without a name. -/
  | emptyName
  /-- A name without a value. -/
  | missingValue (name : String)
deriving Repr, DecidableEq

namespace Template

/-- The template with a character in front. -/
def push (c : Char) : Template → Template
  | done literal => done (c :: literal)
  | broken literal => broken (c :: literal)
  | hole literal expression rest => hole (c :: literal) expression rest

/-- Reads a template. `pending` is the expression that was begun. -/
def readFrom : Option (List Char) → List Char → Template
  | .none, [] => done []
  | some _, [] => broken []
  | .none, c :: rest =>
    if c = '\x7b' then readFrom (some []) rest
    else if c = '\x7d' then broken []
    else (readFrom .none rest).push c
  | some expression, c :: rest =>
    if c = '\x7b' then broken []
    else if c = '\x7d' then hole [] expression (readFrom .none rest)
    else readFrom (some (expression ++ [c])) rest

/-- Reads a template. -/
def read (s : String) : Template := readFrom none s.toList

/-- The variable name of an expression: what stands before its colon, without blanks around it. -/
def variableName (expression : List Char) : List Char :=
  Blank.trim (expression.takeWhile (· != ':'))

/-! ## Encoding -/

/-- Bytes that literals keep: all visible ASCII but the quote, the backslash, the accents and the
brackets that URIs do not have. The percent sign is dealt with apart. -/
def keepsInLiteral (b : UInt8) : Bool :=
  0x20 < b && b < 0x7f && !(Bytes.ofText "\"<>\\^\x60\x7b|\x7d").contains b

/-- Bytes that values keep: those without a meaning in URIs. -/
def isUnreserved (b : UInt8) : Bool :=
  Ascii.isAlphanumeric b || b == 0x2d || b == 0x2e || b == 0x5f || b == 0x7e

/-- Whether a character is a hexadecimal digit. -/
def isHexDigit (c : Char) : Bool :=
  ('0' ≤ c && c ≤ '9') || ('A' ≤ c && c ≤ 'F') || ('a' ≤ c && c ≤ 'f')

/-- Whether a text goes on with two hexadecimal digits. -/
def startsWithHexPair : List Char → Bool
  | a :: b :: _ => isHexDigit a && isHexDigit b
  | _ => false

/-- A literal in a URI. A percent sign that starts no triplet is encoded. -/
def encodeLiteral : List Char → List Char
  | [] => []
  | c :: rest =>
    (if c = '%' then (if startsWithHexPair rest then ['%'] else ['%', '2', '5'])
      else Percent.encode keepsInLiteral (String.utf8EncodeChar c)) ++ encodeLiteral rest

/-- A value in a URI. -/
def encodeValue (value : String) : List Char := Percent.encode isUnreserved (Bytes.ofText value)

/-! ## Expansion -/

/-- The value for the expression that stands at `index` and has the given name. -/
def valueOf? (bindings : Variables) (index : Nat) (name : String) : Option String :=
  match bindings with
  | .none => Option.none
  | .positional values => values[index]?
  | .named values => values.lookup name

/-- Expands a template whose first expression stands at `index`. -/
def expandFrom (bindings : Variables) : Nat → Template → Except TemplateFault (List Char)
  | _, done literal => .ok (encodeLiteral literal)
  | _, broken _ => .error .unbalancedBraces
  | index, hole literal expression rest =>
    let name := variableName expression
    if name.isEmpty then .error .emptyName
    else match valueOf? bindings index (String.ofList name) with
      | Option.none => .error (.missingValue (String.ofList name))
      | some value => do
        .ok (encodeLiteral literal ++ encodeValue value
          ++ (← expandFrom bindings (index + 1) rest))

/-- Replaces the expressions of a template by values. -/
def expand (template : String) (bindings : Variables) : Except TemplateFault String :=
  (expandFrom bindings 0 (read template)).map String.ofList

end Template

end ApiClient
