import ApiClient.Json.Basic

/-!
# ApiClient.Json.Printer

The compact text of a JSON value: no blanks, fields in order, and a text escaped only where JSON
demands it.
-/

namespace ApiClient.Json

/-- A character inside a JSON text. -/
def escape (c : Char) : List Char :=
  if c == '\x22' then ['\x5c', '\x22']
  else if c == '\x5c' then ['\x5c', '\x5c']
  else if c == '\x08' then ['\x5c', 'b']
  else if c == '\x0c' then ['\x5c', 'f']
  else if c == '\n' then ['\x5c', 'n']
  else if c == '\r' then ['\x5c', 'r']
  else if c == '\t' then ['\x5c', 't']
  else if c.toNat < 0x20 then
    let digit (n : Nat) := Char.ofNat (Ascii.hexDigitLower n).toNat
    ['\x5c', 'u', '0', '0', digit (c.toNat / 16), digit (c.toNat % 16)]
  else [c]

/-- A text in JSON quotes. -/
def printText (s : String) : List Char := '\x22' :: s.toList.flatMap escape ++ ['\x22']

mutual

/-- The characters of a value. -/
def print : Json → List Char
  | null => ['n', 'u', 'l', 'l']
  | bool true => ['t', 'r', 'u', 'e']
  | bool false => ['f', 'a', 'l', 's', 'e']
  | number n => n.render.toList
  | string s => printText s
  | array items => '[' :: printItems items ++ [']']
  | object fields => '\x7b' :: printFields fields ++ ['\x7d']

/-- The items of a list, separated by commas. -/
def printItems : List Json → List Char
  | [] => []
  | [item] => print item
  | item :: rest => print item ++ ',' :: printItems rest

/-- The fields of an object, separated by commas. -/
def printFields : List (String × Json) → List Char
  | [] => []
  | [(name, value)] => printText name ++ ':' :: print value
  | (name, value) :: rest => printText name ++ ':' :: print value ++ ',' :: printFields rest

end

/-- The compact text of a value. -/
def render (value : Json) : String := String.ofList value.print

end ApiClient.Json
