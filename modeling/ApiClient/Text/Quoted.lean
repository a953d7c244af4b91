import ApiClient.Text.Bytes
import ApiClient.Unicode.Category

/-!
# ApiClient.Text.Quoted

Quoted text for diagnostics: a text between double quotes in which every character can be told from
its neighbours.

Design points:

* The quote and the backslash are escaped by a backslash; tab, line feed, carriage return and NUL
  have letters; every other character that shows nothing of its own, or extends the one before it,
  is written by its code point.
* Byte strings, which need not be text, have a form of their own with `\xhh` escapes.
-/

namespace ApiClient.Quoted

/-- Whether a character is written by its code point. -/
def isHidden (c : Char) : Bool :=
  if c.toNat < 0x80 then c.toNat < 0x20 || c.toNat == 0x7f
  else Unicode.isExtending c || Unicode.isUnseen c

/-- The lower-case hexadecimal digits of a number, without leading zeros. -/
def hex (n : Nat) : List Char := Nat.toDigits 16 n

/-- A character inside quotes. -/
def escape (c : Char) : List Char :=
  if c == '\x22' then ['\x5c', '\x22']
  else if c == '\x5c' then ['\x5c', '\x5c']
  else if c == '\n' then ['\x5c', 'n']
  else if c == '\r' then ['\x5c', 'r']
  else if c == '\t' then ['\x5c', 't']
  else if c == '\x00' then ['\x5c', '0']
  else if isHidden c then ['\x5c', 'u', '\x7b'] ++ hex c.toNat ++ ['\x7d']
  else [c]

/-- A text in double quotes. -/
def text (s : String) : String :=
  String.ofList (['\x22'] ++ s.toList.flatMap escape ++ ['\x22'])

/-- A byte inside quotes: visible ASCII and tab as they are, the quote escaped, others as `\xhh`. -/
def escapeByte (b : UInt8) : List Char :=
  if b == 0x22 then ['\x5c', '\x22']
  else if (0x20 ≤ b && b < 0x7f) || b == 0x09 then [Char.ofNat b.toNat]
  else '\x5c' :: 'x' :: hex b.toNat

/-- A byte string in double quotes. -/
def bytes (bs : Bytes) : String :=
  String.ofList (['\x22'] ++ bs.flatMap escapeByte ++ ['\x22'])

end ApiClient.Quoted
