/-!
# ApiClient.Text.Bytes

Byte strings and the ASCII classes that the formats of this library are written in.

Design points:

* A byte string is a plain `List UInt8`, so that every reader and printer below is a structural
  recursion and every law about them is an induction.
* A byte is a character of a grammar exactly when it is below 128; the classes here are therefore
  predicates on bytes, and no class accepts a byte of a multi-byte character.
-/

namespace ApiClient

/-- A byte string. -/
abbrev Bytes := List UInt8

namespace Ascii

/-- The byte of an ASCII character. -/
def byte (c : Char) : UInt8 := c.toNat.toUInt8

/-- A decimal digit. -/
def isDigit (b : UInt8) : Bool := 0x30 ≤ b && b ≤ 0x39

/-- An upper-case letter. -/
def isUpper (b : UInt8) : Bool := 0x41 ≤ b && b ≤ 0x5a

/-- A lower-case letter. -/
def isLower (b : UInt8) : Bool := 0x61 ≤ b && b ≤ 0x7a

/-- A letter of either case. -/
def isLetter (b : UInt8) : Bool := isUpper b || isLower b

/-- A letter or a decimal digit. -/
def isAlphanumeric (b : UInt8) : Bool := isLetter b || isDigit b

/-- A hexadecimal digit of either case. -/
def isHexDigit (b : UInt8) : Bool :=
  isDigit b || (0x41 ≤ b && b ≤ 0x46) || (0x61 ≤ b && b ≤ 0x66)

/-- A control byte: below the space, or DEL. -/
def isControl (b : UInt8) : Bool := b < 0x20 || b == 0x7f

/-- The blanks between tokens of a text format: space, tab, line feed, form feed, carriage
return. -/
def isBlank (b : UInt8) : Bool :=
  b == 0x20 || b == 0x09 || b == 0x0a || b == 0x0c || b == 0x0d

/-- A blank within a line: space or tab. -/
def isLineBlank (b : UInt8) : Bool := b == 0x20 || b == 0x09

/-- A byte of visible ASCII, a space or a tab. -/
def isVisible (b : UInt8) : Bool := b == 0x09 || (0x20 ≤ b && b < 0x7f)

/-- The lower-case form of a letter; any other byte is kept. -/
def toLower (b : UInt8) : UInt8 := if isUpper b then b + 32 else b

/-- The value of a hexadecimal digit. -/
def hexValue? (b : UInt8) : Option Nat :=
  if isDigit b then some (b.toNat - 0x30)
  else if 0x41 ≤ b && b ≤ 0x46 then some (b.toNat - 0x37)
  else if 0x61 ≤ b && b ≤ 0x66 then some (b.toNat - 0x57)
  else none

/-- The upper-case hexadecimal digit of a value below sixteen. -/
def hexDigit (n : Nat) : UInt8 := if n < 10 then (0x30 + n).toUInt8 else (0x37 + n).toUInt8

/-- The lower-case hexadecimal digit of a value below sixteen. -/
def hexDigitLower (n : Nat) : UInt8 := if n < 10 then (0x30 + n).toUInt8 else (0x57 + n).toUInt8

theorem toNat_byte {c : Char} (h : c.toNat < 0x80) : (byte c).toNat = c.toNat :=
  Nat.mod_eq_of_lt (by omega)

theorem hexValue?_hexDigit {n : Nat} (h : n < 16) : hexValue? (hexDigit n) = some n :=
  (by decide : ∀ n : Fin 16, hexValue? (hexDigit n) = some n.val) ⟨n, h⟩

theorem hexValue?_hexDigitLower {n : Nat} (h : n < 16) :
    hexValue? (hexDigitLower n) = some n :=
  (by decide : ∀ n : Fin 16, hexValue? (hexDigitLower n) = some n.val) ⟨n, h⟩

/-- A byte is the value of its two hexadecimal digits. -/
theorem ofNat_nibbles (b : UInt8) : (16 * (b.toNat / 16) + b.toNat % 16).toUInt8 = b := by
  rw [Nat.div_add_mod]
  exact UInt8.ofNat_toNat

end Ascii

namespace Bytes

/-- The UTF-8 form of a text. -/
def ofText (s : String) : Bytes := s.toList.flatMap String.utf8EncodeChar

/-- The lower-case hexadecimal digits of a byte string, two for each byte. -/
def toHex (bytes : Bytes) : String :=
  String.ofList <| bytes.flatMap fun b =>
    [Char.ofNat (Ascii.hexDigitLower (b.toNat / 16)).toNat,
     Char.ofNat (Ascii.hexDigitLower (b.toNat % 16)).toNat]

/-- The bytes that pairs of hexadecimal digits stand for; reading stops at the first other pair. -/
def ofHex : Bytes → Bytes
  | hi :: lo :: rest =>
    match Ascii.hexValue? hi, Ascii.hexValue? lo with
    | some h, some l => (16 * h + l).toUInt8 :: ofHex rest
    | _, _ => []
  | _ => []

/-- The lower-case form of every ASCII letter of a byte string. -/
def toLower (bytes : Bytes) : Bytes := bytes.map Ascii.toLower

/-- Splits a byte string at the first byte that satisfies `stop`: what stands before it, and the
rest from that byte on. -/
def splitBefore (stop : UInt8 → Bool) (bytes : Bytes) : Bytes × Bytes :=
  bytes.span (!stop ·)

/-- The pieces of a byte string between the bytes equal to `separator`; there is always at least
one. -/
def splitOn (separator : UInt8) : Bytes → List Bytes
  | [] => [[]]
  | b :: rest =>
    if b == separator then [] :: splitOn separator rest
    else match splitOn separator rest with
      | piece :: pieces => (b :: piece) :: pieces
      | [] => [[b]]

@[simp] theorem ofText_empty : ofText "" = [] := rfl

end Bytes

end ApiClient
