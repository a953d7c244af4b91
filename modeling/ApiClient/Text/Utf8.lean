import ApiClient.Text.Bytes

/-!
# ApiClient.Text.Utf8

UTF-8 as a left-to-right machine over bytes.

Design points:

* `pieces` cuts a byte string into characters and ill-formed stretches. A stretch is as long as it
  can be without containing a byte that could not follow (the *maximal subpart*), so a strict reader
  can name the first fault and a lenient one replaces each stretch by a single U+FFFD.
* The machine looks at one byte at a time and carries the started character in `Pending`, so every
  function here is a structural recursion on the byte string.
-/

namespace ApiClient.Utf8

/-- A character whose first bytes were read. -/
structure Pending where
  /-- How many continuation bytes are still missing. -/
  missing : Nat
  /-- The least byte that may come next. -/
  low : UInt8
  /-- The greatest byte that may come next. -/
  high : UInt8
  /-- The value of the bits read so far. -/
  bits : Nat
  /-- The number of bytes read so far. -/
  width : Nat
deriving Repr, DecidableEq

/-- A stretch of a byte string as a reader sees it. -/
inductive Piece where
  /-- A well-formed character. -/
  | char (c : Char)
  /-- An ill-formed stretch of `width` bytes, followed by a byte that could not continue it. -/
  | illFormed (width : Nat)
  /-- The beginning of a character, cut off by the end of the byte string. -/
  | cutOff (width : Nat)
deriving Repr, DecidableEq

/-- What a byte that stands at the start of a character means. -/
inductive Lead where
  /-- The byte is a character by itself. -/
  | single (c : Char)
  /-- The byte starts a longer character. -/
  | opens (p : Pending)
  /-- The byte can start no character. -/
  | never
deriving Repr, DecidableEq

/-- Classifies a byte at the start of a character. The ranges of the second byte exclude overlong
forms, surrogates and values above U+10FFFF. -/
def lead (b : UInt8) : Lead :=
  if b < 0x80 then .single (Char.ofNat b.toNat)
  else if b < 0xc2 then .never
  else if b < 0xe0 then .opens ⟨1, 0x80, 0xbf, b.toNat - 0xc0, 1⟩
  else if b == 0xe0 then .opens ⟨2, 0xa0, 0xbf, 0, 1⟩
  else if b == 0xed then .opens ⟨2, 0x80, 0x9f, 0xd, 1⟩
  else if b < 0xf0 then .opens ⟨2, 0x80, 0xbf, b.toNat - 0xe0, 1⟩
  else if b == 0xf0 then .opens ⟨3, 0x90, 0xbf, 0, 1⟩
  else if b < 0xf4 then .opens ⟨3, 0x80, 0xbf, b.toNat - 0xf0, 1⟩
  else if b == 0xf4 then .opens ⟨3, 0x80, 0x8f, 4, 1⟩
  else .never

/-- Reads a byte at the start of a character: the pieces that are now complete, and the character
that was begun. -/
def begin (b : UInt8) : List Piece × Option Pending :=
  match lead b with
  | .single c => ([.char c], none)
  | .opens p => ([], some p)
  | .never => ([.illFormed 1], none)

/-- Reads a byte. A byte that cannot continue the started character ends it and is read again as the
start of the next one. -/
def advance : Option Pending → UInt8 → List Piece × Option Pending
  | none, b => begin b
  | some p, b =>
    if p.low ≤ b && b ≤ p.high then
      let bits := p.bits * 64 + (b.toNat - 0x80)
      if p.missing ≤ 1 then ([.char (Char.ofNat bits)], none)
      else ([], some ⟨p.missing - 1, 0x80, 0xbf, bits, p.width + 1⟩)
    else (.illFormed p.width :: (begin b).1, (begin b).2)

/-- Cuts a byte string into characters and ill-formed stretches, given the character that was
begun. -/
def piecesFrom : Option Pending → Bytes → List Piece
  | none, [] => []
  | some p, [] => [.cutOff p.width]
  | state, b :: rest => (advance state b).1 ++ piecesFrom (advance state b).2 rest

/-- The characters and ill-formed stretches of a byte string. -/
def pieces (bytes : Bytes) : List Piece := piecesFrom none bytes

/-- Why a byte string is not UTF-8. -/
inductive Fault where
  /-- An ill-formed stretch of `width` bytes stands at `index`. -/
  | illFormed (width index : Nat)
  /-- The byte string ends inside the character that starts at `index`. -/
  | cutOff (index : Nat)
deriving Repr, DecidableEq

/-- The text of a fault. -/
def Fault.message : Fault → String
  | .illFormed width index => s!"invalid utf-8 sequence of {width} bytes from index {index}"
  | .cutOff index => s!"incomplete utf-8 byte sequence from index {index}"

/-- The offset of the first byte that is not part of a character. -/
def Fault.index : Fault → Nat
  | .illFormed _ index => index
  | .cutOff index => index

/-- Reads pieces strictly, counting bytes from `index` on. -/
def strict : Nat → List Piece → Except Fault (List Char)
  | _, [] => .ok []
  | index, .char c :: rest => (strict (index + (String.utf8EncodeChar c).length) rest).map (c :: ·)
  | index, .illFormed width :: _ => .error (.illFormed width index)
  | index, .cutOff _ :: _ => .error (.cutOff index)

/-- The text of a byte string, or the first place where it is not UTF-8. -/
def decode (bytes : Bytes) : Except Fault String := (strict 0 (pieces bytes)).map String.ofList

/-- The text of a byte string, if it is UTF-8. -/
def decode? (bytes : Bytes) : Option String := (decode bytes).toOption

/-- The character that a lenient reader sees: an ill-formed stretch counts as U+FFFD. -/
def Piece.shown : Piece → Char
  | .char c => c
  | .illFormed _ => '\ufffd'
  | .cutOff _ => '\ufffd'

/-- The text of a byte string with each ill-formed stretch replaced by U+FFFD. -/
def decodeLossy (bytes : Bytes) : String := String.ofList ((pieces bytes).map Piece.shown)

end ApiClient.Utf8
