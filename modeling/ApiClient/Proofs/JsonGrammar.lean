import ApiClient.Json.Reader

/-!
# ApiClient.Proofs.JsonGrammar

The grammar of JSON, without a reader.

A byte string spells a value, or it does not. Blanks may stand around every value, name and mark
(`Padded`), the parts of a list or an object are joined by commas (`Joined`), and a value is spelled
by a scalar or by brackets around other values. `Value` counts the brackets that may be open at
once: a text is JSON if it is one at any depth.

Two things that the grammar of the characters alone would let through spell nothing here. A numeral
beyond the finite doubles has no number, and an escaped surrogate without its partner has no
character.
-/

namespace ApiClient.Json.Grammar

/-! ### Blanks and joints -/

/-- The bytes are blanks that may stand between tokens. -/
def IsGap (gap : Bytes) : Prop := ∀ b ∈ gap, Reader.isGap b = true

variable {α : Type}

/-- Something with blanks around it. -/
inductive Padded (Inner : Bytes → α → Prop) : Bytes → α → Prop where
  /-- The blanks do not count. -/
  | mk {before text after : Bytes} {a : α} (hbefore : IsGap before) (h : Inner text a)
      (hafter : IsGap after) :
      Padded Inner (before ++ text ++ after) a

/-- Things with blanks around them, at least one, and commas between them. -/
inductive Joined (Inner : Bytes → α → Prop) : Bytes → List α → Prop where
  /-- One alone. -/
  | one {text : Bytes} {a : α} (h : Padded Inner text a) : Joined Inner text [a]
  /-- One in front of others. -/
  | more {text rest : Bytes} {a : α} {others : List α} (h : Padded Inner text a)
      (hrest : Joined Inner rest others) : Joined Inner (text ++ 0x2c :: rest) (a :: others)

/-! ### Numerals -/

/-- A run of decimal digits. -/
structure Digits where
  /-- The digits. -/
  bytes : Bytes
  /-- There is one. -/
  ne_nil : bytes ≠ []
  /-- Each byte is one. -/
  isDigit : ∀ b ∈ bytes, Ascii.isDigit b = true

/-- The power of ten of a numeral. -/
structure Exponent where
  /-- The letter in front. -/
  mark : UInt8
  /-- The sign, which may be missing. -/
  sign : Bytes
  /-- The digits. -/
  digits : Digits
  /-- The letter is an `e` of either case. -/
  isMark : mark = 0x65 ∨ mark = 0x45
  /-- The sign is a plus or a minus. -/
  isSign : sign = [] ∨ sign = [0x2b] ∨ sign = [0x2d]

/-- A number as it is written. -/
structure Numeral where
  /-- Whether a minus stands in front. -/
  negative : Bool
  /-- The digits in front of the point. -/
  whole : Digits
  /-- The digits behind the point, if there is one. -/
  decimals : Option Digits
  /-- The power of ten, if there is one. -/
  exponent : Option Exponent
  /-- A zero stands alone in front of the point. -/
  zero_alone : whole.bytes.head? = some 0x30 → whole.bytes = [0x30]

/-- The bytes of an exponent. -/
def Exponent.text (e : Exponent) : Bytes := e.mark :: (e.sign ++ e.digits.bytes)

/-- Whether an exponent makes a number smaller. -/
def Exponent.down (e : Exponent) : Bool := e.sign == [0x2d]

/-- The value of the digits of an exponent. -/
def Exponent.power (e : Exponent) : Nat := Reader.digitsValue e.digits.bytes

namespace Numeral

/-- The bytes behind the digits in front of the point. -/
def tail (decimals : Option Digits) (exponent : Option Exponent) : Bytes :=
  (decimals.elim [] fun d => 0x2e :: d.bytes) ++ exponent.elim [] Exponent.text

/-- The bytes of a numeral, behind its sign. -/
def unsigned (n : Numeral) : Bytes := n.whole.bytes ++ tail n.decimals n.exponent

/-- The bytes of a numeral. -/
def text (n : Numeral) : Bytes := (if n.negative then [0x2d] else []) ++ n.unsigned

/-- The double of leading digits, if there is a finite one. -/
def double? (negative : Bool) (lead : Reader.Leading) : Option Number :=
  (Double.ofDigits? lead.digits lead.scale).map fun d => .double (if negative then d.negate else d)

/-- The number of digits alone: an integer if it fits 64 bits, with a sign if it has one. The
negative zero is a double. -/
def whole? (negative : Bool) (lead : Reader.Leading) : Option Number :=
  if lead.scale = 0 ∧ negative = false then some (.int lead.digits)
  else if lead.scale = 0 ∧ 0 < lead.digits ∧ lead.digits ≤ 0x8000000000000000 then
    some (.int (-lead.digits))
  else double? negative lead

/-- The number of digits and a power of ten. A power of more than 31 bits leaves of any digits zero,
or no number. -/
def scaled? (negative : Bool) (lead : Reader.Leading) (down : Bool) (power : Nat) : Option Number :=
  if 2147483647 < power then
    if lead.digits = 0 ∨ down = true then double? negative ⟨0, 0⟩ else none
  else double? negative { lead with scale := lead.scale + (if down then -(power : Int) else power) }

/-- The number of leading digits and what stands behind them. -/
def behind? (negative : Bool) (lead : Reader.Leading) :
    Option Digits → Option Exponent → Option Number
  | none, none => whole? negative lead
  | some decimals, none => double? negative (lead.withDecimals decimals.bytes)
  | none, some e => scaled? negative lead e.down e.power
  | some decimals, some e => scaled? negative (lead.withDecimals decimals.bytes) e.down e.power

/-- The number of a numeral, if it has one. -/
def value? (n : Numeral) : Option Number :=
  behind? n.negative (.ofInteger 0 n.whole.bytes) n.decimals n.exponent

end Numeral

/-! ### Quoted texts -/

/-- The letters that stand behind a backslash, with the characters that they stand for. -/
def letters : List (UInt8 × Char) :=
  [(0x22, '\x22'), (0x5c, '\x5c'), (0x2f, '/'), (0x62, '\x08'), (0x66, '\x0c'), (0x6e, '\n'),
    (0x72, '\r'), (0x74, '\t')]

/-- Four hexadecimal digits. -/
inductive CodeUnit : Bytes → Nat → Prop where
  /-- Each digit counts sixteen times as much as the next. -/
  | mk {a b c d : UInt8} {i j k l : Nat} (ha : Ascii.hexValue? a = some i)
      (hb : Ascii.hexValue? b = some j)
      (hc : Ascii.hexValue? c = some k) (hd : Ascii.hexValue? d = some l) :
      CodeUnit [a, b, c, d] (((i * 16 + j) * 16 + k) * 16 + l)

/-- What stands behind a backslash, and the character that it stands for. -/
inductive Escape : Bytes → Char → Prop where
  /-- A letter. -/
  | letter {b : UInt8} {c : Char} (h : (b, c) ∈ letters) : Escape [b] c
  /-- A code unit that is no surrogate. -/
  | unit {code : Bytes} {n : Nat} (h : CodeUnit code n) (hn : n < 0xd800 ∨ 0xdfff < n) :
      Escape (0x75 :: code) (Char.ofNat n)
  /-- A leading surrogate and its partner. -/
  | pair {first second : Bytes} {m n : Nat} (hfirst : CodeUnit first m)
      (hm : 0xd800 ≤ m ∧ m ≤ 0xdbff) (hsecond : CodeUnit second n) (hn : 0xdc00 ≤ n ∧ n ≤ 0xdfff) :
      Escape (0x75 :: (first ++ 0x5c :: 0x75 :: second))
        (Char.ofNat (0x10000 + (m - 0xd800) * 0x400 + (n - 0xdc00)))

/-- What stands between quotes, and the characters that it stands for. -/
inductive Spells : Bytes → List Char → Prop where
  /-- Nothing. -/
  | nil : Spells [] []
  /-- A character that stands for itself: no quote, no backslash, and no control character. -/
  | plain {c : Char} {rest : Bytes} {chars : List Char} (hquote : c ≠ '\x22') (hslash : c ≠ '\x5c')
      (hcontrol : 0x20 ≤ c.toNat) (hrest : Spells rest chars) :
      Spells (String.utf8EncodeChar c ++ rest) (c :: chars)
  /-- An escape. -/
  | escape {code rest : Bytes} {c : Char} {chars : List Char} (h : Escape code c)
      (hrest : Spells rest chars) :
      Spells (0x5c :: (code ++ rest)) (c :: chars)

/-- A text in quotes. -/
inductive Quoted : Bytes → String → Prop where
  /-- The quotes stand around it. -/
  | mk {inside : Bytes} {s : String} (h : Spells inside s.toList) :
      Quoted (0x22 :: (inside ++ [0x22])) s

/-! ### Values -/

/-- A value without brackets. -/
inductive Scalar : Bytes → Json → Prop where
  /-- The word for null. -/
  | null : Scalar [0x6e, 0x75, 0x6c, 0x6c] .null
  /-- The word for true. -/
  | true : Scalar [0x74, 0x72, 0x75, 0x65] (.bool true)
  /-- The word for false. -/
  | false : Scalar [0x66, 0x61, 0x6c, 0x73, 0x65] (.bool false)
  /-- A numeral that has a number. -/
  | number {n : Numeral} {v : Number} (h : n.value? = some v) : Scalar n.text (.number v)
  /-- A quoted text. -/
  | string {text : Bytes} {s : String} (h : Quoted text s) : Scalar text (.string s)

/-- A name and a value with a colon between them. -/
inductive Field (Inner : Bytes → Json → Prop) : Bytes → String × Json → Prop where
  /-- Blanks may stand around the colon. -/
  | mk {name before after text : Bytes} {s : String} {v : Json} (hname : Quoted name s)
      (hbefore : IsGap before) (hafter : IsGap after) (hvalue : Inner text v) :
      Field Inner (name ++ before ++ 0x3a :: (after ++ text)) (s, v)

/-- The fields of an object, set one after the other. -/
def gathered (fields : Fields) : Fields :=
  fields.foldl (fun done field => insertField field.1 field.2 done) []

/-- Brackets around values. -/
inductive Bracketed (Inner : Bytes → Json → Prop) : Bytes → Json → Prop where
  /-- A list without items. -/
  | emptyList {gap : Bytes} (h : IsGap gap) : Bracketed Inner (0x5b :: (gap ++ [0x5d])) (.array [])
  /-- A list. -/
  | list {text : Bytes} {values : List Json} (h : Joined Inner text values) :
      Bracketed Inner (0x5b :: (text ++ [0x5d])) (.array values)
  /-- An object without fields. -/
  | emptyObject {gap : Bytes} (h : IsGap gap) :
      Bracketed Inner (0x7b :: (gap ++ [0x7d])) (.object [])
  /-- An object. -/
  | object {text : Bytes} {fields : Fields} (h : Joined (Field Inner) text fields) :
      Bracketed Inner (0x7b :: (text ++ [0x7d])) (.object (gathered fields))

/-- A value in which at most `depth` brackets are open at once. -/
def Value : Nat → Bytes → Json → Prop
  | 0 => Scalar
  | depth + 1 => fun text v => Scalar text v ∨ Bracketed (Value depth) text v

/-- A value and nothing else, with at most `depth` brackets open at once. -/
def Document (depth : Nat) : Bytes → Json → Prop := Padded (Value depth)

end ApiClient.Json.Grammar
