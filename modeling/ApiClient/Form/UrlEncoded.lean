import ApiClient.Text.Percent
import ApiClient.Text.Utf8

/-!
# ApiClient.Form.UrlEncoded

Forms in the format of a query: `name=value` pairs between ampersands.

Design points:

* Writing keeps letters, digits and `*-._`, turns a space into `+` and encodes every other byte.
* Reading accepts every byte string. Empty pieces between ampersands are no pairs, a piece without
  `=` is a name with an empty value, and ill-formed UTF-8 is replaced.
-/

namespace ApiClient.UrlEncoded

/-- The bytes that stand for themselves. -/
def keeps (b : UInt8) : Bool :=
  Ascii.isAlphanumeric b || b == 0x2a || b == 0x2d || b == 0x2e || b == 0x5f

/-- A byte of a name or a value as it is written. -/
def encodeByte (b : UInt8) : Bytes :=
  if keeps b then [b]
  else if b == 0x20 then [0x2b]
  else [0x25, Ascii.hexDigit (b.toNat / 16), Ascii.hexDigit (b.toNat % 16)]

/-- A name or a value as it is written. -/
def encode (s : String) : Bytes := (Bytes.ofText s).flatMap encodeByte

/-- A pair as it is written. -/
def encodePair (pair : String × String) : Bytes := encode pair.1 ++ 0x3d :: encode pair.2

/-- The written form of pairs. -/
def write (pairs : List (String × String)) : Bytes :=
  List.intercalate [0x26] (pairs.map encodePair)

/-- The text that a written name or value stands for. -/
def decode (written : Bytes) : String :=
  Utf8.decodeLossy (Percent.decode (written.map fun b => if b == 0x2b then 0x20 else b))

/-- The pair that a written piece stands for. -/
def decodePair (piece : Bytes) : String × String :=
  let (name, value) := Bytes.splitBefore (· == 0x3d) piece
  (decode name, decode (value.drop 1))

/-- The pairs of a written form. -/
def read (written : Bytes) : List (String × String) :=
  ((Bytes.splitOn 0x26 written).filter (!·.isEmpty)).map decodePair

end ApiClient.UrlEncoded
