import ApiClient.Codec.Basic

/-!
# ApiClient.Codec.Text

The codec of plain text. It decodes every media type into a text, and encodes a text as whatever
media type is declared, forms apart.
-/

namespace ApiClient.Codec

/-- The text of a value that is one. -/
def textOf : Json → String
  | .string s => s
  | _ => ""

/-- The codec of plain text. -/
def text : Codec where
  name := "StringCodec"
  canRead target _ := match target.shape with
    | .text => true
    | _ => false
  canWrite value declared := value.isString && !declared.any MediaType.isForm
  read body _ := match Utf8.decode body with
    | .ok s => .ok (some (.string s))
    | .error fault => .error (.utf8 fault)
  write value declared _ :=
    .ok ⟨Bytes.ofText (textOf value), declared.getD MediaType.plainText⟩

end ApiClient.Codec
