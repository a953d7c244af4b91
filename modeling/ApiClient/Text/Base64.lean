import ApiClient.Text.Bytes

/-!
# ApiClient.Text.Base64

Bytes as text of sixty-four characters: three bytes become four characters, and the last group is
filled up with `=`.
-/

namespace ApiClient.Base64

/-- The characters, in the order of their values. -/
def alphabet : List Char :=
  "ABCDEFGHIJKLMNOPQRSTUVWXYZabcdefghijklmnopqrstuvwxyz0123456789+/".toList

/-- The character of a value below sixty-four. -/
def digit (n : Nat) : Char := alphabet.getD (n % 64) '='

/-- The text of bytes. -/
def encode : Bytes → List Char
  | a :: b :: c :: rest =>
    let n := 65536 * a.toNat + 256 * b.toNat + c.toNat
    digit (n / 262144) :: digit (n / 4096) :: digit (n / 64) :: digit n :: encode rest
  | [a, b] =>
    let n := 1024 * a.toNat + 4 * b.toNat
    [digit (n / 4096), digit (n / 64), digit n, '=']
  | [a] =>
    let n := 16 * a.toNat
    [digit (n / 64), digit n, '=', '=']
  | [] => []

/-- The text of a text's bytes. -/
def ofText (s : String) : String := String.ofList (encode (Bytes.ofText s))

end ApiClient.Base64
