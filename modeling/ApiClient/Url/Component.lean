import ApiClient.Url.Basic

/-!
# ApiClient.Url.Component

The components of a URL: where they end, and which bytes stand for themselves in them.

Design points:

* A component is encoded with its own class of bytes: a byte outside the class becomes a triplet. A
  `%` is in every class, so what is encoded already stays as it is.
* A fragment starts at the first `#`, and a query at the first `?` in front of it.
-/

namespace ApiClient.Url

/-! ## Classes of bytes that stand for themselves -/

/-- A visible ASCII byte outside the given characters. -/
def keepsBut (excluded : String) (b : UInt8) : Bool :=
  !Ascii.isControl b && b < 0x80 && !(Bytes.ofText excluded).contains b

/-- The bytes of a fragment. -/
def keepsInFragment : UInt8 → Bool := keepsBut " \"<>\x60"

/-- The bytes of a query in a scheme without rules for hosts. -/
def keepsInQuery : UInt8 → Bool := keepsBut " \"#<>"

/-- The bytes of a query in a scheme with rules for hosts. -/
def keepsInSpecialQuery : UInt8 → Bool := keepsBut " \"#<>'"

/-- The bytes of a path. -/
def keepsInPath : UInt8 → Bool := keepsBut " \"<>\x60#?\x7b\x7d"

/-- The bytes of a path without structure. -/
def keepsInFlatPath : UInt8 → Bool := keepsBut ""

/-- The bytes of a user name or a password. -/
def keepsInUser : UInt8 → Bool := keepsBut " \"<>\x60#?\x7b\x7d/:;=@[\\]^|"

/-- A component in its encoded form. -/
def encodeChars (keeps : UInt8 → Bool) (s : List Char) : String :=
  Percent.encodeText keeps (String.ofList s)

/-! ## What follows the authority -/

/-- What stands behind the authority of a URL, as it was written. -/
structure Tail where
  /-- The path. -/
  path : List Char
  /-- The query, without its mark. -/
  query : Option (List Char)
  /-- The fragment, without its mark. -/
  fragment : Option (List Char)
deriving Repr, DecidableEq

/-- Splits a text into path, query and fragment. -/
def Tail.ofChars (s : List Char) : Tail :=
  let (front, fragment) := s.span (· != '#')
  let (path, query) := front.span (· != '?')
  { path
    query := if query.isEmpty then none else some (query.drop 1)
    fragment := if fragment.isEmpty then none else some (fragment.drop 1) }

/-- Whether a tail holds no character at all. -/
def Tail.isEmpty (t : Tail) : Bool := t.path.isEmpty && t.query.isNone && t.fragment.isNone

/-- The query in its encoded form. -/
def Tail.queryText (t : Tail) (special : Bool) : Option String :=
  t.query.map (encodeChars (if special then keepsInSpecialQuery else keepsInQuery))

/-- The fragment in its encoded form. -/
def Tail.fragmentText (t : Tail) : Option String := t.fragment.map (encodeChars keepsInFragment)

/-- A URL with the query and the fragment of a tail. -/
def withTail (u : Url) (t : Tail) : Url :=
  { u with query := t.queryText (isSpecialScheme u.scheme), fragment := t.fragmentText }

/-! ## Marks -/

/-- Whether a character separates segments. In a scheme with rules for hosts a backslash does,
too. -/
def isSlash (special : Bool) (c : Char) : Bool := c == '/' || (special && c == '\x5c')

/-- Drops what may stand around and inside a URL without a meaning. -/
def clean (s : String) : List Char :=
  let isEdge (c : Char) : Bool := c.toNat ≤ 0x20
  let inner := ((s.toList.dropWhile isEdge).reverse.dropWhile isEdge).reverse
  inner.filter fun c => c != '\t' && c != '\n' && c != '\r'

/-- Splits off a scheme and its colon. -/
def splitUrlScheme (s : List Char) : Option (String × List Char) :=
  let isSchemeChar (c : Char) : Bool := c.isAlphanum || c == '+' || c == '-' || c == '.'
  match s.span isSchemeChar with
  | (c :: scheme, ':' :: rest) =>
    if c.isAlpha then some (String.ofList ((c :: scheme).map Char.toLower), rest) else none
  | _ => none

end ApiClient.Url
