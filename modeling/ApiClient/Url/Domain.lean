import ApiClient.Unicode.Direction
import ApiClient.Unicode.Joining
import ApiClient.Url.Domain.Mapping
import ApiClient.Url.Punycode

/-!
# ApiClient.Url.Domain

Domains in ASCII.

Design points:

* A domain is compared in its folded form and cut into labels at its dots. A label beyond ASCII is
  written with a mark and its ASCII form.
* A label that has the mark must be the ASCII form of a label that folding leaves as it is. So each
  label has one written form.
* A label does not start with a mark on a character, and a joiner stands only where it shows. Where
  a character of a domain is written from right to left, no label mixes directions in a way that
  lets its characters leave their places.
-/

namespace ApiClient.Domain

open Unicode

/-! ## Joiners -/

/-- Whether letters in front of a place, last one first, join what follows it. -/
def joinsNext : List Char → Bool
  | [] => false
  | c :: rest =>
    if isPassedOver c then joinsNext rest else joinsBoth.contains c || joinsBehind.contains c

/-- Whether letters behind a place join what is in front of it. -/
def joinsPrevious : List Char → Bool
  | [] => false
  | c :: rest =>
    if isPassedOver c then joinsPrevious rest else joinsBoth.contains c || joinsBefore.contains c

/-- Whether each joiner has an effect: behind a virama, or, for the one that separates, between
letters that join. `done` holds the characters before the place, last one first. -/
def joinersFit : List Char → List Char → Bool
  | _, [] => true
  | done, c :: rest =>
    let fits := !isJoiner c || (done.head?.any isVirama)
      || (c.toNat == 0x200c && joinsNext done && joinsPrevious rest)
    fits && joinersFit (c :: done) rest

/-! ## Directions -/

/-- Whether a direction makes a domain one whose labels must not mix directions. -/
def Direction.isRight : Direction → Bool
  | .rightToLeft | .arabicNumber => true
  | _ => false

/-- Whether the directions of a label fit together. The first is that of a letter, and the label is
of that direction. It ends with a letter or a digit, perhaps with marks behind it; digits of both
kinds do not meet in a label from right to left. -/
def directionsFit (label : List Direction) : Bool :=
  let last := (label.reverse.dropWhile (· == .mark)).head?
  match label.head? with
  | none => true
  | some .leftToRight =>
    label.all (fun d => d == .leftToRight || d == .europeanNumber || d == .neutral || d == .mark)
      && (last == some .leftToRight || last == some .europeanNumber)
  | some .rightToLeft =>
    label.all (· != .leftToRight)
      && (last == some .rightToLeft || last == some .europeanNumber || last == some .arabicNumber)
      && !(label.contains .europeanNumber && label.contains .arabicNumber)
  | some _ => false

/-! ## Labels -/

/-- The mark of a label's ASCII form. -/
def asciiMark : List Char := ['x', 'n', '-', '-']

/-- The greatest number of characters of a label beyond ASCII. -/
def maxLabel : Nat := 1000

/-- The greatest number of characters of an ASCII form behind its mark. -/
def maxAsciiForm : Nat := 2000

/-- Whether a label beyond ASCII may stand in a domain, its directions apart. -/
def isLabel (label : List Char) : Bool :=
  label.all isAllowed && !label.head?.any isMark && joinersFit [] label

/-- A label of a folded domain: its characters, and how it is written. -/
structure Label where
  /-- The characters. -/
  chars : List Char
  /-- The form in ASCII. -/
  ascii : List Char

/-- The label that an ASCII form stands for. Its last character is no hyphen, because then all its
characters were ASCII and it would stand for itself. -/
def labelOfAscii? (form : List Char) : Option Label := do
  if form.length > maxAsciiForm || form.getLast? == some '-' then none
  let chars ← Punycode.decode form
  if chars.all (·.toNat < 0x80) || fold chars != chars || !isLabel chars then none
  some ⟨chars, asciiMark ++ form⟩

/-- The label of folded characters. -/
def label? (chars : List Char) : Option Label :=
  if asciiMark.isPrefixOf chars then
    if chars.all (·.toNat < 0x80) then labelOfAscii? (chars.drop asciiMark.length) else none
  else if chars.all (·.toNat < 0x80) then some ⟨chars, chars⟩
  else if isLabel chars && chars.length ≤ maxLabel then
    some ⟨chars, asciiMark ++ Punycode.encode chars⟩
  else none

/-! ## Domains -/

/-- An ASCII character that no domain has. -/
def isForbidden (c : Char) : Bool :=
  c.toNat ≤ 0x20 || c.toNat == 0x7f || "%#/:<>?@[\\]^|".toList.contains c

/-- A domain in ASCII, if it has an ASCII form. -/
def ascii? (s : List Char) : Option (List Char) := do
  let folded := fold s
  if folded.any isForbidden then none
  let labels ← (Pieces.cut '.' folded).mapM label?
  let directions := labels.map fun l => l.chars.map direction
  if directions.any (·.any Direction.isRight) && !directions.all directionsFit then none
  some (List.intercalate ['.'] (labels.map (·.ascii)))

end ApiClient.Domain
