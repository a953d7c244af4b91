import ApiClient.Text.Bytes
import ApiClient.Text.Pieces

/-!
# ApiClient.Unicode.Table

Properties of characters as tables.

Design points:

* A set of code points is a list of closed ranges, and a map of code points to texts a list of rows.
  Both are written as lines of tokens with blanks between them, and all numbers in them are
  hexadecimal.
* A token of a set is `a` or `a-b`. A token of a map is `a-b>t`, a range that is moved as a whole so
  that `a` comes to `t`; `a-b/2>t`, the same for every second member of the range; or `a>t,u.v,…`,
  the images of `a` and of the code points behind it, one after another.
* A look-up takes the first row that has the code point.
-/

namespace ApiClient.Unicode

/-- The value of hexadecimal digits. -/
def hexNumber (digits : List Char) : Nat :=
  digits.foldl (fun n c => 16 * n + (Ascii.hexValue? (Ascii.byte c)).getD 0) 0

/-- The tokens of lines. -/
def tokens (lines : List String) : List (List Char) :=
  lines.flatMap fun line => Pieces.cut ' ' line.toList

/-- A text in front of a mark and behind it; without the mark, nothing is behind it. -/
def splitMark (mark : Char) (s : List Char) : List Char × List Char :=
  let (front, rest) := s.span (· != mark)
  (front, rest.drop 1)

/-! ## Sets -/

/-- A set of code points, as closed ranges. -/
structure CodeSet where
  /-- The ranges. -/
  ranges : List (Nat × Nat)

namespace CodeSet

/-- The range that a token stands for. -/
def range (token : List Char) : Nat × Nat :=
  let (first, last) := splitMark '-' token
  (hexNumber first, if last.isEmpty then hexNumber first else hexNumber last)

/-- The set that lines of tokens stand for. -/
def ofLines (lines : List String) : CodeSet := ⟨(tokens lines).map range⟩

/-- Whether a character is in the set. -/
def contains (s : CodeSet) (c : Char) : Bool :=
  s.ranges.any fun r => r.1 ≤ c.toNat && c.toNat ≤ r.2

end CodeSet

/-! ## Maps -/

/-- A row of a map. -/
inductive Row where
  /-- Every `step`-th code point from `first` to `last`, moved by the distance of `first` to
  `image`. -/
  | shift (first last step image : Nat)
  /-- The code points from `first` on, each with an image of its own. -/
  | each (first : Nat) (images : List (List Nat))

/-- The image of a code point, if the row has it. -/
def Row.image? (n : Nat) : Row → Option (List Nat)
  | shift first last step image =>
    if first ≤ n && n ≤ last && (n - first) % step == 0 then some [image + (n - first)] else none
  | each first images => if first ≤ n then images[n - first]? else none

/-- The row that a token stands for. -/
def Row.ofToken (token : List Char) : Row :=
  let (key, image) := splitMark '>' token
  let (first, last) := splitMark '-' key
  if last.isEmpty then
    each (hexNumber first) ((Pieces.cut ',' image).map fun i => (Pieces.cut '.' i).map hexNumber)
  else
    let (last, step) := splitMark '/' last
    shift (hexNumber first) (hexNumber last) (if step.isEmpty then 1 else hexNumber step)
      (hexNumber image)

/-- A map of code points to texts. -/
structure CodeMap where
  /-- The rows. -/
  rows : List Row

namespace CodeMap

/-- The map that lines of tokens stand for. -/
def ofLines (lines : List String) : CodeMap := ⟨(tokens lines).map Row.ofToken⟩

/-- The image of a code point, if the map has one. -/
def image? (m : CodeMap) (n : Nat) : Option (List Nat) := m.rows.findSome? (·.image? n)

end CodeMap

end ApiClient.Unicode
