import ApiClient.Unicode.Canonical

/-!
# ApiClient.Unicode.Normal

The composed form of texts: equivalent texts have the same.

Design points:

* A text is taken apart, its marks are put in order, and what can be composed is composed, from left
  to right.
* Syllables of the Korean script are composed by arithmetic, from a leading consonant, a vowel and a
  trailing consonant; everything else goes by tables.
-/

namespace ApiClient.Unicode.Normal

/-! ## Korean syllables -/

/-- The first syllable. The syllables are in the order of their consonants and vowels. -/
def firstSyllable : Nat := 0xac00

/-- The parts of a syllable, if the code point is one. -/
def syllableParts? (n : Nat) : Option (List Nat) :=
  if firstSyllable ≤ n && n < firstSyllable + 11172 then
    let i := n - firstSyllable
    let trailing := i % 28
    some ([0x1100 + i / 588, 0x1161 + i % 588 / 28] ++
      if trailing == 0 then [] else [0x11a7 + trailing])
  else none

/-- The syllable of two parts: a leading consonant and a vowel, or such a pair and a trailing
consonant. -/
def syllable? (a b : Nat) : Option Nat :=
  if 0x1100 ≤ a && a < 0x1113 && 0x1161 ≤ b && b < 0x1176 then
    some (firstSyllable + ((a - 0x1100) * 21 + (b - 0x1161)) * 28)
  else if firstSyllable ≤ a && a < firstSyllable + 11172 && (a - firstSyllable) % 28 == 0
      && 0x11a7 < b && b < 0x11c3 then some (a + (b - 0x11a7))
  else none

/-! ## Taking apart -/

/-- The parts of a code point, down to `depth` levels of composites. -/
def parts : Nat → Nat → List Nat
  | 0, n => [n]
  | depth + 1, n =>
    match syllableParts? n with
    | some l => l
    | none =>
      match decompositions.image? n with
      | some l => l
      | none =>
        match composites.image? n with
        | some (a :: rest) => parts depth a ++ rest
        | _ => [n]

/-- The greatest number of levels of composites. -/
def maxDepth : Nat := 4

/-- Puts a code point behind others, last one first: a mark goes in front of marks of a greater
class. -/
def putInOrder (n : Nat) : List Nat → List Nat
  | [] => [n]
  | m :: rest =>
    if 0 < combiningClass n && combiningClass n < combiningClass m then m :: putInOrder n rest
    else n :: m :: rest

/-- The parts of a text in order. -/
def decomposed (s : List Nat) : List Nat :=
  ((s.flatMap (parts maxDepth)).foldl (fun done n => putInOrder n done) []).reverse

/-! ## Composing -/

/-- The pairs that are composed, each with its composite. -/
def pairs : List ((Nat × Nat) × Nat) :=
  composites.rows.flatMap fun
    | .each first images => images.zipIdx.filterMap fun
      | ([a, b], i) => some ((a, b), first + i)
      | _ => none
    | .shift .. => []

/-- The composite of a pair. -/
def composite? (a b : Nat) : Option Nat := syllable? a b <|> pairs.lookup (a, b)

/-- Composes what follows a character that is no mark. `waiting` holds the marks behind it that did
not compose, last one first. A mark can be composed if no mark of its own class or a greater one is
in between. -/
def composeFrom (start : Nat) (waiting : List Nat) : List Nat → List Nat
  | [] => start :: waiting.reverse
  | n :: rest =>
    let isFree := match waiting with
      | [] => true
      | m :: _ => combiningClass m < combiningClass n
    match if isFree then composite? start n else none with
    | some c => composeFrom c waiting rest
    | none =>
      if combiningClass n == 0 then start :: waiting.reverse ++ composeFrom n [] rest
      else composeFrom start (n :: waiting) rest

/-- Composes a decomposed text. Marks in front of everything else stay as they are. -/
def compose : List Nat → List Nat
  | [] => []
  | n :: rest => if combiningClass n == 0 then composeFrom n [] rest else n :: compose rest

/-- The composed form of a text. A text in ASCII has no other form. -/
def composed (s : List Char) : List Char :=
  if s.all (·.toNat < 0x80) then s
  else (compose (decomposed (s.map Char.toNat))).map Char.ofNat

end ApiClient.Unicode.Normal
