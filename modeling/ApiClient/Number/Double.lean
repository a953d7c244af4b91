import ApiClient.Text.Bytes

/-!
# ApiClient.Number.Double

Binary floating-point numbers of 64 bits, read from decimals and written with the fewest digits.

Design points:

* A number is its bits, so equality is decidable and two zeros stay apart.
* Rounding is exact arithmetic on naturals: the bits nearest to a quotient, a tie to the even
  neighbour. A number that is not finite has no bits here; reading refuses what is too great.
* A decimal is read by rounding its digits and then moving them, which rounds once more. So a
  decimal of at most 15 digits and 22 places is read as the nearest number, and any other one may be
  read as a neighbour of the nearest number.
* The digits are selected by exact arithmetic on naturals: the decimals that read back to a value
  form an interval around it, and the shortest decimal of that interval is searched digit count by
  digit count, the nearer of two hits first, an exact tie to the even digit.
-/

namespace ApiClient

/-- A 64-bit binary floating-point number. -/
structure Double where
  /-- Sign, exponent and fraction. -/
  bits : UInt64
deriving Repr, DecidableEq

namespace Double

/-- Whether the sign bit is set. -/
def isNegative (d : Double) : Bool := d.bits >>> 63 == 1

/-- The number with its sign bit set. -/
def negate (d : Double) : Double := ⟨d.bits ||| 0x8000000000000000⟩

/-- The magnitude of a finite number, `mantissa * 2 ^ exponent`. -/
structure Magnitude where
  /-- The integer part of the product. -/
  mantissa : Nat
  /-- The power of two. -/
  exponent : Int
  /-- Whether the neighbour below is half as far away as the neighbour above. -/
  narrowBelow : Bool

/-- The magnitude that the bits of a finite number stand for. -/
def magnitude (d : Double) : Magnitude :=
  let e := ((d.bits >>> 52) &&& 0x7ff).toNat
  let f := (d.bits &&& 0xfffffffffffff).toNat
  if e == 0 then ⟨f, -1074, false⟩ else ⟨0x10000000000000 + f, (e : Int) - 1075, f == 0 && e > 1⟩

/-! ## Rounding -/

/-- The bits of the finite number nearest to `num / den`, or `none` beyond the greatest one; a tie
goes to the even neighbour. The unit of the last place is the least one in which the quotient has at
most 53 binary digits, but never less than the least number. A quotient that rounds up to 54 digits
carries into the exponent, and that gives the next power of two. -/
def nearestBits? (num den : Nat) : Option Nat :=
  let low : Int := (num.log2 : Int) - den.log2 - 53
  let isLow := num * Nat.pow 2 (-low).toNat < den * Nat.pow 2 low.toNat * 0x20000000000000
  let unit := max (-1074) (if isLow then low else low + 1)
  let n := num * Nat.pow 2 (-unit).toNat
  let d := den * Nat.pow 2 unit.toNat
  let remainder := 2 * (n % d)
  let up := remainder > d || (remainder == d && n / d % 2 == 1)
  let bits := (if up then n / d + 1 else n / d) + (unit + 1074).toNat * 0x10000000000000
  if bits < 0x7ff0000000000000 then some bits else none

/-- The number nearest to `num / den`, or `none` beyond the greatest one. -/
def ofRatio? (num den : Nat) : Option Double :=
  if num == 0 then some ⟨0⟩ else (nearestBits? num den).map fun bits => ⟨bits.toUInt64⟩

/-- The product of two magnitudes, rounded. -/
def times? (a b : Double) : Option Double :=
  let x := a.magnitude
  let y := b.magnitude
  let e := x.exponent + y.exponent
  ofRatio? (x.mantissa * y.mantissa * Nat.pow 2 e.toNat) (Nat.pow 2 (-e).toNat)

/-- The quotient of two magnitudes, rounded. -/
def over? (a b : Double) : Option Double :=
  let x := a.magnitude
  let y := b.magnitude
  let e := x.exponent - y.exponent
  ofRatio? (x.mantissa * Nat.pow 2 e.toNat) (y.mantissa * Nat.pow 2 (-e).toNat)

/-! ## Decimals -/

/-- The number nearest to a power of ten below the greatest finite number. -/
def tenPow (n : Nat) : Double := (ofRatio? (Nat.pow 10 n) 1).getD ⟨0⟩

/-- The greatest power of ten that is finite. -/
def maxTenPow : Nat := 308

/-- A magnitude divided by the greatest power of ten again and again, until it is zero. -/
def descend : Nat → Double → Double
  | 0, d => d
  | steps + 1, d => if d.bits == 0 then d else descend steps ((d.over? (tenPow maxTenPow)).getD d)

/-- A magnitude moved by decimal places: one product or quotient with a power of ten, as far as such
a power is finite. What is moved up further is zero or too great; what is moved down further takes
more than one quotient. -/
def shift? (d : Double) (places : Int) : Option Double :=
  let n := places.natAbs
  if places < 0 then
    let steps := (n - 1) / maxTenPow
    (descend steps d).over? (tenPow (n - steps * maxTenPow))
  else if n ≤ maxTenPow then d.times? (tenPow n)
  else if d.bits == 0 then some d
  else none

/-- The number that `digits * 10 ^ scale` is read as: the digits are rounded, then moved, and
rounded again. -/
def ofDigits? (digits : Nat) (scale : Int) : Option Double :=
  (ofRatio? digits 1).bind (·.shift? scale)

/-- The decimal `digits * 10 ^ exponent`. -/
structure Decimal where
  /-- The digits as one number. -/
  digits : Nat
  /-- The power of ten. -/
  exponent : Int
deriving Repr, DecidableEq

/-- Compares `a * 10 ^ i` with `n * 2 ^ j`, exactly. -/
def compareScaled (a : Nat) (i : Int) (n : Nat) (j : Int) : Ordering :=
  compare (a * Nat.pow 10 i.toNat * Nat.pow 2 (-j).toNat)
    (n * Nat.pow 2 j.toNat * Nat.pow 10 (-i).toNat)

/-- Whether a decimal lies among the reals that round to the magnitude. -/
def Magnitude.readsBack (x : Magnitude) (d : Decimal) : Bool :=
  let low := if x.narrowBelow then 4 * x.mantissa - 1 else 4 * x.mantissa - 2
  let high := 4 * x.mantissa + 2
  let closed := x.mantissa % 2 == 0
  let fromLow := compareScaled d.digits d.exponent low (x.exponent - 2)
  let fromHigh := compareScaled d.digits d.exponent high (x.exponent - 2)
  (fromLow == .gt || (closed && fromLow == .eq)) && (fromHigh == .lt || (closed && fromHigh == .eq))

/-- The integer part of the magnitude divided by `10 ^ k`. -/
def Magnitude.floorAt (x : Magnitude) (k : Int) : Nat :=
  (x.mantissa * Nat.pow 2 x.exponent.toNat * Nat.pow 10 (-k).toNat)
    / (Nat.pow 10 k.toNat * Nat.pow 2 (-x.exponent).toNat)

/-- Raises a first guess until `10 ^ k` exceeds the magnitude, within `fuel` steps. -/
def Magnitude.scaleFrom (x : Magnitude) : Nat → Int → Int
  | 0, k => k
  | fuel + 1, k =>
    if compareScaled 1 k x.mantissa x.exponent == .gt then k else x.scaleFrom fuel (k + 1)

/-- The least `k` with the magnitude below `10 ^ k`. The guess divides the binary logarithm by
slightly more than the binary logarithm of ten, so it is never too great. -/
def Magnitude.scale (x : Magnitude) : Int :=
  let binary : Int := x.mantissa.log2 + x.exponent
  x.scaleFrom 4 (Int.fdiv (binary * 30103) 100000 - 1)

/-- The decimal of `n` digits nearest to the magnitude among those that read back. -/
def Magnitude.candidate? (x : Magnitude) (scale : Int) (n : Nat) : Option Decimal :=
  let k := scale - n
  let below := x.floorAt k
  match x.readsBack ⟨below, k⟩, x.readsBack ⟨below + 1, k⟩ with
  | true, false => some ⟨below, k⟩
  | false, true => some ⟨below + 1, k⟩
  | false, false => none
  | true, true =>
    match compareScaled (2 * below + 1) k (2 * x.mantissa) x.exponent with
    | .lt => some ⟨below + 1, k⟩
    | .gt => some ⟨below, k⟩
    | .eq => some (if below % 2 == 0 then ⟨below, k⟩ else ⟨below + 1, k⟩)

/-- Moves factors of ten from the digits into the exponent, at most `fuel` of them. -/
def Decimal.strip : Nat → Decimal → Decimal
  | 0, d => d
  | fuel + 1, d =>
    if d.digits != 0 && d.digits % 10 == 0 then Decimal.strip fuel ⟨d.digits / 10, d.exponent + 1⟩
    else d

/-- The shortest decimal that reads back to a magnitude other than zero; seventeen digits
suffice. -/
def Magnitude.shortest (x : Magnitude) : Decimal :=
  let scale := x.scale
  let found := (List.range 17).findSome? fun n => x.candidate? scale (n + 1)
  (found.getD ⟨x.floorAt (scale - 17), scale - 17⟩).strip 20

/-- Lays out a decimal: with a point between 10⁻⁵ and 10¹⁶, otherwise with an exponent whose sign is
always written when it is positive. -/
def Decimal.layout (d : Decimal) : String :=
  let digits := Nat.toDigits 10 d.digits
  let width : Int := digits.length
  let point : Int := width + d.exponent
  let zeros (n : Int) := List.replicate n.toNat '0'
  if 0 < point && point ≤ 16 then
    if d.exponent ≥ 0 then String.ofList (digits ++ zeros d.exponent) ++ ".0"
    else String.ofList (digits.take point.toNat ++ '.' :: digits.drop point.toNat)
  else if -5 < point && point ≤ 0 then
    "0." ++ String.ofList (zeros (-point) ++ digits)
  else
    let power := point - 1
    let sign := if power < 0 then "-" else "+"
    let head := digits.take 1
    let tail := digits.drop 1
    String.ofList head ++ (if tail.isEmpty then "" else "." ++ String.ofList tail)
      ++ "e" ++ sign ++ toString power.natAbs

/-- The text of a finite number. -/
def render (d : Double) : String :=
  let x := d.magnitude
  let sign := if d.isNegative then "-" else ""
  if x.mantissa == 0 then sign ++ "0.0" else sign ++ x.shortest.layout

end Double

end ApiClient
