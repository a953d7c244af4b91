/-!
# ApiClient.Url.Punycode

The ASCII form of a label with characters beyond ASCII: the ASCII characters as they are, then the
places and values of the others as variable-length numbers.

Design points:

* The code points are inserted in ascending order. `encodeFrom` recurses on their sorted list, so
  nothing has to search for the next smallest one.
* A difference is written in base 36 with a threshold for each digit that adapts to the differences
  before it.
* Reading takes at least one digit for each code point, so the digits left bound the steps.
-/

namespace ApiClient.Punycode

/-- The character of a digit: letters, then decimal digits. -/
def digitChar (d : Nat) : Char := if d < 26 then Char.ofNat (0x61 + d) else Char.ofNat (0x16 + d)

/-- The threshold of the digit at weight position `k`, between 1 and 26. -/
def threshold (k bias : Nat) : Nat := max 1 (min 26 (k - bias))

/-- Divides a difference by 35 until it is at most 455, counting the digits this stands for. -/
def shrink : Nat → Nat → Nat → Nat × Nat
  | 0, delta, k => (delta, k)
  | fuel + 1, delta, k => if delta > 455 then shrink fuel (delta / 35) (k + 36) else (delta, k)

/-- The bias after a difference, when `points` code points are placed. -/
def adapt (delta points : Nat) (first : Bool) : Nat :=
  let damped := if first then delta / 700 else delta / 2
  let delta := damped + damped / points
  let (rest, k) := shrink delta delta 0
  k + 36 * rest / (rest + 38)

/-- The digits of a difference from weight position `k` on. Each digit makes it smaller, so it
bounds their number. -/
def digits (bias : Nat) : Nat → Nat → Nat → List Char
  | 0, _, q => [digitChar q]
  | fuel + 1, k, q =>
    let t := threshold k bias
    if q < t then [digitChar q]
    else digitChar (t + (q - t) % (36 - t)) :: digits bias fuel (k + 36) ((q - t) / (36 - t))

/-- What was written so far. -/
structure State where
  /-- The characters written, last first. -/
  written : List Char
  /-- The difference since the last code point. -/
  delta : Nat
  /-- The current bias. -/
  bias : Nat
  /-- How many code points are placed. -/
  placed : Nat

/-- Passes one character of the label while code point `m` is placed. -/
def place (basic m : Nat) (s : State) (c : Char) : State :=
  if c.toNat < m then { s with delta := s.delta + 1 }
  else if c.toNat == m then
    { written := (digits s.bias s.delta 36 s.delta).reverse ++ s.written
      delta := 0
      bias := adapt s.delta (s.placed + 1) (s.placed == basic)
      placed := s.placed + 1 }
  else s

/-- Places code points in ascending order; `least` is the smallest that may come next. -/
def encodeFrom (label : List Char) (basic : Nat) : List Nat → Nat → State → State
  | [], _, s => s
  | m :: rest, least, s =>
    let s := { s with delta := s.delta + (m - least) * (s.placed + 1) }
    let s := label.foldl (place basic m) s
    encodeFrom label basic rest (m + 1) { s with delta := s.delta + 1 }

/-- Puts a number into an ascending list without repetitions. -/
def insertAscending (n : Nat) : List Nat → List Nat
  | [] => [n]
  | m :: rest =>
    if n < m then n :: m :: rest
    else if n == m then m :: rest
    else m :: insertAscending n rest

/-- The ASCII form of a label, without a mark that it is one. -/
def encode (label : List Char) : List Char :=
  let basic := label.filter (·.toNat < 0x80)
  let others := (label.map (·.toNat)).filter (0x80 ≤ ·)
  let ascending := others.foldl (fun l n => insertAscending n l) []
  let start := if basic.isEmpty then [] else '-' :: basic.reverse
  (encodeFrom label basic.length ascending 0x80 ⟨start, 0, 72, basic.length⟩).written.reverse

/-! ## What is written -/

theorem one_le_threshold (k bias : Nat) : 1 ≤ threshold k bias := Nat.le_max_left ..

theorem threshold_le (k bias : Nat) : threshold k bias ≤ 26 := by
  rw [threshold]
  omega

/-- A property of digits below 36 holds of every digit that is written. -/
theorem forall_mem_digits {p : Char → Prop} (hdigit : ∀ d < 36, p (digitChar d)) (bias : Nat)
    {fuel k q : Nat} (hq : q ≤ fuel) : ∀ c ∈ digits bias fuel k q, p c := by
  have hlow := one_le_threshold k bias
  have hhigh := threshold_le k bias
  induction fuel generalizing k q with
  | zero =>
      rw [digits]
      exact List.forall_mem_singleton.2 (hdigit q (by omega))
  | succ fuel ih =>
      rw [digits]
      split
      · exact List.forall_mem_singleton.2 (hdigit q (by omega))
      · have hmod := Nat.mod_lt (q - threshold k bias) (show 36 - threshold k bias > 0 by omega)
        refine List.forall_mem_cons.2 ⟨hdigit _ (by omega), ?_⟩
        have hle := Nat.div_le_self (q - threshold k bias) (36 - threshold k bias)
        exact ih (by omega) (one_le_threshold ..) (threshold_le ..)

/-- What is written stays within a property of hyphens, digits and the label's own characters. -/
theorem forall_mem_place {p : Char → Prop} (hdigit : ∀ d < 36, p (digitChar d)) {basic m : Nat}
    {s : State} (hs : ∀ c ∈ s.written, p c) (c : Char) :
    ∀ d ∈ (place basic m s c).written, p d := by
  rw [place]
  split
  · exact hs
  · split
    · refine List.forall_mem_append.2 ⟨fun d hd => ?_, hs⟩
      exact forall_mem_digits hdigit s.bias (Nat.le_refl _) d (List.mem_reverse.1 hd)
    · exact hs

theorem forall_mem_foldl_place {p : Char → Prop} (hdigit : ∀ d < 36, p (digitChar d))
    {basic m : Nat} (label : List Char) {s : State} (hs : ∀ c ∈ s.written, p c) :
    ∀ d ∈ (label.foldl (place basic m) s).written, p d := by
  induction label generalizing s with
  | nil => exact hs
  | cons c label ih => exact ih (forall_mem_place hdigit hs c)

theorem forall_mem_encodeFrom {p : Char → Prop} (hdigit : ∀ d < 36, p (digitChar d))
    {label : List Char} {basic : Nat} {points : List Nat} {least : Nat} {s : State}
    (hs : ∀ c ∈ s.written, p c) : ∀ c ∈ (encodeFrom label basic points least s).written, p c := by
  induction points generalizing least s with
  | nil => exact hs
  | cons m points ih => exact ih (forall_mem_foldl_place hdigit label hs)

/-- The ASCII form of a label has its ASCII characters, hyphens and digits. -/
theorem forall_mem_encode {p : Char → Prop} {label : List Char} (hlabel : ∀ c ∈ label, p c)
    (hhyphen : p '-') (hdigit : ∀ d < 36, p (digitChar d)) : ∀ c ∈ encode label, p c := by
  intro c hc
  refine forall_mem_encodeFrom hdigit ?_ c (List.mem_reverse.1 hc)
  dsimp only
  split
  · simp
  · refine List.forall_mem_cons.2 ⟨hhyphen, fun d hd => ?_⟩
    exact hlabel d (List.mem_filter.1 (List.mem_reverse.1 hd)).1

/-! ## Reading -/

/-- The value of a digit. -/
def digitValue? (c : Char) : Option Nat :=
  let n := c.toNat
  if 0x61 ≤ n && n ≤ 0x7a then some (n - 0x61)
  else if 0x30 ≤ n && n ≤ 0x39 then some (n - 0x16)
  else none

/-- Reads a difference off its digits: the difference, and the digits behind it. `weight` is the
weight of the next digit. -/
def readDigits (bias : Nat) : List Char → Nat → Nat → Nat → Option (Nat × List Char)
  | [], _, _, _ => none
  | c :: rest, k, weight, sum => do
    let d ← digitValue? c
    let sum := sum + d * weight
    if d < threshold k bias then some (sum, rest)
    else readDigits bias rest (k + 36) (weight * (36 - threshold k bias)) sum

theorem length_lt_of_readDigits {bias : Nat} {s rest : List Char} {k weight sum total : Nat}
    (h : readDigits bias s k weight sum = some (total, rest)) : rest.length < s.length := by
  induction s generalizing k weight sum with
  | nil => simp [readDigits] at h
  | cons c s ih =>
    rw [readDigits] at h
    cases hd : digitValue? c with
    | none => simp [hd] at h
    | some d =>
      simp only [hd, Option.bind_eq_bind, Option.bind_some] at h
      split at h
      · simp only [Option.some.injEq, Prod.mk.injEq] at h
        simp [h.2]
      · have := ih h
        simp only [List.length_cons]
        omega

/-- Puts the code points that digits stand for into a label, from code point `least` and from
`place` on, which is zero only for the first of them. There is no label if a value is no
character. -/
def decodeFrom (bias least place : Nat) (label : List Char) (s : List Char) : Option (List Char) :=
  match s with
  | [] => some label
  | c :: rest =>
    match _h : readDigits bias (c :: rest) 36 1 0 with
    | none => none
    | some (delta, unread) =>
      let points := label.length + 1
      let sum := place + delta
      let n := least + sum / points
      if n.isValidChar then
        decodeFrom (adapt delta points (place == 0)) n (sum % points + 1)
          (label.insertIdx (sum % points) (Char.ofNat n)) unread
      else none
termination_by s.length
decreasing_by
  have := length_lt_of_readDigits _h
  simpa using this

/-- The label of an ASCII form. The ASCII characters stand in front of the last hyphen, if there are
any. -/
def decode (s : List Char) : Option (List Char) :=
  let digits := (s.reverse.takeWhile (· != '-')).reverse
  let basic := s.take (s.length - digits.length - 1)
  if digits.length < s.length && basic.isEmpty then none else decodeFrom 72 0x80 0 basic digits

end ApiClient.Punycode
