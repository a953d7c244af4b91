import ApiClient.Proofs.QuotedText
import ApiClient.Proofs.ShortestDecimal
import Mathlib.Data.Nat.Digits.Lemmas

/-!
# ApiClient.Proofs.JsonNumbers

How written numbers are read.

An integer of 64 bits comes back as it is. A decimal is laid out in four ways, and its reader
collects the digits in front of and behind the point into one number and counts the places. With
three of the layouts that gives the decimal itself. A great decimal without decimals is written with
zeros and with `.0` behind them, and then all of these are digits too (`Decimal.asRead`).

What is read ends in front of anything that cannot go on with a number (`EndsNumber`).
-/

namespace ApiClient

open Bytes Double

namespace Json

/-! ### Runs of digits -/

/-- The characters are decimal digits. -/
def AreDigits (digits : List Char) : Prop := ∀ c ∈ digits, c.isDigit = true

theorem isDigit_bounds {c : Char} (h : c.isDigit = true) : 0x30 ≤ c.toNat ∧ c.toNat ≤ 0x39 := by
  simpa [Char.isDigit, UInt32.le_iff_toNat_le] using h

theorem isDigit_byte {c : Char} (h : c.isDigit = true) : Ascii.isDigit (Ascii.byte c) = true := by
  obtain ⟨hlow, hhigh⟩ := isDigit_bounds h
  have hbyte := Ascii.toNat_byte (show c.toNat < 0x80 by omega)
  simp [Ascii.isDigit, UInt8.le_iff_toNat_le, hbyte, hlow, hhigh]

theorem digitValue_byte {c : Char} (h : c.isDigit = true) :
    Reader.digitValue (Ascii.byte c) = c.toNat - 48 := by
  obtain ⟨-, hhigh⟩ := isDigit_bounds h
  rw [Reader.digitValue, Ascii.toNat_byte (by omega)]

theorem AreDigits.ofChars_eq {digits : List Char} (h : AreDigits digits) :
    ofChars digits = digits.map Ascii.byte :=
  ofChars_of_ascii fun c hmem => Nat.lt_of_le_of_lt (isDigit_bounds (h c hmem)).2 (by decide)

theorem AreDigits.forall_bytes {digits : List Char} (h : AreDigits digits) :
    ∀ b ∈ ofChars digits, Ascii.isDigit b = true := by
  rw [h.ofChars_eq]
  intro b hmem
  obtain ⟨c, hc, rfl⟩ := List.mem_map.1 hmem
  exact isDigit_byte (h c hc)

theorem areDigits_toDigits (n : Nat) : AreDigits (Nat.toDigits 10 n) := fun _ hmem =>
  Nat.isDigit_of_mem_toDigits (by decide) (by decide) hmem

theorem AreDigits.append {a b : List Char} (ha : AreDigits a) (hb : AreDigits b) :
    AreDigits (a ++ b) := fun c hmem => (List.mem_append.1 hmem).elim (ha c) (hb c)

theorem areDigits_zeros (n : Nat) : AreDigits (List.replicate n '0') := fun _ hmem =>
  (List.mem_replicate.1 hmem).2 ▸ rfl

theorem ofDigitChars_cons (c : Char) (digits : List Char) (n : Nat) :
    Nat.ofDigitChars 10 (c :: digits) n = Nat.ofDigitChars 10 digits (10 * n + (c.toNat - 48)) :=
  Nat.ofDigitChars_cons

/-- More digits make no smaller number. -/
theorem le_ofDigitChars (digits : List Char) (n : Nat) : n ≤ Nat.ofDigitChars 10 digits n := by
  induction digits generalizing n with
  | nil => exact Nat.le_refl n
  | cons c digits ih =>
      rw [ofDigitChars_cons]
      exact Nat.le_trans (by omega) (ih _)

theorem ofDigitChars_append (a b : List Char) (n : Nat) :
    Nat.ofDigitChars 10 (a ++ b) n = Nat.ofDigitChars 10 b (Nat.ofDigitChars 10 a n) := by
  induction a generalizing n with
  | nil => rfl
  | cons c a ih => rw [List.cons_append, ofDigitChars_cons, ih, ofDigitChars_cons]

theorem ofDigitChars_zeros (k n : Nat) :
    Nat.ofDigitChars 10 (List.replicate k '0') n = n * 10 ^ k := by
  induction k generalizing n with
  | zero => exact (Nat.mul_one n).symm
  | succ k ih =>
      rw [List.replicate_succ, ofDigitChars_cons, ih, Nat.pow_succ]
      show (10 * n + 0) * 10 ^ k = _
      ring

theorem ofDigitChars_toDigits (n : Nat) : Nat.ofDigitChars 10 (Nat.toDigits 10 n) 0 = n :=
  Nat.ofDigitChars_toDigits (by decide) (by decide)

theorem toList_toString (n : Nat) : (toString n).toList = Nat.toDigits 10 n := by
  rw [Nat.toString_eq_repr, Nat.repr_eq_ofList_toDigits, String.toList_ofList]

/-! ### Readers of digits -/

namespace Reader

variable {digits : List Char}

theorem pushDigit?_byte {c : Char} (h : c.isDigit = true) {n : Nat}
    (hlt : 10 * n + (c.toNat - 48) < 0x10000000000000000) :
    pushDigit? n (Ascii.byte c) = some (10 * n + (c.toNat - 48)) := by
  rw [pushDigit?, digitValue_byte h]
  exact if_pos hlt

-- The bound on the digits is too great a numeral for the derived equations of these functions.
theorem Leading.ofInteger_step (n : Nat) (d : UInt8) (rest : Bytes) :
    Leading.ofInteger n (d :: rest) =
      match pushDigit? n d with
      | some m => Leading.ofInteger m rest
      | none => ⟨n, rest.length + 1⟩ := by
  rfl

theorem Leading.withDecimals_step (lead : Leading) (d : UInt8) (rest : Bytes) :
    lead.withDecimals (d :: rest) =
      match pushDigit? lead.digits d with
      | some m => Leading.withDecimals ⟨m, lead.scale - 1⟩ rest
      | none => lead := by
  rfl

theorem Leading.ofInteger_cons {n m : Nat} {d : UInt8} (h : pushDigit? n d = some m)
    (rest : Bytes) :
    Leading.ofInteger n (d :: rest) = Leading.ofInteger m rest := by
  rw [Leading.ofInteger_step, h]

theorem Leading.withDecimals_cons {lead : Leading} {m : Nat} {d : UInt8}
    (h : pushDigit? lead.digits d = some m) (rest : Bytes) :
    lead.withDecimals (d :: rest) = Leading.withDecimals ⟨m, lead.scale - 1⟩ rest := by
  rw [Leading.withDecimals_step, h]

/-- Digits that fit are the digits of an integer. -/
theorem Leading.ofInteger_chars (h : AreDigits digits) {n : Nat}
    (hlt : Nat.ofDigitChars 10 digits n < 0x10000000000000000) :
    Leading.ofInteger n (ofChars digits) = ⟨Nat.ofDigitChars 10 digits n, 0⟩ := by
  rw [h.ofChars_eq]
  induction digits generalizing n with
  | nil => rfl
  | cons c digits ih =>
      have hc := h c List.mem_cons_self
      rw [ofDigitChars_cons] at hlt ⊢
      have hfirst := lt_of_le_of_lt (le_ofDigitChars digits _) hlt
      rw [List.map_cons, Leading.ofInteger_cons (pushDigit?_byte hc hfirst)]
      exact ih (fun c hmem => h c (List.mem_cons_of_mem _ hmem)) hlt

/-- Decimals that fit move the point by their number. -/
theorem Leading.withDecimals_chars (h : AreDigits digits) {lead : Leading}
    (hlt : Nat.ofDigitChars 10 digits lead.digits < 0x10000000000000000) :
    lead.withDecimals (ofChars digits) =
      ⟨Nat.ofDigitChars 10 digits lead.digits, lead.scale - digits.length⟩ := by
  rw [h.ofChars_eq]
  induction digits generalizing lead with
  | nil =>
      show lead = ⟨lead.digits, lead.scale - (0 : Nat)⟩
      rw [Nat.cast_zero, Int.sub_zero]
  | cons c digits ih =>
      have hc := h c List.mem_cons_self
      rw [ofDigitChars_cons] at hlt ⊢
      have hfirst := lt_of_le_of_lt (le_ofDigitChars digits _) hlt
      rw [List.map_cons, Leading.withDecimals_cons (pushDigit?_byte hc hfirst)]
      refine (ih (fun c hmem => h c (List.mem_cons_of_mem _ hmem)) hlt).trans ?_
      rw [List.length_cons, Leading.mk.injEq]
      exact ⟨rfl, by push_cast; ring⟩

theorem digitsValue_chars (h : AreDigits digits) :
    digitsValue (ofChars digits) = Nat.ofDigitChars 10 digits 0 := by
  rw [h.ofChars_eq, digitsValue]
  generalize 0 = n
  induction digits generalizing n with
  | nil => rfl
  | cons c digits ih =>
      rw [List.map_cons, List.foldl_cons, digitValue_byte (h c List.mem_cons_self),
        ofDigitChars_cons]
      exact ih (fun c hmem => h c (List.mem_cons_of_mem _ hmem)) _

theorem exponentOverflow_chars (h : AreDigits digits) {n : Nat}
    (hle : Nat.ofDigitChars 10 digits n ≤ 2147483647) :
    exponentOverflow n (ofChars digits) = none := by
  rw [h.ofChars_eq]
  induction digits generalizing n with
  | nil => rfl
  | cons c digits ih =>
      rw [ofDigitChars_cons] at hle
      have hfirst := Nat.le_trans (le_ofDigitChars digits _) hle
      rw [List.map_cons, exponentOverflow, digitValue_byte (h c List.mem_cons_self)]
      rw [if_neg (Nat.not_lt.2 hfirst)]
      exact ih (fun c hmem => h c (List.mem_cons_of_mem _ hmem)) hle

end Reader

/-! ### Parts of a number -/

/-- Nothing of this can go on with a number. -/
def EndsNumber (rest : Bytes) : Prop :=
  ∀ b ∈ rest.head?, Ascii.isDigit b = false ∧ b ≠ 0x2e ∧ b ≠ 0x65 ∧ b ≠ 0x45

theorem EndsNumber.digits {rest : Bytes} (h : EndsNumber rest) :
    ∀ b ∈ rest.head?, Ascii.isDigit b = false :=
  fun b hb => (h b hb).1

theorem span_digits {digits : List Char} (h : AreDigits digits) {rest : Bytes}
    (hrest : ∀ b ∈ rest.head?, Ascii.isDigit b = false) :
    (ofChars digits ++ rest).span Ascii.isDigit = (ofChars digits, rest) :=
  span_append h.forall_bytes hrest

namespace Reader

variable {digits : List Char} {rest : Bytes}

/-- The integer digits of a number, of which the first is no zero unless it is the only one. -/
theorem number_digits (negative : Bool) {c : Char} (h : AreDigits (c :: digits))
    (hzero : c = '0' → digits = [])
    (hlt : Nat.ofDigitChars 10 (c :: digits) 0 < 0x10000000000000000)
    (hrest : ∀ b ∈ rest.head?, Ascii.isDigit b = false) :
    number negative (ofChars (c :: digits) ++ rest) =
      fraction negative ⟨Nat.ofDigitChars 10 (c :: digits) 0, 0⟩ rest := by
  have hc := h c List.mem_cons_self
  have hascii : c.toNat < 0x80 := Nat.lt_of_le_of_lt (isDigit_bounds hc).2 (by decide)
  by_cases hfirst : c = '0'
  · obtain rfl := hzero hfirst
    subst hfirst
    have hnone : ¬ (rest.head?.map Ascii.isDigit).getD false = true := by
      cases rest with
      | nil => exact Bool.false_ne_true
      | cons b rest => simpa using hrest b rfl
    rw [ofChars_cons_of_ascii hascii, List.cons_append, number, if_pos (by decide), ofChars_nil,
      List.nil_append, if_neg hnone]
    rfl
  · have hbyte : ¬ (Ascii.byte c == 0x30) = true := by
      intro heq
      have hvalue := congrArg UInt8.toNat (eq_of_beq heq)
      rw [Ascii.toNat_byte hascii] at hvalue
      exact hfirst (Char.toNat_inj.1 hvalue)
    rw [ofChars_cons_of_ascii hascii, List.cons_append, number, if_neg hbyte,
      if_pos (isDigit_byte hc),
      ← List.cons_append, ← ofChars_cons_of_ascii hascii, span_digits h hrest]
    simp only
    rw [Leading.ofInteger_chars h hlt]

/-- Decimals behind the point, with nothing behind them. -/
theorem fraction_decimals (negative : Bool) {lead : Leading} (h : AreDigits digits)
    (hne : digits ≠ []) (hlt : Nat.ofDigitChars 10 digits lead.digits < 0x10000000000000000)
    (hrest : EndsNumber rest) :
    fraction negative lead (0x2e :: (ofChars digits ++ rest)) =
      doubleOf negative ⟨Nat.ofDigitChars 10 digits lead.digits, lead.scale - digits.length⟩
        rest := by
  have hsome : ¬ (ofChars digits).isEmpty = true := by
    rw [h.ofChars_eq]
    simpa using hne
  unfold fraction
  simp only [span_digits h hrest.digits, if_neg hsome, Leading.withDecimals_chars h hlt]
  split
  · exact absurd rfl (hrest _ rfl).2.2.1
  · exact absurd rfl (hrest _ rfl).2.2.2
  · rfl

/-- Decimals behind the point, with an exponent behind them. -/
theorem fraction_decimals_exponent (negative : Bool) {lead : Leading} (h : AreDigits digits)
    (hne : digits ≠ []) (hlt : Nat.ofDigitChars 10 digits lead.digits < 0x10000000000000000)
    (rest : Bytes) : fraction negative lead (0x2e :: (ofChars digits ++ 0x65 :: rest)) =
      exponent negative ⟨Nat.ofDigitChars 10 digits lead.digits, lead.scale - digits.length⟩
        rest := by
  have hsome : ¬ (ofChars digits).isEmpty = true := by
    rw [h.ofChars_eq]
    simpa using hne
  have hmark : ∀ b ∈ (0x65 :: rest).head?, Ascii.isDigit b = false := by
    rintro b ⟨⟩
    rfl
  unfold fraction
  simp only [span_digits h hmark, if_neg hsome, Leading.withDecimals_chars h hlt]

/-- An exponent with its sign moves the point. -/
theorem exponent_signed (negative down : Bool) (lead : Leading) (h : AreDigits digits)
    (hne : digits ≠ []) (hle : Nat.ofDigitChars 10 digits 0 ≤ 2147483647)
    (hrest : EndsNumber rest) :
    exponent negative lead ((if down then 0x2d else 0x2b) :: (ofChars digits ++ rest)) =
      doubleOf negative { lead with scale := lead.scale +
        (if down then -(Nat.ofDigitChars 10 digits 0 : Int) else Nat.ofDigitChars 10 digits 0) }
          rest := by
  obtain ⟨c, digits, rfl⟩ := List.exists_cons_of_ne_nil hne
  have hc := h c List.mem_cons_self
  have hascii : c.toNat < 0x80 := Nat.lt_of_le_of_lt (isDigit_bounds hc).2 (by decide)
  have hspan := span_digits h hrest.digits
  have hvalue := digitsValue_chars h
  have hsmall := exponentOverflow_chars h hle
  rw [ofChars_cons_of_ascii hascii] at hspan hvalue hsmall ⊢
  rw [List.cons_append] at hspan ⊢
  unfold exponent
  cases down with
  | true =>
      simp only [if_true, isDigit_byte hc, Bool.not_true, Bool.false_eq_true, if_false, hspan,
        hsmall, hvalue]
  | false =>
      simp only [Bool.false_eq_true, if_false, isDigit_byte hc, Bool.not_true, hspan,
        hsmall, hvalue]

/-- An exponent directly behind the integer digits. -/
theorem fraction_exponent (negative : Bool) (lead : Leading) (rest : Bytes) :
    fraction negative lead (0x65 :: rest) = exponent negative lead rest := rfl

end Reader

/-! ### Laid out decimals -/

/-- The digits of a positive number, of which the first is no zero. -/
theorem exists_toDigits_eq_cons {n : Nat} (h : 0 < n) :
    ∃ c rest, Nat.toDigits 10 n = c :: rest ∧ c ≠ '0' := by
  induction n using Nat.strongRecOn with
  | ind n ih =>
      rw [Nat.toDigits_eq_if (by decide)]
      by_cases hsmall : n < 10
      · rw [if_pos hsmall]
        exact ⟨_, [], rfl,
          (by decide : ∀ k : Fin 10, 0 < k.val → k.val.digitChar ≠ '0') ⟨n, hsmall⟩ h⟩
      · obtain ⟨c, rest, hdigits, hc⟩ := ih (n / 10) (by omega) (by omega)
        rw [if_neg hsmall, hdigits]
        exact ⟨c, _, rfl, hc⟩

end Json

/-- The digits and the power of ten that are read off a laid out decimal. -/
def Double.Decimal.asRead (d : Decimal) : Decimal :=
  if 0 ≤ d.exponent ∧ (Nat.toDigits 10 d.digits).length + d.exponent ≤ 16 then
    ⟨10 * (d.digits * 10 ^ d.exponent.toNat), -1⟩
  else d

/-- The four ways in which a decimal is laid out, and the digits and the power of ten that are read
off each. -/
inductive Double.Decimal.LaidOut (d : Decimal) : List Char → Decimal → Prop
  /-- Zeros in front of the point, and one behind it. -/
  | whole (zeros : Nat) (hfits : (Nat.toDigits 10 d.digits).length + zeros ≤ 16) :
      LaidOut d (Nat.toDigits 10 d.digits ++ List.replicate zeros '0' ++ ['.', '0'])
        ⟨10 * (d.digits * 10 ^ zeros), -1⟩
  /-- The point between digits. -/
  | split (point : Nat) (hpoint : 0 < point) (hinside : point < (Nat.toDigits 10 d.digits).length) :
      LaidOut d
        ((Nat.toDigits 10 d.digits).take point ++ '.' :: (Nat.toDigits 10 d.digits).drop point)
        ⟨d.digits, -((Nat.toDigits 10 d.digits).length - point : Nat)⟩
  /-- Zeros behind the point. -/
  | small (zeros : Nat) :
      LaidOut d ('0' :: '.' :: (List.replicate zeros '0' ++ Nat.toDigits 10 d.digits))
        ⟨d.digits, -(zeros + (Nat.toDigits 10 d.digits).length : Nat)⟩
  /-- An exponent behind the digits. -/
  | scientific (down : Bool) (power : Nat)
      (hpower : power ≤ d.exponent.natAbs + (Nat.toDigits 10 d.digits).length) :
      LaidOut d ((Nat.toDigits 10 d.digits).take 1
          ++ (if ((Nat.toDigits 10 d.digits).drop 1).isEmpty then []
            else '.' :: (Nat.toDigits 10 d.digits).drop 1)
          ++ 'e' :: (if down then '-' else '+') :: Nat.toDigits 10 power)
        ⟨d.digits,
          -((Nat.toDigits 10 d.digits).length - 1 : Nat) + (if down then -(power : Int) else power)⟩

theorem Double.Decimal.laidOut_layout (d : Decimal) : d.LaidOut d.layout.toList d.asRead := by
  have hsome : 0 < (Nat.toDigits 10 d.digits).length := Nat.length_toDigits_pos
  have hof {text text' : List Char} {read read' : Decimal} (h : d.LaidOut text read)
      (htext : text' = text)
      (hread : read' = read) : d.LaidOut text' read' := by
    rwa [htext, hread]
  unfold Decimal.layout Decimal.asRead
  simp only [Bool.and_eq_true, decide_eq_true_eq]
  -- The point is behind or inside the digits, in front of them, or moved by an exponent.
  by_cases hpoint : 0 < ((Nat.toDigits 10 d.digits).length : Int) + d.exponent
      ∧ ((Nat.toDigits 10 d.digits).length : Int) + d.exponent ≤ 16
  · rw [if_pos hpoint]
    by_cases hwhole : d.exponent ≥ 0
    · rw [if_pos hwhole, if_pos ⟨hwhole, hpoint.2⟩, String.toList_append, String.toList_ofList]
      exact .whole d.exponent.toNat (by omega)
    · rw [if_neg hwhole, if_neg fun h => hwhole h.1, String.toList_ofList]
      refine hof
        (.split (((Nat.toDigits 10 d.digits).length : Int) + d.exponent).toNat (by omega)
          (by omega)) rfl ?_
      refine congrArg (Decimal.mk d.digits) ?_
      omega
  · have hplain :
        ¬ (0 ≤ d.exponent ∧ ((Nat.toDigits 10 d.digits).length : Int) + d.exponent ≤ 16) :=
      fun h => hpoint ⟨by omega, h.2⟩
    rw [if_neg hpoint]
    simp only [if_neg hplain]
    by_cases hsmall : -5 < ((Nat.toDigits 10 d.digits).length : Int) + d.exponent
        ∧ ((Nat.toDigits 10 d.digits).length : Int) + d.exponent ≤ 0
    · rw [if_pos hsmall, String.toList_append, String.toList_ofList, String.toList_ofList]
      refine hof (.small (-(((Nat.toDigits 10 d.digits).length : Int) + d.exponent)).toNat) rfl ?_
      refine congrArg (Decimal.mk d.digits) ?_
      omega
    · rw [if_neg hsmall]
      refine hof
        (.scientific (decide (((Nat.toDigits 10 d.digits).length : Int) + d.exponent - 1 < 0))
          (((Nat.toDigits 10 d.digits).length : Int) + d.exponent - 1).natAbs (by omega)) ?_ ?_
      · simp only [String.toList_append, String.toList_ofList, Json.toList_toString,
          List.append_assoc, apply_ite String.toList, decide_eq_true_eq]
        split <;> split <;> rfl
      · refine congrArg (Decimal.mk d.digits) ?_
        simp only [decide_eq_true_eq]
        split <;> omega

namespace Json.Reader

variable {d : Decimal} {rest : Bytes}

theorem ofChars_point (chars : List Char) (rest : Bytes) :
    ofChars ('.' :: chars) ++ rest = 0x2e :: (ofChars chars ++ rest) := by
  rw [ofChars_cons_of_ascii (by decide)]
  rfl

theorem ofChars_mark (chars : List Char) (rest : Bytes) :
    ofChars ('e' :: chars) ++ rest = 0x65 :: (ofChars chars ++ rest) := by
  rw [ofChars_cons_of_ascii (by decide)]
  rfl

/-- The layout with zeros in front of the point. -/
theorem number_whole (negative : Bool) {digits zeros : Nat} (hpos : 0 < digits)
    (hlt : digits * 10 ^ zeros < 10 ^ 16) (hrest : EndsNumber rest) :
    number negative
        (ofChars (Nat.toDigits 10 digits ++ List.replicate zeros '0' ++ ['.', '0']) ++ rest) =
      doubleOf negative ⟨10 * (digits * 10 ^ zeros), -1⟩ rest := by
  obtain ⟨c, others, hdigits, hc⟩ := exists_toDigits_eq_cons hpos
  have hall := (areDigits_toDigits digits).append (areDigits_zeros zeros)
  have hvalue : Nat.ofDigitChars 10 (Nat.toDigits 10 digits ++ List.replicate zeros '0') 0 =
      digits * 10 ^ zeros := by
    rw [ofDigitChars_append, ofDigitChars_toDigits, ofDigitChars_zeros]
  rw [hdigits, List.cons_append] at hall hvalue
  have hone : AreDigits ['0'] := areDigits_zeros 1
  have hlast (n : Nat) : Nat.ofDigitChars 10 ['0'] n = 10 * n := ofDigitChars_cons ..
  rw [hdigits, ofChars_append, List.append_assoc, List.cons_append,
    number_digits negative hall (fun h => absurd h hc) (by rw [hvalue]; omega) ?_, hvalue]
  · refine (fraction_decimals negative hone (List.cons_ne_nil _ _) ?_ hrest).trans ?_
    · rw [hlast]
      show 10 * (digits * 10 ^ zeros) < 0x10000000000000000
      omega
    · rw [hlast]
      rfl
  · rintro b ⟨⟩
    rfl

/-- The layout with the point between digits. -/
theorem number_split (negative : Bool) {digits point : Nat} (hpos : 0 < digits) (hpoint : 0 < point)
    (hlt : digits < 10 ^ 17) (hinside : point < (Nat.toDigits 10 digits).length)
    (hrest : EndsNumber rest) :
    number negative (ofChars ((Nat.toDigits 10 digits).take point
        ++ '.' :: (Nat.toDigits 10 digits).drop point) ++ rest) =
      doubleOf negative ⟨digits, -((Nat.toDigits 10 digits).length - point : Nat)⟩ rest := by
  obtain ⟨c, others, hdigits, hc⟩ := exists_toDigits_eq_cons hpos
  obtain ⟨point, rfl⟩ := Nat.exists_eq_add_one_of_ne_zero (Nat.ne_of_gt hpoint)
  have hall := areDigits_toDigits digits
  have hvalue := ofDigitChars_toDigits digits
  rw [hdigits] at hall hvalue hinside ⊢
  rw [← List.take_append_drop (point + 1) (c :: others), ofDigitChars_append] at hvalue
  rw [List.take_succ_cons] at hvalue ⊢
  have hfront : AreDigits (c :: others.take point) := fun x hmem =>
    hall x (List.mem_of_mem_take (i := point + 1) (by rwa [List.take_succ_cons]))
  have hback : AreDigits ((c :: others).drop (point + 1)) :=
    fun x hmem => hall x (List.mem_of_mem_drop hmem)
  have hsmall : Nat.ofDigitChars 10 (c :: others.take point) 0 ≤ digits :=
    Nat.le_trans (le_ofDigitChars _ _) (Nat.le_of_eq hvalue)
  rw [ofChars_append, List.append_assoc, ofChars_point,
    number_digits negative hfront (fun h => absurd h hc) (by omega) ?_]
  · refine (fraction_decimals negative hback ?_ ?_ hrest).trans ?_
    · exact fun hnil => absurd (List.drop_eq_nil_iff.1 hnil) (Nat.not_le.2 hinside)
    · show Nat.ofDigitChars 10 _ (Nat.ofDigitChars 10 (c :: others.take point) 0) <
        0x10000000000000000
      omega
    · simp only [hvalue, List.length_drop, Int.zero_sub]
  · rintro b ⟨⟩
    rfl

/-- A zero and the point behind it. -/
theorem number_zero_point (negative : Bool) (rest : Bytes) :
    number negative (ofChars ['0'] ++ 0x2e :: rest) = fraction negative ⟨0, 0⟩ (0x2e :: rest) := by
  have hzero : AreDigits ('0' :: []) := areDigits_zeros 1
  refine number_digits negative hzero (fun _ => rfl) (by decide) ?_
  rintro b ⟨⟩
  rfl

/-- The layout with zeros behind the point. -/
theorem number_small (negative : Bool) (zeros : Nat) {digits : Nat} (hlt : digits < 10 ^ 17)
    (hrest : EndsNumber rest) :
    number negative
        (ofChars ('0' :: '.' :: (List.replicate zeros '0' ++ Nat.toDigits 10 digits)) ++ rest) =
      doubleOf negative ⟨digits, -(zeros + (Nat.toDigits 10 digits).length : Nat)⟩ rest := by
  have hall := (areDigits_zeros zeros).append (areDigits_toDigits digits)
  have hvalue : Nat.ofDigitChars 10 (List.replicate zeros '0' ++ Nat.toDigits 10 digits) 0 =
      digits := by
    rw [ofDigitChars_append, ofDigitChars_zeros, Nat.zero_mul, ofDigitChars_toDigits]
  refine (number_zero_point negative _).trans
    ((fraction_decimals negative hall ?_ ?_ hrest).trans ?_)
  · simp [Nat.toDigits_ne_nil]
  · show Nat.ofDigitChars 10 _ 0 < 0x10000000000000000
    omega
  · show doubleOf negative ⟨Nat.ofDigitChars 10 _ 0, _⟩ rest = _
    rw [hvalue, List.length_append, List.length_replicate, Int.zero_sub]

/-- The layout with an exponent. -/
theorem number_scientific (negative down : Bool) {digits power : Nat} (hpos : 0 < digits)
    (hlt : digits < 10 ^ 17) (hpower : power ≤ 2147483647) (hrest : EndsNumber rest) :
    number negative (ofChars ((Nat.toDigits 10 digits).take 1
        ++ (if ((Nat.toDigits 10 digits).drop 1).isEmpty then [] else '.' ::
          (Nat.toDigits 10 digits).drop 1)
        ++ 'e' :: (if down then '-' else '+') :: Nat.toDigits 10 power) ++ rest) =
      doubleOf negative ⟨digits, -((Nat.toDigits 10 digits).length - 1 : Nat)
        + (if down then -(power : Int) else power)⟩ rest := by
  obtain ⟨c, others, hdigits, hc⟩ := exists_toDigits_eq_cons hpos
  have hall := areDigits_toDigits digits
  have hvalue := ofDigitChars_toDigits digits
  rw [hdigits] at hall hvalue ⊢
  have hfront : AreDigits [c] :=
    fun x hmem => hall x (List.mem_cons.2 (.inl (List.mem_singleton.1 hmem)))
  have hback : AreDigits others := fun x hmem => hall x (List.mem_cons_of_mem _ hmem)
  have hvalue' : Nat.ofDigitChars 10 others (Nat.ofDigitChars 10 [c] 0) = digits := hvalue
  have hsmall := le_ofDigitChars others (Nat.ofDigitChars 10 [c] 0)
  have hexponent (lead : Leading) : exponent negative lead
      (ofChars ((if down then '-' else '+') :: Nat.toDigits 10 power) ++ rest) =
        doubleOf negative
          { lead with scale := lead.scale + (if down then -(power : Int) else power) } rest := by
    have h := exponent_signed negative down lead (areDigits_toDigits power) Nat.toDigits_ne_nil
      (by rwa [ofDigitChars_toDigits]) hrest
    rw [ofDigitChars_toDigits] at h
    rw [← h]
    cases down <;> rfl
  have hstart (behind : Bytes) (hbehind : ∀ b ∈ behind.head?, Ascii.isDigit b = false) :
      number negative (ofChars [c] ++ behind) =
        fraction negative ⟨Nat.ofDigitChars 10 [c] 0, 0⟩ behind :=
    number_digits negative hfront (fun h => absurd h hc) (by omega) hbehind
  simp only [List.take_succ_cons, List.take_zero, List.drop_succ_cons, List.drop_zero,
    List.length_cons, Nat.add_sub_cancel]
  rw [List.append_assoc, ofChars_append, List.append_assoc]
  by_cases hnone : others = []
  · subst hnone
    rw [List.isEmpty_nil, if_pos rfl, List.nil_append, ofChars_mark, hstart _ (by rintro b ⟨⟩; rfl),
      fraction_exponent, hexponent]
    rw [show Nat.ofDigitChars 10 [c] 0 = digits from hvalue', List.length_nil,
      Nat.cast_zero, neg_zero]
  · rw [if_neg (by simpa using hnone), List.cons_append, ofChars_point,
      hstart _ (by rintro b ⟨⟩; rfl), ofChars_append, List.append_assoc, ofChars_mark,
      fraction_decimals_exponent negative hback hnone
        (by show Nat.ofDigitChars 10 _ (Nat.ofDigitChars 10 [c] 0) < _; omega), hexponent]
    simp only [hvalue', Int.zero_sub]

theorem length_toDigits_le {n : Nat} (h : n < 10 ^ 17) : (Nat.toDigits 10 n).length ≤ 17 :=
  (Nat.length_toDigits_le_iff (by decide) (by decide)).2 h

theorem lt_pow_length_toDigits (n : Nat) : n < 10 ^ (Nat.toDigits 10 n).length :=
  (Nat.length_toDigits_le_iff (by decide) Nat.length_toDigits_pos).1 (Nat.le_refl _)

/-- A laid out decimal is read as its digits and places. -/
theorem number_layout (negative : Bool) (hpos : 0 < d.digits) (hlt : d.digits < 10 ^ 17)
    (hexponent : d.exponent.natAbs ≤ 1000) (hrest : EndsNumber rest) :
    number negative (ofChars d.layout.toList ++ rest) =
      doubleOf negative ⟨d.asRead.digits, d.asRead.exponent⟩ rest := by
  have hwidth := length_toDigits_le hlt
  have hlaid := d.laidOut_layout
  generalize d.layout.toList = text at hlaid
  generalize d.asRead = read at hlaid
  cases hlaid with
  | whole zeros hfits =>
      refine number_whole negative hpos ?_ hrest
      refine Nat.lt_of_lt_of_le
        (Nat.mul_lt_mul_of_pos_right (lt_pow_length_toDigits _) (by positivity)) ?_
      rw [← Nat.pow_add]
      exact Nat.pow_le_pow_right (by decide) hfits
  | split point hpoint hinside => exact number_split negative hpos hpoint hlt hinside hrest
  | small zeros => exact number_small negative zeros hlt hrest
  | scientific down power hpower => exact number_scientific negative down hpos hlt (by omega) hrest

/-- Zero is written with a decimal. -/
theorem number_zero (negative : Bool) (hrest : EndsNumber rest) :
    number negative (ofChars ['0', '.', '0'] ++ rest) = doubleOf negative ⟨0, -1⟩ rest := by
  refine (number_zero_point negative _).trans ?_
  exact fraction_decimals negative (areDigits_zeros 1) (List.cons_ne_nil _ _) (by decide) hrest

/-! ### Integers -/

theorem fraction_none (negative : Bool) (lead : Leading) (hrest : EndsNumber rest) :
    fraction negative lead rest =
      if lead.scale = 0 && !negative then .ok (.number (.int lead.digits), rest)
      else if lead.scale = 0 && 0 < lead.digits && lead.digits ≤ 0x8000000000000000 then
        .ok (.number (.int (-lead.digits)), rest)
      else doubleOf negative lead rest := by
  unfold fraction
  split
  · exact absurd rfl (hrest _ rfl).2.1
  · exact absurd rfl (hrest _ rfl).2.2.1
  · exact absurd rfl (hrest _ rfl).2.2.2
  · rfl

theorem number_toDigits (negative : Bool) {n : Nat} (hlt : n < 0x10000000000000000)
    (hrest : EndsNumber rest) :
    number negative (ofChars (Nat.toDigits 10 n) ++ rest) = fraction negative ⟨n, 0⟩ rest := by
  have hvalue := ofDigitChars_toDigits n
  rcases Nat.eq_zero_or_pos n with rfl | hpos
  · exact number_digits negative (areDigits_zeros 1) (fun _ => rfl) (by decide) hrest.digits
  · obtain ⟨c, others, hdigits, hc⟩ := exists_toDigits_eq_cons hpos
    have hall := areDigits_toDigits n
    rw [hdigits] at hvalue hall ⊢
    rw [number_digits negative hall (fun h => absurd h hc) (by rwa [hvalue]) hrest.digits, hvalue]

/-- The first byte tells a number from other values. -/
theorem value_digit (depth : Nat) {b : UInt8} (hb : Ascii.isDigit b = true) (unread : Bytes) :
    value depth (b :: unread) = number false (b :: unread) := by
  have hother : ∀ k : Fin 256, Ascii.isDigit (UInt8.ofNat k) = true →
      isGap (UInt8.ofNat k) = false ∧ (UInt8.ofNat k == 0x6e) = false
        ∧ (UInt8.ofNat k == 0x74) = false
        ∧ (UInt8.ofNat k == 0x66) = false ∧ (UInt8.ofNat k == 0x2d) = false := by decide +kernel
  obtain ⟨hgap, hn, ht, hf, hminus⟩ := forall_byte (p := fun b => Ascii.isDigit b = true →
    isGap b = false ∧ (b == 0x6e) = false ∧ (b == 0x74) = false ∧ (b == 0x66) = false
      ∧ (b == 0x2d) = false) hother b hb
  unfold value
  simp only [skipGap, List.dropWhile_cons, hgap, hn, ht, hf, hminus, hb, Bool.false_eq_true,
    if_false, if_true]

theorem value_digits (depth : Nat) {c : Char} (hc : c.isDigit = true) (chars : List Char)
    (rest : Bytes) :
    value depth (ofChars (c :: chars) ++ rest) = number false (ofChars (c :: chars) ++ rest) := by
  have hascii : c.toNat < 0x80 := Nat.lt_of_le_of_lt (isDigit_bounds hc).2 (by decide)
  rw [ofChars_cons_of_ascii hascii, List.cons_append]
  exact value_digit depth (isDigit_byte hc) _

theorem value_minus (depth : Nat) (chars : List Char) (rest : Bytes) :
    value depth (ofChars ('-' :: chars) ++ rest) = number true (ofChars chars ++ rest) := by
  rw [ofChars_cons_of_ascii (by decide), List.cons_append]
  unfold value
  rfl

/-- An integer of 64 bits, with or without a sign, is read back. -/
theorem value_int (depth : Nat) {i : Int} (hlow : -0x8000000000000000 ≤ i)
    (hhigh : i < 0x10000000000000000) (hrest : EndsNumber rest) :
    value depth (ofChars (toString i).toList ++ rest) = .ok (.number (.int i), rest) := by
  cases i with
  | ofNat n =>
      obtain ⟨c, others, hdigits⟩ :=
        List.exists_cons_of_ne_nil (Nat.toDigits_ne_nil (b := 10) (n := n))
      have hc : c.isDigit = true := areDigits_toDigits n c (hdigits ▸ List.mem_cons_self)
      have hlt : n < 0x10000000000000000 := by
        simp only [Int.ofNat_eq_natCast] at hhigh
        omega
      rw [show toString (Int.ofNat n) = toString n from rfl, toList_toString, hdigits,
        value_digits depth hc, ← hdigits, number_toDigits false hlt hrest, fraction_none _ _ hrest]
      rfl
  | negSucc n =>
      have hle : n + 1 ≤ 0x8000000000000000 := by
        rw [Int.negSucc_eq] at hlow
        omega
      have htext : (toString (Int.negSucc n)).toList = '-' :: Nat.toDigits 10 (n + 1) := by
        rw [show toString (Int.negSucc n) = "-" ++ toString (n + 1) from rfl, String.toList_append,
          toList_toString]
        rfl
      rw [htext, value_minus, number_toDigits true (by omega) hrest, fraction_none _ _ hrest,
        if_neg (by simp), if_pos (by simp; omega)]
      rfl

/-! ### Doubles -/

/-- A laid out decimal starts with a digit. -/
theorem exists_layout_eq_cons (hpos : 0 < d.digits) :
    ∃ c rest, d.layout.toList = c :: rest ∧ c.isDigit = true := by
  obtain ⟨c, others, hdigits, -⟩ := exists_toDigits_eq_cons hpos
  have hc : c.isDigit = true := areDigits_toDigits _ c (hdigits ▸ List.mem_cons_self)
  have hlaid := d.laidOut_layout
  generalize d.layout.toList = text at hlaid
  generalize d.asRead = read at hlaid
  cases hlaid with
  | whole zeros _ => exact ⟨c, _, by rw [hdigits]; rfl, hc⟩
  | split point hpoint _ =>
      obtain ⟨point, rfl⟩ := Nat.exists_eq_add_one_of_ne_zero (Nat.ne_of_gt hpoint)
      exact ⟨c, _, by rw [hdigits, List.take_succ_cons]; rfl, hc⟩
  | small zeros => exact ⟨'0', _, rfl, rfl⟩
  | scientific down power _ => exact ⟨c, _, by rw [hdigits]; rfl, hc⟩

end Json.Reader

/-- The digits and the power of ten that are read off a written number. -/
def Double.asRead (d : Double) : Decimal :=
  if d.magnitude.mantissa = 0 then ⟨0, -1⟩ else d.magnitude.shortest.asRead

/-- The text of a number without its sign. -/
def Double.bareText (d : Double) : String :=
  if d.magnitude.mantissa = 0 then "0.0" else d.magnitude.shortest.layout

theorem Double.toList_render (d : Double) :
    d.render.toList = (if d.isNegative then ['-'] else []) ++ d.bareText.toList := by
  unfold render bareText
  simp only [apply_ite String.toList, String.toList_append, beq_iff_eq]
  split <;> split <;> rfl

namespace Json.Reader

/-- The text of a number without its sign is what the reader of numbers makes digits and places
of. -/
theorem exists_bareText {d : Double} (hd : d.IsFinite) : ∃ c chars, c.isDigit = true
    ∧ d.bareText.toList = c :: chars
    ∧ ∀ negative {rest : Bytes}, EndsNumber rest → number negative (ofChars (c :: chars) ++ rest) =
      doubleOf negative ⟨d.asRead.digits, d.asRead.exponent⟩ rest := by
  unfold Double.asRead Double.bareText
  by_cases hzero : d.magnitude.mantissa = 0
  · rw [if_pos hzero, if_pos hzero]
    exact ⟨'0', ['.', '0'], rfl, rfl, fun negative _ hrest => number_zero negative hrest⟩
  · have hwritten := isWritten_shortest hd.isCanonical (Nat.pos_of_ne_zero hzero)
    have hleast := hwritten.least
    have hgreatest := hwritten.greatest
    obtain ⟨c, chars, hchars, hc⟩ := exists_layout_eq_cons hwritten.pos
    rw [if_neg hzero, if_neg hzero]
    exact ⟨c, chars, hc, hchars, fun negative _ hrest =>
      hchars ▸ number_layout negative hwritten.pos hwritten.lt (by omega) hrest⟩

/-- A written number is read by its digits and places, and its sign. -/
theorem value_render (depth : Nat) {d : Double} {rest : Bytes} (hd : d.IsFinite)
    (hrest : EndsNumber rest) :
    value depth (ofChars d.render.toList ++ rest) =
      doubleOf d.isNegative ⟨d.asRead.digits, d.asRead.exponent⟩ rest := by
  obtain ⟨c, chars, hc, hchars, hread⟩ := exists_bareText hd
  rw [d.toList_render, hchars]
  cases d.isNegative with
  | false =>
      rw [if_neg Bool.false_ne_true, List.nil_append, value_digits depth hc, hread false hrest]
  | true => rw [if_pos rfl, List.singleton_append, value_minus, hread true hrest]

end Json.Reader

end ApiClient
