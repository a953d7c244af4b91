import ApiClient.Number.Double
import Mathlib.Algebra.Order.Field.Power
import Mathlib.Data.Nat.Log
import Mathlib.Data.Rat.Cast.Order
import Mathlib.Tactic.FieldSimp
import Mathlib.Tactic.Linarith
import Mathlib.Tactic.NormNum
import Mathlib.Tactic.Positivity
import Mathlib.Tactic.Ring

/-!
# ApiClient.Proofs.Rounding

The nearest number to a quotient.

A finite number is an integer times a unit, a power of two. A quotient has one unit of its own: the
one in which it has 53 binary digits in front of the point, but never less than the least number
(`unitOf_spec`). Rounding takes the integer next to the quotient in that unit, an even one if there
are two (`Rounds`), and puts integer and unit into bits by one addition. A carry out of the integer
is a carry into the exponent, and the value of the bits is still the product (`value_ofBits`).

The quotients that round to a number fill an interval around it (`Magnitude.Covers`). At a power of
two the interval crosses from one unit to the next, and there the carry is what makes both sides
agree.
-/

namespace ApiClient.Double

/-! ### Powers with an integer exponent -/

/-- A power as a quotient of powers with natural exponents, as exact arithmetic on naturals writes
it. -/
theorem zpow_eq_div (b : Nat) (hb : b ≠ 0) (i : Int) :
    (b : ℚ) ^ i = (Nat.pow b i.toNat : ℕ) / (Nat.pow b (-i).toNat : ℕ) := by
  have hne : (b : ℚ) ≠ 0 := by exact_mod_cast hb
  rw [Nat.pow_eq, Nat.pow_eq, Nat.cast_pow, Nat.cast_pow, eq_div_iff (pow_ne_zero _ hne),
    ← zpow_natCast, ← zpow_natCast, ← zpow_add₀ hne]
  congr 1
  omega

/-- A quotient in a unit, as exact arithmetic on naturals writes it. -/
theorem div_zpow_eq (num den : Nat) (unit : Int) :
    (num : ℚ) / den / 2 ^ unit =
      (num * Nat.pow 2 (-unit).toNat : ℕ) / (den * Nat.pow 2 unit.toNat : ℕ) := by
  have h := zpow_eq_div 2 (by decide) unit
  rw [Nat.cast_ofNat] at h
  rw [h, div_div_div_eq, Nat.cast_mul, Nat.cast_mul]

theorem two_zpow_pos (i : Int) : (0 : ℚ) < 2 ^ i := zpow_pos (by norm_num) i

theorem two_zpow_add (i j : Int) : (2 : ℚ) ^ (i + j) = 2 ^ i * 2 ^ j := zpow_add₀ (by norm_num) i j

theorem two_zpow_le {i j : Int} (h : i ≤ j) : (2 : ℚ) ^ i ≤ 2 ^ j :=
  zpow_le_zpow_right₀ (by norm_num) h

theorem lt_of_two_zpow_lt {i j : Int} (h : (2 : ℚ) ^ i < 2 ^ j) : i < j :=
  (zpow_lt_zpow_iff_right₀ (by norm_num)).1 h

/-! ### The unit of a quotient -/

/-- The unit in which a quotient is rounded. -/
def unitOf (num den : Nat) : Int :=
  let low : Int := (num.log2 : Int) - den.log2 - 53
  max (-1074)
    (if num * Nat.pow 2 (-low).toNat < den * Nat.pow 2 low.toNat * 0x20000000000000 then low
      else low + 1)

/-- A natural number lies between the powers of two around its logarithm. -/
theorem two_zpow_log2_le {n : Nat} (h : 0 < n) :
    (2 : ℚ) ^ (n.log2 : Int) ≤ n ∧ (n : ℚ) < 2 ^ ((n.log2 : Int) + 1) := by
  have hlow := Nat.log2_self_le (Nat.ne_of_gt h)
  have hhigh := @Nat.lt_log2_self n
  constructor
  · rw [zpow_natCast]
    exact_mod_cast hlow
  · rw [← Nat.cast_succ, zpow_natCast]
    exact_mod_cast hhigh

variable {num den : Nat}

/-- A quotient lies between the powers of two around the difference of the logarithms. -/
theorem two_zpow_log2_sub_le (hnum : 0 < num) (hden : 0 < den) :
    (2 : ℚ) ^ ((num.log2 : Int) - den.log2 - 1) ≤ (num : ℚ) / den
      ∧ (num : ℚ) / den < 2 ^ ((num.log2 : Int) - den.log2 + 1) := by
  obtain ⟨hnumLow, hnumHigh⟩ := two_zpow_log2_le hnum
  obtain ⟨hdenLow, hdenHigh⟩ := two_zpow_log2_le hden
  have hdenPos : (0 : ℚ) < den := by exact_mod_cast hden
  constructor
  · rw [le_div_iff₀ hdenPos]
    calc (2 : ℚ) ^ ((num.log2 : Int) - den.log2 - 1) * den
        ≤ 2 ^ ((num.log2 : Int) - den.log2 - 1) * 2 ^ ((den.log2 : Int) + 1) :=
          mul_le_mul_of_nonneg_left hdenHigh.le (two_zpow_pos _).le
      _ = 2 ^ (num.log2 : Int) := by rw [← two_zpow_add]; congr 1; omega
      _ ≤ num := hnumLow
  · rw [div_lt_iff₀ hdenPos]
    calc (num : ℚ) < 2 ^ ((num.log2 : Int) + 1) := hnumHigh
      _ = 2 ^ ((num.log2 : Int) - den.log2 + 1) * 2 ^ (den.log2 : Int) := by
          rw [← two_zpow_add]; congr 1; omega
      _ ≤ 2 ^ ((num.log2 : Int) - den.log2 + 1) * den :=
          mul_le_mul_of_nonneg_left hdenLow (two_zpow_pos _).le

/-- Whether a quotient has at most 53 binary digits in a unit, as exact arithmetic on naturals asks
it. -/
theorem scaled_lt_iff (num : Nat) (hden : 0 < den) (unit : Int) :
    num * Nat.pow 2 (-unit).toNat < den * Nat.pow 2 unit.toNat * 0x20000000000000
      ↔ (num : ℚ) / den < 2 ^ (unit + 53) := by
  have hscaled : 0 < den * Nat.pow 2 unit.toNat := Nat.mul_pos hden (Nat.pow_pos (by decide))
  rw [add_comm unit, two_zpow_add, ← div_lt_iff₀ (two_zpow_pos unit), div_zpow_eq,
    div_lt_iff₀ (by exact_mod_cast hscaled),
    show (2 : ℚ) ^ (53 : Int) = (0x20000000000000 : ℕ) by norm_num, ← Nat.cast_mul, Nat.cast_lt,
    Nat.mul_comm 0x20000000000000]

/-- In its unit a quotient has 53 binary digits, or fewer if the unit is the least one. -/
theorem unitOf_spec (hnum : 0 < num) (hden : 0 < den) :
    -1074 ≤ unitOf num den ∧ (num : ℚ) / den < 2 ^ (unitOf num den + 53)
      ∧ (unitOf num den = -1074 ∨ 2 ^ (unitOf num den + 52) ≤ (num : ℚ) / den) := by
  obtain ⟨habove, hbelow⟩ := two_zpow_log2_sub_le hnum hden
  unfold unitOf
  simp only [scaled_lt_iff num hden]
  generalize hlow : (num.log2 : Int) - den.log2 - 53 = low
  rw [show (num.log2 : Int) - den.log2 - 1 = low + 52 by omega] at habove
  rw [show (num.log2 : Int) - den.log2 + 1 = low + 54 by omega] at hbelow
  split
  · next h =>
      refine ⟨le_max_left .., h.trans_le (two_zpow_le (by omega)), ?_⟩
      rcases le_total low (-1074) with hle | hle
      · exact .inl (max_eq_left hle)
      · rw [max_eq_right hle]
        exact .inr habove
  · next h =>
      refine ⟨le_max_left .., hbelow.trans_le (two_zpow_le (by omega)), ?_⟩
      rcases le_total (low + 1) (-1074) with hle | hle
      · exact .inl (max_eq_left hle)
      · rw [max_eq_right hle, show low + 1 + 52 = low + 53 by omega]
        exact .inr (not_lt.1 h)

/-- The unit is not above one in which the quotient has at most 53 binary digits. -/
theorem unit_le_of_lt {unit bound : Int} {q : ℚ} (habove : unit = -1074 ∨ 2 ^ (unit + 52) ≤ q)
    (hbound : -1074 ≤ bound) (hlt : q < 2 ^ (bound + 53)) : unit ≤ bound := by
  rcases habove with rfl | habove
  · exact hbound
  · have := lt_of_two_zpow_lt (habove.trans_lt hlt)
    omega

/-! ### The integer next to a quotient -/

/-- The integer is nearest to the quotient, and even if there are two nearest ones. -/
structure Rounds (t : Nat) (r : ℚ) : Prop where
  /-- The quotient is at most half above the integer. -/
  le : r ≤ t + 1 / 2
  /-- The quotient is at most half below the integer. -/
  ge : (t : ℚ) - 1 / 2 ≤ r
  /-- Halfway to another integer the integer is even. -/
  even : r = t + 1 / 2 ∨ r = (t : ℚ) - 1 / 2 → t % 2 = 0

/-- There is one such integer. -/
theorem Rounds.unique {s t : Nat} {r : ℚ} (hs : Rounds s r) (ht : Rounds t r) : s = t := by
  wlog hle : s ≤ t generalizing s t
  · exact (this ht hs (Nat.le_of_not_le hle)).symm
  rcases Nat.eq_or_lt_of_le hle with heq | hlt
  · exact heq
  · have hcast : (s : ℚ) + 1 ≤ t := by exact_mod_cast hlt
    have hgap := hs.le
    have hback := ht.ge
    have hnext : (t : ℚ) = s + 1 := by linarith
    have hnat : t = s + 1 := by exact_mod_cast hnext
    have hsEven := hs.even (.inl (by linarith))
    have htEven := ht.even (.inr (by linarith))
    omega

/-- An integer rounds to itself. -/
theorem rounds_natCast (t : Nat) : Rounds t t where
  le := by linarith
  ge := by linarith
  even := by
    rintro (h | h)
    · linarith
    · linarith

/-- The quotient of naturals, rounded. -/
def roundQuotient (n d : Nat) : Nat :=
  if 2 * (n % d) > d || (2 * (n % d) == d && n / d % 2 == 1) then n / d + 1 else n / d

theorem rounds_roundQuotient (n : Nat) {d : Nat} (hd : 0 < d) :
    Rounds (roundQuotient n d) ((n : ℚ) / d) := by
  have hpos : (0 : ℚ) < d := by exact_mod_cast hd
  have hdivide : (n : ℚ) / d = (n / d : ℕ) + (n % d : ℕ) / d := by
    rw [div_eq_iff hpos.ne', add_mul, div_mul_cancel₀ _ hpos.ne']
    exact_mod_cast (Nat.div_add_mod' n d).symm
  have hless : ((n % d : ℕ) : ℚ) / d < 1 := by
    rw [div_lt_one hpos]
    exact_mod_cast Nat.mod_lt n hd
  have hnonneg : (0 : ℚ) ≤ (n % d : ℕ) / d := by positivity
  have hhalf : ((n % d : ℕ) : ℚ) / d < 1 / 2 ↔ 2 * (n % d) < d := by
    rw [div_lt_div_iff₀ hpos (by norm_num), one_mul, mul_comm]
    exact_mod_cast Iff.rfl
  have hmore : 1 / 2 < ((n % d : ℕ) : ℚ) / d ↔ d < 2 * (n % d) := by
    rw [div_lt_div_iff₀ (by norm_num) hpos, one_mul, mul_comm]
    exact_mod_cast Iff.rfl
  rw [hdivide]
  unfold roundQuotient
  generalize ((n % d : ℕ) : ℚ) / d = part at *
  simp only [Bool.or_eq_true, decide_eq_true_eq, Bool.and_eq_true, beq_iff_eq]
  split
  · next hup =>
      have hge : 1 / 2 ≤ part := by
        rw [← not_lt, hhalf]
        omega
      have hcast : ((n / d + 1 : ℕ) : ℚ) = (n / d : ℕ) + 1 := Nat.cast_succ _
      refine ⟨by linarith, by linarith, ?_⟩
      rintro (h | h)
      · linarith
      · have hnot : ¬ d < 2 * (n % d) := by
          rw [← hmore]
          linarith
        omega
  · next hdown =>
      have hle : part ≤ 1 / 2 := by
        rw [← not_lt, hmore]
        omega
      refine ⟨by linarith, by linarith, ?_⟩
      rintro (h | h)
      · have hnot : ¬ 2 * (n % d) < d := by
          rw [← hhalf]
          linarith
        omega
      · linarith

/-! ### Bits and magnitudes -/

/-- The number is neither infinite nor undefined. -/
def IsFinite (d : Double) : Prop := d.bits.toNat / 0x10000000000000 % 0x800 ≠ 0x7ff

instance (d : Double) : Decidable d.IsFinite := inferInstanceAs (Decidable (_ ≠ _))

/-- The rational number that a magnitude stands for. -/
def Magnitude.value (x : Magnitude) : ℚ := x.mantissa * 2 ^ x.exponent

theorem Magnitude.value_nonneg (x : Magnitude) : 0 ≤ x.value :=
  mul_nonneg (Nat.cast_nonneg _) (two_zpow_pos _).le

/-- The bits of a magnitude, without a sign. -/
def Magnitude.bits (x : Magnitude) : Nat :=
  x.mantissa + (x.exponent + 1074).toNat * 0x10000000000000

/-- Mantissa and exponent are those of a finite number. -/
structure Magnitude.IsCanonical (x : Magnitude) : Prop where
  /-- The mantissa has at most 53 binary digits. -/
  lt : x.mantissa < 0x20000000000000
  /-- The unit is not below the least number. -/
  least : -1074 ≤ x.exponent
  /-- The unit is not above that of the greatest number. -/
  greatest : x.exponent ≤ 971
  /-- The mantissa has 53 binary digits unless the unit is the least one. -/
  full : x.exponent = -1074 ∨ 0x10000000000000 ≤ x.mantissa
  /-- Powers of two are nearer to the number below, the least ones apart. -/
  narrow : x.narrowBelow = true ↔ x.mantissa = 0x10000000000000 ∧ -1074 < x.exponent

theorem toNat_exponent (d : Double) :
    ((d.bits >>> 52) &&& 0x7ff).toNat = d.bits.toNat / 0x10000000000000 % 0x800 := by
  rw [UInt64.toNat_and, UInt64.toNat_shiftRight]
  show (d.bits.toNat >>> 52) &&& (2 ^ 11 - 1) = _
  rw [Nat.and_two_pow_sub_one_eq_mod, Nat.shiftRight_eq_div_pow]

theorem toNat_fraction (d : Double) :
    (d.bits &&& 0xfffffffffffff).toNat = d.bits.toNat % 0x10000000000000 := by
  rw [UInt64.toNat_and]
  show d.bits.toNat &&& (2 ^ 52 - 1) = _
  rw [Nat.and_two_pow_sub_one_eq_mod]

theorem isNegative_iff (d : Double) : d.isNegative = true ↔ 0x8000000000000000 ≤ d.bits.toNat := by
  have hlt := d.bits.toNat_lt
  rw [isNegative, beq_iff_eq, ← UInt64.toNat_inj, UInt64.toNat_shiftRight]
  show d.bits.toNat >>> 63 = 1 ↔ _
  rw [Nat.shiftRight_eq_div_pow]
  omega

/-- Exponent and fraction of the bits make up the magnitude. -/
theorem magnitude_eq (d : Double) : d.magnitude =
    if d.bits.toNat / 0x10000000000000 % 0x800 = 0 then
      ⟨d.bits.toNat % 0x10000000000000, -1074, false⟩
    else ⟨0x10000000000000 + d.bits.toNat % 0x10000000000000,
      (d.bits.toNat / 0x10000000000000 % 0x800 : Nat) - 1075,
      d.bits.toNat % 0x10000000000000 == 0 && decide
        (d.bits.toNat / 0x10000000000000 % 0x800 > 1)⟩ := by
  unfold magnitude
  simp only [toNat_exponent, toNat_fraction, beq_iff_eq]

theorem IsFinite.isCanonical {d : Double} (h : d.IsFinite) : d.magnitude.IsCanonical := by
  unfold IsFinite at h
  rw [magnitude_eq]
  split
  · refine ⟨?_, le_refl _, by norm_num, .inl rfl, ?_⟩
    · simp only
      omega
    · simp
  · constructor
    · simp only
      omega
    · simp only
      omega
    · simp only
      omega
    · simp only
      omega
    · simp only [Bool.and_eq_true, beq_iff_eq, decide_eq_true_eq]
      omega

/-- The bits of a number are those of its magnitude and its sign. -/
theorem toNat_bits (d : Double) :
    d.bits.toNat = (if d.isNegative then 0x8000000000000000 else 0) + d.magnitude.bits := by
  have hlt := d.bits.toNat_lt
  have hsign := d.isNegative_iff
  rw [Magnitude.bits, magnitude_eq]
  split
  · next hneg =>
      have hle := hsign.1 hneg
      split
      · simp only
        omega
      · simp only
        omega
  · next hneg =>
      have hle : ¬ 0x8000000000000000 ≤ d.bits.toNat := fun h => hneg (hsign.2 h)
      split
      · simp only
        omega
      · simp only
        omega

/-- An integer of 53 binary digits, or fewer in the least unit, and its unit are a number. A carry
out of the integer counts as a carry into the unit. -/
theorem value_ofBits {t k : Nat} (ht : t ≤ 0x20000000000000) (hk : k = 0 ∨ 0x10000000000000 ≤ t)
    (hlt : t + k * 0x10000000000000 < 0x7ff0000000000000) {d : Double}
    (hd : d = ⟨(t + k * 0x10000000000000).toUInt64⟩) :
    d.IsFinite ∧ d.isNegative = false ∧ d.magnitude.value = t * 2 ^ ((k : Int) - 1074) := by
  have hbits : d.bits.toNat = t + k * 0x10000000000000 := by
    rw [hd]
    exact UInt64.toNat_ofNat_of_lt (Nat.lt_trans hlt (by decide))
  refine ⟨?_, ?_, ?_⟩
  · rw [IsFinite, hbits]
    omega
  · rw [← Bool.not_eq_true, isNegative_iff, hbits]
    omega
  · rw [magnitude_eq, hbits]
    split
    · next hzero =>
        obtain ⟨rfl, hsmall⟩ : k = 0 ∧ t < 0x10000000000000 := by omega
        rw [Magnitude.value]
        simp only
        congr 2
        omega
    · next hsome =>
        -- Either the leading digit of the integer is the hidden one, or the integer carries.
        rcases Nat.lt_or_eq_of_le ht with hless | rfl
        · obtain ⟨hfraction, hfield⟩ :
            0x10000000000000 + (t + k * 0x10000000000000) % 0x10000000000000 = t
              ∧ (t + k * 0x10000000000000) / 0x10000000000000 % 0x800 = k + 1 := by omega
          rw [Magnitude.value]
          simp only [hfraction, hfield]
          congr 2
          omega
        · obtain ⟨hfraction, hfield⟩ :
            (0x20000000000000 + k * 0x10000000000000) % 0x10000000000000 = 0
              ∧ (0x20000000000000 + k * 0x10000000000000) / 0x10000000000000 % 0x800 =
                k + 2 := by omega
          rw [Magnitude.value]
          simp only [hfraction, hfield]
          rw [show ((k + 2 : Nat) : Int) - 1075 = (k - 1074 : Int) + 1 by omega, two_zpow_add]
          push_cast
          ring

/-! ### Rounded quotients -/

theorem nearestBits?_eq (num den : Nat) : nearestBits? num den =
    let bits :=
  roundQuotient (num * Nat.pow 2 (-unitOf num den).toNat) (den * Nat.pow 2 (unitOf num den).toNat)
      + (unitOf num den + 1074).toNat * 0x10000000000000
    if bits < 0x7ff0000000000000 then some bits else none := rfl

/-- A quotient is rounded to an integer in its unit, and these are the bits if they are those of a
number. -/
theorem exists_rounds (hnum : 0 < num) (hden : 0 < den) :
    ∃ t, Rounds t ((num : ℚ) / den / 2 ^ unitOf num den) ∧ t ≤ 0x20000000000000
      ∧ (unitOf num den = -1074 ∨ 0x10000000000000 ≤ t)
      ∧ ofRatio? num den =
        if t + (unitOf num den + 1074).toNat * 0x10000000000000 < 0x7ff0000000000000
          then some ⟨(t + (unitOf num den + 1074).toNat * 0x10000000000000).toUInt64⟩
            else none := by
  obtain ⟨hleast, hbelow, habove⟩ := unitOf_spec hnum hden
  have hscaled : 0 < den * Nat.pow 2 (unitOf num den).toNat :=
    Nat.mul_pos hden (Nat.pow_pos (by decide))
  have hrounds := rounds_roundQuotient (num * Nat.pow 2 (-unitOf num den).toNat) hscaled
  rw [← div_zpow_eq] at hrounds
  have hof : ofRatio? num den = (nearestBits? num den).map fun bits => ⟨bits.toUInt64⟩ := by
    rw [ofRatio?, if_neg (by simpa using Nat.ne_of_gt hnum)]
  rw [nearestBits?_eq] at hof
  simp only [apply_ite (Option.map _), Option.map_some, Option.map_none] at hof
  generalize roundQuotient _ _ = t at hrounds hof
  refine ⟨t, hrounds, ?_, ?_, hof⟩
  · have hless : (num : ℚ) / den / 2 ^ unitOf num den < 0x20000000000000 := by
      rw [div_lt_iff₀ (two_zpow_pos _)]
      rw [add_comm, two_zpow_add] at hbelow
      calc _ < _ := hbelow
        _ = _ := by norm_num
    have hle : (t : ℚ) < 0x20000000000000 + 1 := by linarith [hrounds.ge]
    exact Nat.lt_succ_iff.1 (by exact_mod_cast hle)
  · refine habove.imp_right fun habove => ?_
    have hmore : 0x10000000000000 ≤ (num : ℚ) / den / 2 ^ unitOf num den := by
      rw [le_div_iff₀ (two_zpow_pos _)]
      rw [add_comm, two_zpow_add] at habove
      calc _ = _ := by norm_num
        _ ≤ _ := habove
    have hge : (0x10000000000000 : ℚ) < t + 1 := by linarith [hrounds.le]
    exact Nat.lt_succ_iff.1 (by exact_mod_cast hge)

/-- How far below the magnitude the quotients start that round to it, in units. -/
def Magnitude.reachBelow (x : Magnitude) : ℚ := if x.narrowBelow then 1 / 4 else 1 / 2

/-- The quotient is among those that round to the magnitude. -/
structure Magnitude.Covers (x : Magnitude) (q : ℚ) : Prop where
  /-- The quotient is not too far below. -/
  ge : (x.mantissa - x.reachBelow) * 2 ^ x.exponent ≤ q
  /-- The quotient is not too far above. -/
  le : q ≤ (x.mantissa + 1 / 2) * 2 ^ x.exponent
  /-- The ends of the interval belong to it if the mantissa is even. -/
  even : q = (x.mantissa - x.reachBelow) * 2 ^ x.exponent
    ∨ q = (x.mantissa + 1 / 2) * 2 ^ x.exponent →
    x.mantissa % 2 = 0

theorem Magnitude.reachBelow_le (x : Magnitude) : x.reachBelow ≤ 1 / 2 := by
  unfold reachBelow
  split <;> norm_num

namespace Magnitude.Covers

variable {x : Magnitude} {q : ℚ} {unit : Int}

/-- The unit of a covered quotient is not above that of the magnitude. -/
theorem unit_le (h : x.Covers q) (hx : x.IsCanonical)
    (habove : unit = -1074 ∨ 2 ^ (unit + 52) ≤ q) :
    unit ≤ x.exponent := by
  have hmax : (x.mantissa : ℚ) + 1 ≤ 0x20000000000000 := by exact_mod_cast hx.lt
  refine unit_le_of_lt habove hx.least (h.le.trans_lt ?_)
  rw [two_zpow_add x.exponent, mul_comm]
  exact mul_lt_mul_of_pos_left (by norm_num; linarith) (two_zpow_pos _)

/-- Where the unit of a covered quotient is less than that of the magnitude, it is half of it, the
magnitude is a power of two, and the quotient rounds to the integer that carries. -/
theorem rounds_carry (h : x.Covers q) (hx : x.IsCanonical) (hless : unit < x.exponent)
    (hleast : -1074 ≤ unit) (hbelow : q < 2 ^ (unit + 53)) :
    unit = x.exponent - 1 ∧ x.mantissa = 0x10000000000000
      ∧ Rounds 0x20000000000000 (q / 2 ^ unit) := by
  have hunitPos := two_zpow_pos x.exponent
  have hlow : (x.mantissa - x.reachBelow) * 2 ^ x.exponent < 0x10000000000000 * 2 ^ x.exponent := by
    refine h.ge.trans_lt
      (hbelow.trans_le ((two_zpow_le (j := x.exponent + 52) (by omega)).trans ?_))
    rw [add_comm, two_zpow_add]
    norm_num
  have hfull := hx.full.resolve_left (by omega)
  have hlt : (x.mantissa : ℚ) < 0x10000000000000 + 1 := by
    linarith [lt_of_mul_lt_mul_right hlow hunitPos.le, x.reachBelow_le]
  have hm : x.mantissa = 0x10000000000000 :=
    Nat.le_antisymm (Nat.lt_succ_iff.1 (by exact_mod_cast hlt)) hfull
  have hge := h.ge
  rw [hm, reachBelow, if_pos (hx.narrow.2 ⟨hm, by omega⟩)] at hge
  -- The magnitude is a power of two, so what is covered below it is near enough to need half of
  -- its unit.
  have hhalf : unit = x.exponent - 1 := by
    have hgap : (2 : ℚ) ^ (x.exponent + 51) < 2 ^ (unit + 53) := by
      refine lt_of_lt_of_le ?_ (hge.trans hbelow.le)
      rw [add_comm, two_zpow_add]
      exact mul_lt_mul_of_pos_right (by norm_num) hunitPos
    have := lt_of_two_zpow_lt hgap
    omega
  subst hhalf
  have hdouble : (2 : ℚ) ^ x.exponent = 2 * 2 ^ (x.exponent - 1) := by
    rw [show x.exponent = 1 + (x.exponent - 1) by omega, two_zpow_add]
    norm_num
  have hfrom : (0x20000000000000 : ℚ) - 1 / 2 ≤ q / 2 ^ (x.exponent - 1) := by
    rw [le_div_iff₀ (two_zpow_pos _)]
    rw [hdouble] at hge
    push_cast at hge
    linarith
  have hto : q / 2 ^ (x.exponent - 1) ≤ 0x20000000000000 := by
    rw [div_le_iff₀ (two_zpow_pos _)]
    rw [show x.exponent - 1 + 53 = 53 + (x.exponent - 1) by omega, two_zpow_add] at hbelow
    norm_num at hbelow ⊢
    exact hbelow.le
  exact ⟨rfl, hm, by push_cast; linarith, by exact_mod_cast hfrom, fun _ => rfl⟩

/-- In the unit of the magnitude a covered quotient rounds to the mantissa. -/
theorem rounds (h : x.Covers q) (hx : x.IsCanonical) : Rounds x.mantissa (q / 2 ^ x.exponent) := by
  have hunitPos := two_zpow_pos x.exponent
  refine ⟨?_, ?_, ?_⟩
  · rw [div_le_iff₀ hunitPos]
    exact h.le
  · rw [le_div_iff₀ hunitPos]
    exact (mul_le_mul_of_nonneg_right (by linarith [x.reachBelow_le]) hunitPos.le).trans h.ge
  · rw [div_eq_iff hunitPos.ne', div_eq_iff hunitPos.ne']
    rintro (heq | heq)
    · exact h.even (.inr heq)
    · by_cases hnarrow : x.narrowBelow = true
      · rw [(hx.narrow.1 hnarrow).1]
      · exact h.even (.inl (by rw [heq, reachBelow, if_neg hnarrow]))

end Magnitude.Covers

/-- A quotient that a magnitude covers rounds to the number of that magnitude. -/
theorem ofRatio?_of_covers {x : Magnitude} (hx : x.IsCanonical) (hnum : 0 < num) (hden : 0 < den)
    (hcovers : x.Covers ((num : ℚ) / den)) : ofRatio? num den = some ⟨x.bits.toUInt64⟩ := by
  obtain ⟨t, hrounds, -, -, hof⟩ := exists_rounds hnum hden
  obtain ⟨hleast, hbelow, habove⟩ := unitOf_spec hnum hden
  have hunit := hcovers.unit_le hx habove
  have hlt := hx.lt
  have hgreatest := hx.greatest
  generalize unitOf num den = unit at *
  rcases Int.lt_or_eq_of_le hunit with hless | rfl
  · obtain ⟨rfl, hm, hcarry⟩ := hcovers.rounds_carry hx hless hleast hbelow
    obtain rfl := hrounds.unique hcarry
    rw [hof, if_pos (by omega), Magnitude.bits, hm]
    congr 3
    omega
  · obtain rfl := hrounds.unique (hcovers.rounds hx)
    rw [hof, if_pos (by omega)]
    rfl

/-- Half a unit is a part of a quotient that has 53 binary digits in it, or of the least number. -/
theorem half_unit_le {unit : Int} {q : ℚ} (hq : 0 ≤ q)
    (habove : unit = -1074 ∨ 2 ^ (unit + 52) ≤ q) :
    (2 : ℚ) ^ (unit - 1) ≤ q / 2 ^ 53 + 2 ^ (-1075 : Int) := by
  rcases habove with rfl | habove
  · exact le_add_of_nonneg_left (div_nonneg hq (by norm_num))
  · refine le_trans ?_ (le_add_of_nonneg_right (two_zpow_pos _).le)
    rw [le_div_iff₀ (by norm_num)]
    refine le_trans (le_of_eq ?_) habove
    rw [show unit + 52 = unit - 1 + 53 by omega, two_zpow_add]
    rfl

/-- The nearest number is at most half a unit of the quotient away: a part of the quotient, or of
the least number. -/
theorem ofRatio?_near {r : Double} (hnum : 0 < num) (hden : 0 < den)
    (hr : ofRatio? num den = some r) :
    r.IsFinite ∧ r.isNegative = false
      ∧ |r.magnitude.value - (num : ℚ) / den| ≤ (num : ℚ) / den / 2 ^ 53 + 2 ^ (-1075 : Int) := by
  obtain ⟨t, hrounds, ht, hfull, hof⟩ := exists_rounds hnum hden
  obtain ⟨hleast, -, habove⟩ := unitOf_spec hnum hden
  have hq : (0 : ℚ) < (num : ℚ) / den := div_pos (by exact_mod_cast hnum) (by exact_mod_cast hden)
  generalize unitOf num den = unit at *
  generalize (num : ℚ) / den = q at *
  rw [hof, Option.ite_none_right_eq_some] at hr
  obtain ⟨hlt, hr⟩ := hr
  obtain ⟨hfinite, hsign, hvalue⟩ :=
    value_ofBits ht (hfull.imp_left fun h => by omega) hlt (Option.some.inj hr).symm
  rw [show (((unit + 1074).toNat : Nat) : Int) - 1074 = unit by omega] at hvalue
  refine ⟨hfinite, hsign, ?_⟩
  have hunitPos := two_zpow_pos unit
  have hround : |(t : ℚ) - q / 2 ^ unit| ≤ 1 / 2 :=
    abs_le.2 ⟨by linarith [hrounds.le], by linarith [hrounds.ge]⟩
  have hhalf : |r.magnitude.value - q| ≤ 2 ^ (unit - 1) := by
    calc |r.magnitude.value - q| = |(t : ℚ) - q / 2 ^ unit| * 2 ^ unit := by
          rw [hvalue, ← abs_of_pos hunitPos, ← abs_mul, abs_of_pos hunitPos, sub_mul,
            div_mul_cancel₀ _ hunitPos.ne']
      _ ≤ 1 / 2 * 2 ^ unit := mul_le_mul_of_nonneg_right hround hunitPos.le
      _ = 2 ^ (unit - 1) := by
          rw [show unit - 1 = -1 + unit by omega, two_zpow_add]
          norm_num
  exact hhalf.trans (half_unit_le hq.le habove)

/-- A quotient that does not round to more than the greatest number has a nearest number. -/
theorem exists_ofRatio? (hnum : 0 < num) (hden : 0 < den)
    (hlt : (num : ℚ) / den < (0x20000000000000 - 1 / 2) * 2 ^ (971 : Int)) :
    ∃ r, ofRatio? num den = some r := by
  obtain ⟨t, hrounds, ht, -, hof⟩ := exists_rounds hnum hden
  obtain ⟨hleast, -, habove⟩ := unitOf_spec hnum hden
  generalize unitOf num den = unit at *
  generalize (num : ℚ) / den = q at *
  have hunit : unit ≤ 971 := by
    refine unit_le_of_lt habove (by decide) (hlt.trans ?_)
    rw [add_comm, two_zpow_add]
    exact mul_lt_mul_of_pos_right (by norm_num) (two_zpow_pos _)
  have hfits : t + (unit + 1074).toNat * 0x10000000000000 < 0x7ff0000000000000 := by
    rcases Int.lt_or_eq_of_le hunit with hless | rfl
    · omega
    · -- In the greatest unit a carry would be infinity.
      have hmore : q / 2 ^ (971 : Int) < 0x20000000000000 - 1 / 2 := by
        rwa [div_lt_iff₀ (two_zpow_pos _)]
      have hcast : (t : ℚ) < 0x20000000000000 := by linarith [hrounds.ge]
      have : t < 0x20000000000000 := by exact_mod_cast hcast
      rw [show ((971 : Int) + 1074).toNat = 2045 from rfl]
      omega
  exact ⟨_, hof.trans (if_pos hfits)⟩

/-- A natural number of 53 binary digits is a number. -/
theorem exists_ofRatio?_natCast {n : Nat} (hpos : 0 < n) (hlt : n < 0x20000000000000) :
    ∃ r, ofRatio? n 1 = some r ∧ r.magnitude.value = n := by
  obtain ⟨t, hrounds, ht, hfull, hof⟩ := exists_rounds hpos Nat.one_pos
  obtain ⟨hleast, -, habove⟩ := unitOf_spec hpos Nat.one_pos
  rw [Nat.cast_one, div_one] at hrounds habove
  generalize unitOf n 1 = unit at *
  have hunit : unit ≤ 0 := by
    refine unit_le_of_lt habove (by decide) ?_
    norm_num
    exact_mod_cast hlt
  -- In a unit below one the quotient is an integer itself.
  have hwhole : (n : ℚ) / 2 ^ unit = (n * 2 ^ (-unit).toNat : ℕ) := by
    rw [div_eq_mul_inv, ← zpow_neg, Nat.cast_mul, Nat.cast_pow, Nat.cast_ofNat, ← zpow_natCast]
    congr 2
    omega
  rw [hwhole] at hrounds
  obtain rfl := hrounds.unique (rounds_natCast _)
  have hbits :
      n * 2 ^ (-unit).toNat + (unit + 1074).toNat * 0x10000000000000 < 0x7ff0000000000000 := by
        omega
  obtain ⟨-, -, hvalue⟩ := value_ofBits ht (hfull.imp_left fun h => by omega) hbits rfl
  refine ⟨_, hof.trans (if_pos hbits), ?_⟩
  rw [hvalue, ← hwhole, show (((unit + 1074).toNat : Nat) : Int) - 1074 = unit by omega,
    div_mul_cancel₀ _ (two_zpow_pos unit).ne']

end ApiClient.Double
