import ApiClient.Proofs.JsonNumbers

/-!
# ApiClient.Proofs.Rereading

A decimal is read by rounding more than once.

The digits are rounded, powers of ten are rounded, and so is each product or quotient of the two.
One rounding is off by a part of the quotient, or of the least number, and the errors of several add
up (`Within`). So a decimal of a finite number is never refused, except for a few of the greatest
numbers by this argument alone; these few are computed. Where nothing but the last step rounds, the
number comes back that the decimal was written for (`ofDigits?_of_covers`).
-/

namespace ApiClient

namespace Double

/-! ### Results that are rounded once -/

/-- The result of an operation is a quotient, rounded once. -/
def IsRounded (result : Option Double) (q : ℚ) : Prop :=
  ∃ num den : Nat, 0 < den ∧ (num : ℚ) / den = q ∧ result = ofRatio? num den

theorem times?_isRounded (a b : Double) :
    IsRounded (a.times? b) (a.magnitude.value * b.magnitude.value) := by
  have hden : 0 < Nat.pow 2 (-(a.magnitude.exponent + b.magnitude.exponent)).toNat :=
    Nat.pow_pos (by decide)
  refine ⟨_, _, hden, ?_, rfl⟩
  have htwo := zpow_eq_div 2 (by decide) (a.magnitude.exponent + b.magnitude.exponent)
  rw [Nat.cast_mul, Nat.cast_mul, mul_div_assoc, ← htwo, Nat.cast_ofNat, two_zpow_add,
    Magnitude.value, Magnitude.value]
  ring

theorem over?_isRounded (a : Double) {b : Double} (hb : 0 < b.magnitude.mantissa) :
    IsRounded (a.over? b) (a.magnitude.value / b.magnitude.value) := by
  have hden :
      0 < b.magnitude.mantissa * Nat.pow 2 (-(a.magnitude.exponent - b.magnitude.exponent)).toNat :=
    Nat.mul_pos hb (Nat.pow_pos (by decide))
  refine ⟨_, _, hden, ?_, rfl⟩
  have htwo := zpow_eq_div 2 (by decide) (a.magnitude.exponent - b.magnitude.exponent)
  rw [Nat.cast_mul, Nat.cast_mul, mul_div_mul_comm, ← htwo, Nat.cast_ofNat,
    sub_eq_add_neg, two_zpow_add,
    zpow_neg, Magnitude.value, Magnitude.value, mul_div_mul_comm, div_eq_mul_inv (2 ^ _)]

theorem ofRatio?_isRounded (n : Nat) : IsRounded (ofRatio? n 1) n :=
  ⟨n, 1, Nat.one_pos, by rw [Nat.cast_one, div_one], rfl⟩

namespace IsRounded

variable {result : Option Double} {q : ℚ}

theorem of_covers (h : IsRounded result q) {x : Magnitude} (hx : x.IsCanonical) (hq : 0 < q)
    (hcovers : x.Covers q) : result = some ⟨x.bits.toUInt64⟩ := by
  obtain ⟨num, den, hden, rfl, rfl⟩ := h
  have hnum : 0 < num := by
    refine Nat.pos_of_ne_zero fun hzero => hq.ne' ?_
    rw [hzero, Nat.cast_zero, zero_div]
  exact ofRatio?_of_covers hx hnum hden hcovers

/-- A quotient that does not round to more than the greatest number has a nearest number. -/
theorem exists_near (h : IsRounded result q)
    (hlt : q < (0x20000000000000 - 1 / 2) * 2 ^ (971 : Int)) :
    ∃ r, result = some r ∧ r.IsFinite ∧ r.isNegative = false
      ∧ |r.magnitude.value - q| ≤ q / 2 ^ 53 + 2 ^ (-1075 : Int) := by
  obtain ⟨num, den, hden, rfl, rfl⟩ := h
  rcases Nat.eq_zero_or_pos num with rfl | hnum
  · have hzero : (⟨0⟩ : Double).magnitude.value = 0 := by
      rw [Magnitude.value, show (⟨0⟩ : Double).magnitude.mantissa = 0 from rfl,
        Nat.cast_zero, zero_mul]
    refine ⟨⟨0⟩, rfl, by decide, rfl, ?_⟩
    rw [hzero, Nat.cast_zero, zero_div, sub_zero, abs_zero, zero_div, zero_add]
    exact (two_zpow_pos _).le
  · obtain ⟨r, hr⟩ := exists_ofRatio? hnum hden hlt
    exact ⟨r, hr, ofRatio?_near hnum hden hr⟩

end IsRounded

/-! ### Errors -/

/-- The number is off by at most `n` roundings. -/
def Within (n : Nat) (a q : ℚ) : Prop := |a - q| ≤ n * (q / 2 ^ 53 + 2 ^ (-1075 : Int))

variable {a b c q : ℚ} {m n : Nat}

theorem IsRounded.exists_within {result : Option Double} (h : IsRounded result q)
    (hlt : q < (0x20000000000000 - 1 / 2) * 2 ^ (971 : Int)) :
    ∃ r, result = some r ∧ r.IsFinite ∧ r.isNegative = false ∧ Within 1 r.magnitude.value q := by
  obtain ⟨r, hr, hfinite, hsign, herror⟩ := h.exists_near hlt
  refine ⟨r, hr, hfinite, hsign, ?_⟩
  rw [Within, Nat.cast_one, one_mul]
  exact herror

theorem Within.mono (h : Within m a q) (hq : 0 ≤ q) (hle : m ≤ n) : Within n a q := by
  refine le_trans h (mul_le_mul_of_nonneg_right (by exact_mod_cast hle) ?_)
  exact add_nonneg (div_nonneg hq (by norm_num)) (two_zpow_pos _).le

/-- Errors of a chain add up, and one more rounding covers their product. -/
theorem Within.trans (hab : Within m a b) (hbc : Within n b c) (hc : 0 ≤ c) (hmn : m * n ≤ 2 ^ 53) :
    Within (m + n + 1) a c := by
  unfold Within at *
  have hleast := two_zpow_pos (-1075)
  generalize (2 : ℚ) ^ (-1075 : Int) = least at *
  have hunit : 0 ≤ c / 2 ^ 53 + least := by positivity
  have hb : b ≤ c + n * (c / 2 ^ 53 + least) := by linarith [(abs_le.1 hbc).2]
  have hcross : (m : ℚ) * n * (c / 2 ^ 53 + least) / 2 ^ 53 ≤ c / 2 ^ 53 + least := by
    rw [div_le_iff₀ (by norm_num), mul_comm _ ((2 : ℚ) ^ 53)]
    exact mul_le_mul_of_nonneg_right (by exact_mod_cast hmn) hunit
  have hstep :
      (m : ℚ) * (b / 2 ^ 53 + least) ≤ m * ((c + n * (c / 2 ^ 53 + least)) / 2 ^ 53 + least) := by
    gcongr
  calc |a - c| ≤ |a - b| + |b - c| := abs_sub_le a b c
    _ ≤ m * ((c + n * (c / 2 ^ 53 + least)) / 2 ^ 53 + least) + n * (c / 2 ^ 53 + least) :=
        add_le_add (hab.trans hstep) hbc
    _ = m * (c / 2 ^ 53 + least) + m * n * (c / 2 ^ 53 + least) / 2 ^ 53
          + n * (c / 2 ^ 53 + least) := by ring
    _ ≤ (m + n + 1 : Nat) * (c / 2 ^ 53 + least) := by
        push_cast
        linarith

/-- The number is off by at most two parts of the quotient. That is one rounding, if the quotient is
not below one. -/
def Near (p t : ℚ) : Prop := |p - t| ≤ 2 * t / 2 ^ 53

theorem Near.of_one_le {p t : ℚ} (h : |p - t| ≤ t / 2 ^ 53 + 2 ^ (-1075 : Int)) (ht : 1 ≤ t) :
    Near p t := by
  have hleast : (2 : ℚ) ^ (-1075 : Int) ≤ 1 / 2 ^ 53 := by
    rw [one_div, ← zpow_natCast, ← zpow_neg]
    exact two_zpow_le (by decide)
  have hone : 1 / (2 : ℚ) ^ 53 ≤ t / 2 ^ 53 := div_le_div_of_nonneg_right ht (by norm_num)
  refine h.trans ?_
  rw [two_mul, add_div]
  linarith

theorem Near.half_le {p t : ℚ} (h : Near p t) (ht : 0 ≤ t) : t / 2 ≤ p := by
  have hge := (abs_le.1 h).1
  norm_num at hge
  linarith

theorem Near.pos {p t : ℚ} (h : Near p t) (ht : 0 < t) : 0 < p := by
  linarith [h.half_le ht.le]

theorem Near.ratio_near_one {p t : ℚ} (h : Near p t) (ht : 0 < t) : |t / p - 1| ≤ 4 / 2 ^ 53 := by
  have hpPos := h.pos ht
  have hhalf := h.half_le ht.le
  rw [div_sub_one hpPos.ne', abs_div, abs_of_pos hpPos, div_le_iff₀ hpPos, abs_sub_comm]
  refine h.trans ?_
  norm_num
  linarith

/-- A product of what is off. -/
theorem Near.mul {p t : ℚ} (ha : Near a q) (hp : Near p t) (hq : 0 ≤ q) (ht : 0 ≤ t) :
    |a * p - q * t| ≤ 5 * (q * t) / 2 ^ 53 := by
  have hqt := mul_nonneg hq ht
  have hsplit : a * p - q * t = (a - q) * (p - t) + (a - q) * t + q * (p - t) := by ring
  have hfirst : |(a - q) * (p - t)| ≤ 2 * q / 2 ^ 53 * (2 * t / 2 ^ 53) := by
    rw [abs_mul]
    exact mul_le_mul ha hp (abs_nonneg _) (by positivity)
  have hsecond : |(a - q) * t| ≤ 2 * q / 2 ^ 53 * t := by
    rw [abs_mul, abs_of_nonneg ht]
    exact mul_le_mul_of_nonneg_right ha ht
  have hthird : |q * (p - t)| ≤ q * (2 * t / 2 ^ 53) := by
    rw [abs_mul, abs_of_nonneg hq]
    exact mul_le_mul_of_nonneg_left hp hq
  rw [hsplit]
  refine (abs_add_three _ _ _).trans ((add_le_add (add_le_add hfirst hsecond) hthird).trans ?_)
  norm_num
  linarith

/-- A quotient of what is off. -/
theorem Within.div {p t : ℚ} (ha : Within n a q) (hp : Near p t) (hq : 0 ≤ q) (ht : 1 ≤ t)
    (hn : n ≤ 2 ^ 50) : Within (n + 5) (a / p) (q / t) := by
  have htPos : 0 < t := zero_lt_one.trans_le ht
  have hpPos := hp.pos htPos
  have hratio := hp.ratio_near_one htPos
  unfold Within at *
  have hleast := two_zpow_pos (-1075)
  generalize (2 : ℚ) ^ (-1075 : Int) = least at *
  have hunit : 0 ≤ q / 2 ^ 53 + least := by positivity
  have hsplit : a / p - q / t = ((a - q) * (t / p) + q * (t / p - 1)) / t := by
    field_simp
    ring
  have hfirst : |(a - q) * (t / p)| ≤ n * (q / 2 ^ 53 + least) * (1 + 4 / 2 ^ 53) := by
    rw [abs_mul]
    refine mul_le_mul ha ?_ (abs_nonneg _) (by positivity)
    rw [abs_of_pos (div_pos htPos hpPos)]
    linarith [(abs_le.1 hratio).2]
  have hsecond : |q * (t / p - 1)| ≤ q * (4 / 2 ^ 53) := by
    rw [abs_mul, abs_of_nonneg hq]
    exact mul_le_mul_of_nonneg_left hratio hq
  have hsum : |(a - q) * (t / p) + q * (t / p - 1)| ≤ (n + 5 : Nat) * (q / 2 ^ 53 + least) := by
    have hcross : n * (q / 2 ^ 53 + least) * (4 / 2 ^ 53) ≤ q / 2 ^ 53 + least := by
      have hcount : (n : ℚ) * (4 / 2 ^ 53) ≤ 1 := by
        have hcast : (n : ℚ) ≤ 2 ^ 50 := by exact_mod_cast hn
        rw [← le_div_iff₀ (by norm_num)]
        exact hcast.trans (by norm_num)
      calc n * (q / 2 ^ 53 + least) * (4 / 2 ^ 53)
        _ = n * (4 / 2 ^ 53) * (q / 2 ^ 53 + least) := by ring
        _ ≤ 1 * (q / 2 ^ 53 + least) := mul_le_mul_of_nonneg_right hcount hunit
        _ = q / 2 ^ 53 + least := one_mul _
    have hquarter : q * (4 / 2 ^ 53) ≤ 4 * (q / 2 ^ 53 + least) := by
      calc q * (4 / 2 ^ 53) = 4 * (q / 2 ^ 53) := by ring
        _ ≤ 4 * (q / 2 ^ 53 + least) := by linarith
    refine (abs_add_le _ _).trans ((add_le_add hfirst hsecond).trans ?_)
    push_cast
    linarith
  rw [hsplit, abs_div, abs_of_pos htPos, div_le_iff₀ htPos]
  refine hsum.trans ?_
  rw [mul_assoc, add_mul, div_mul_eq_mul_div, div_mul_cancel₀ _ htPos.ne']
  exact mul_le_mul_of_nonneg_left (by linarith [le_mul_of_one_le_right hleast.le ht])
    (Nat.cast_nonneg _)

/-! ### Powers of ten -/

theorem IsRounded.exists_near_of_one_le {result : Option Double} (h : IsRounded result q)
    (hq : 1 ≤ q) (hlt : q < (0x20000000000000 - 1 / 2) * 2 ^ (971 : Int)) :
    ∃ r, result = some r ∧ 0 < r.magnitude.mantissa ∧ Near r.magnitude.value q := by
  obtain ⟨r, hr, -, -, herror⟩ := h.exists_near hlt
  have hnear := Near.of_one_le herror hq
  refine ⟨r, hr, Nat.pos_of_ne_zero fun hzero => ?_, hnear⟩
  have hvalue : r.magnitude.value = 0 := by
    rw [Magnitude.value, hzero, Nat.cast_zero, zero_mul]
  exact (hnear.pos (zero_lt_one.trans_le hq)).ne' hvalue

theorem ten_pow_lt : (10 : ℚ) ^ 308 < (0x20000000000000 - 1 / 2) * 2 ^ (971 : Int) := by
  have h : compareScaled 1 308 0x3fffffffffffff 970 = .lt := by decide +kernel
  rw [compareScaled_lt, Nat.cast_one, one_mul] at h
  rw [show (971 : Int) = 1 + 970 from rfl, two_zpow_add, ← zpow_natCast]
  refine h.trans_eq ?_
  generalize (2 : ℚ) ^ (970 : Int) = unit
  norm_num
  ring

theorem tenPow_near {k : Nat} (h : k ≤ 308) :
    0 < (tenPow k).magnitude.mantissa ∧ Near (tenPow k).magnitude.value (10 ^ k) := by
  have hone : (1 : ℚ) ≤ 10 ^ k := one_le_pow₀ (by norm_num)
  have hrounded := ofRatio?_isRounded (Nat.pow 10 k)
  rw [Nat.pow_eq, Nat.cast_pow, Nat.cast_ofNat] at hrounded
  obtain ⟨r, hr, hpos, hnear⟩ := hrounded.exists_near_of_one_le hone
    (lt_of_le_of_lt (pow_le_pow_right₀ (by norm_num) h) ten_pow_lt)
  rw [tenPow, Nat.pow_eq, hr]
  exact ⟨hpos, hnear⟩

/-- The first powers of ten are exact. -/
theorem value_tenPow {k : Nat} (h : k ≤ 22) : (tenPow k).magnitude.value = 10 ^ k := by
  have hall :
      ∀ k : Fin 23,
        compareScaled 1 k (tenPow k).magnitude.mantissa (tenPow k).magnitude.exponent = .eq := by
    decide +kernel
  have hexact := compareScaled_iff_eq.1 (hall ⟨k, Nat.lt_succ_of_le h⟩)
  rw [Nat.cast_one, one_mul, zpow_natCast] at hexact
  exact hexact.symm

/-! ### Moved digits -/

/-- The quotient of a moderate number and a power of ten is off by one rounding more. -/
theorem exists_over?_tenPow {a : Double} {k : Nat} (ha : Within n a.magnitude.value q)
    (hk : k ≤ 308) (hq : 0 ≤ q) (hmax : q ≤ 10 ^ 18) (hn : n ≤ 100) :
    ∃ r, a.over? (tenPow k) = some r ∧ r.IsFinite ∧ r.isNegative = false
      ∧ Within (n + 7) r.magnitude.value (q / 10 ^ k) := by
  obtain ⟨hpos, hnear⟩ := tenPow_near hk
  have hone : (1 : ℚ) ≤ 10 ^ k := one_le_pow₀ (by norm_num)
  have hquotient := ha.div hnear hq hone (hn.trans (by decide))
  have hless : q / 10 ^ k ≤ 10 ^ 18 := (div_le_self hq hone).trans hmax
  have hnonneg : 0 ≤ q / 10 ^ k := div_nonneg hq (zero_le_one.trans hone)
  generalize q / 10 ^ k = moved at *
  have hbound :
      a.magnitude.value / (tenPow k).magnitude.value <
        (0x20000000000000 - 1 / 2) * 2 ^ (971 : Int) := by
    have hle := (abs_le.1 hquotient).2
    have hleast : (2 : ℚ) ^ (-1075 : Int) ≤ 1 := zpow_le_one_of_nonpos₀ (by norm_num) (by decide)
    have hcount : ((n + 5 : Nat) : ℚ) ≤ 105 := by exact_mod_cast Nat.add_le_add_right hn 5
    have herror :
        ((n + 5 : Nat) : ℚ) * (moved / 2 ^ 53 + 2 ^ (-1075 : Int)) ≤
          105 * (10 ^ 18 / 2 ^ 53 + 1) := by
      gcongr
    have hsmall : (10 : ℚ) ^ 19 ≤ 10 ^ 308 := pow_le_pow_right₀ (by norm_num) (by decide)
    have hsum : (10 : ℚ) ^ 18 + 105 * (10 ^ 18 / 2 ^ 53 + 1) ≤ 10 ^ 19 := by norm_num
    exact lt_of_le_of_lt ((by linarith : _ ≤ (10 : ℚ) ^ 19).trans hsmall) ten_pow_lt
  obtain ⟨r, hr, hfinite, hsign, hrounding⟩ := (over?_isRounded a hpos).exists_within hbound
  exact ⟨r, hr, hfinite, hsign,
    (hrounding.trans hquotient hnonneg (by omega)).mono hnonneg (by omega)⟩

theorem exists_digits {n : Nat} (hpos : 0 < n) (hlt : n < 10 ^ 18) :
    ∃ a, ofRatio? n 1 = some a ∧ 0 < a.magnitude.mantissa ∧ Near a.magnitude.value n := by
  have hone : (1 : ℚ) ≤ n := by exact_mod_cast hpos
  have hsmall : (n : ℚ) ≤ 10 ^ 308 := by
    exact_mod_cast hlt.le.trans (Nat.pow_le_pow_right (by decide) (by decide))
  exact (ofRatio?_isRounded n).exists_near_of_one_le hone (hsmall.trans_lt ten_pow_lt)

theorem Near.within {p t : ℚ} (h : Near p t) : Within 2 p t := by
  refine le_trans h ?_
  have := two_zpow_pos (-1075)
  rw [mul_div_assoc, Nat.cast_ofNat]
  linarith

theorem shift?_up (a : Double) {k : Nat} (hk : k ≤ 308) : a.shift? k = a.times? (tenPow k) := by
  rw [shift?, if_neg (by omega)]
  simp only [Int.natAbs_natCast]
  exact if_pos hk

theorem shift?_down (a : Double) {k : Nat} (hpos : 0 < k) (hk : k ≤ 308) :
    a.shift? (-k) = a.over? (tenPow k) := by
  have hsteps : (k - 1) / maxTenPow = 0 := Nat.div_eq_of_lt (by show k - 1 < 308; omega)
  rw [shift?, if_pos (by omega)]
  simp only [Int.natAbs_neg, Int.natAbs_natCast, hsteps, Nat.zero_mul, Nat.sub_zero]
  rfl

theorem shift?_down_twice {a b : Double} (ha : 0 < a.magnitude.mantissa)
    (hb : a.over? (tenPow 308) = some b) {k : Nat} (hpos : 308 < k) (hk : k ≤ 616) :
    a.shift? (-k) = b.over? (tenPow (k - 308)) := by
  have hsteps : (k - 1) / maxTenPow = 1 := by
    rw [maxTenPow]
    omega
  have hsome : ¬ (a.bits == 0) = true := by
    intro hzero
    have hbits : a = ⟨0⟩ := congrArg Double.mk (eq_of_beq hzero)
    rw [hbits] at ha
    exact absurd ha (by decide)
  rw [shift?, if_pos (by omega)]
  simp only [Int.natAbs_neg, Int.natAbs_natCast, hsteps, Nat.one_mul, descend, if_neg hsome]
  rw [maxTenPow, hb]
  rfl

/-- Digits that are moved down are divided once, or twice where the power of ten would be too
great. -/
theorem exists_shift?_down {a : Double} {k : Nat} (hpos : 0 < a.magnitude.mantissa)
    (hnear : Near a.magnitude.value q) (hq : 0 ≤ q) (hmax : q ≤ 10 ^ 18) (hdown : 0 < k)
    (hk : k ≤ 616) :
    ∃ r, a.shift? (-k) = some r ∧ r.IsFinite ∧ r.isNegative = false
      ∧ Within 16 r.magnitude.value (q / 10 ^ k) := by
  by_cases honce : k ≤ 308
  · obtain ⟨r, hr, hfinite, hsign, herror⟩ :=
      exists_over?_tenPow hnear.within honce hq hmax (by decide)
    exact ⟨r, (shift?_down a hdown honce).trans hr, hfinite, hsign,
      herror.mono (by positivity) (by decide)⟩
  · obtain ⟨b, hb, -, -, herrorFirst⟩ :=
      exists_over?_tenPow hnear.within (Nat.le_refl 308) hq hmax (by decide)
    have hmoved : q / 10 ^ 308 ≤ 10 ^ 18 := (div_le_self hq (one_le_pow₀ (by norm_num))).trans hmax
    obtain ⟨r, hr, hfinite, hsign, herror⟩ :=
      exists_over?_tenPow herrorFirst (show k - 308 ≤ 308 by omega)
        (div_nonneg hq (pow_nonneg (by norm_num) _)) hmoved (by decide)
    refine ⟨r, (shift?_down_twice hpos hb (by omega) hk).trans hr, hfinite, hsign, ?_⟩
    rw [div_div, ← pow_add, Nat.add_sub_cancel' (by omega)] at herror
    exact herror

/-- Digits that are moved up are multiplied once. -/
theorem exists_shift?_up {a : Double} {k : Nat} (hnear : Near a.magnitude.value q) (hq : 0 ≤ q)
    (hk : k ≤ 308) (hmax : q * 10 ^ k ≤ (0x20000000000000 - 13 / 2) * 2 ^ (971 : Int)) :
    ∃ r, a.shift? k = some r ∧ r.IsFinite ∧ r.isNegative = false
      ∧ Within 16 r.magnitude.value (q * 10 ^ k) := by
  have hten : (0 : ℚ) ≤ 10 ^ k := pow_nonneg (by norm_num) _
  have hproduct := hnear.mul (tenPow_near hk).2 hq hten
  have htimes := mul_nonneg hq hten
  generalize q * 10 ^ k = moved at *
  have hfits :
      a.magnitude.value * (tenPow k).magnitude.value <
        (0x20000000000000 - 1 / 2) * 2 ^ (971 : Int) := by
    have hle := (abs_le.1 hproduct).2
    have := two_zpow_pos 971
    generalize (2 : ℚ) ^ (971 : Int) = unit at *
    norm_num at hle hmax ⊢
    linarith
  obtain ⟨r, hr, hfinite, hsign, hrounding⟩ := (times?_isRounded a (tenPow k)).exists_within hfits
  have hfirst : Within 5 (a.magnitude.value * (tenPow k).magnitude.value) moved := by
    refine hproduct.trans ?_
    have := two_zpow_pos (-1075)
    rw [mul_div_assoc, Nat.cast_ofNat]
    linarith
  exact ⟨r, (shift?_up a hk).trans hr, hfinite, hsign,
    (hrounding.trans hfirst htimes (by decide)).mono htimes (by decide)⟩

/-- A decimal that is well below the power of two beyond all numbers is read, and what it is read as
is off by a few roundings. -/
theorem exists_ofDigits? {n : Nat} {s : Int} (hpos : 0 < n) (hlt : n < 10 ^ 18) (hlow : -616 ≤ s)
    (hhigh : s ≤ 308) (hmax : (n : ℚ) * 10 ^ s ≤ (0x20000000000000 - 13 / 2) * 2 ^ (971 : Int)) :
    ∃ r, ofDigits? n s = some r ∧ r.IsFinite ∧ r.isNegative = false
      ∧ Within 16 r.magnitude.value (n * 10 ^ s) := by
  obtain ⟨a, ha, haPos, hnear⟩ := exists_digits hpos hlt
  rw [ofDigits?, ha, Option.bind_some]
  have hnonneg : (0 : ℚ) ≤ n := Nat.cast_nonneg n
  rcases Int.lt_or_le s 0 with hdown | hup
  · obtain ⟨k, rfl⟩ : ∃ k : Nat, s = -k := ⟨s.natAbs, by omega⟩
    have hmost : (n : ℚ) ≤ 10 ^ 18 := by exact_mod_cast hlt.le
    rw [zpow_neg, zpow_natCast, ← div_eq_mul_inv]
    exact exists_shift?_down haPos hnear hnonneg hmost (by omega) (by omega)
  · obtain ⟨k, rfl⟩ := Int.eq_ofNat_of_zero_le hup
    rw [zpow_natCast] at hmax ⊢
    exact exists_shift?_up hnear hnonneg (by omega) hmax

/-- Few digits that are moved by a few places are rounded by the last step alone, and that gives the
number that covers the decimal. -/
theorem ofDigits?_of_covers {x : Magnitude} (hx : x.IsCanonical) {n : Nat} {s : Int} (hpos : 0 < n)
    (hlt : n < 0x20000000000000) (hplaces : s.natAbs ≤ 22) (hcovers : x.Covers (n * 10 ^ s)) :
    ofDigits? n s = some ⟨x.bits.toUInt64⟩ := by
  obtain ⟨a, ha, hvalue⟩ := exists_ofRatio?_natCast hpos hlt
  have hq : (0 : ℚ) < n * 10 ^ s := mul_pos (by exact_mod_cast hpos) (ten_zpow_pos s)
  rw [ofDigits?, ha, Option.bind_some]
  rcases Int.lt_or_le s 0 with hdown | hup
  · obtain ⟨k, rfl⟩ : ∃ k : Nat, s = -k := ⟨s.natAbs, by omega⟩
    have hquotient : a.magnitude.value / (tenPow k).magnitude.value = n * 10 ^ (-(k : Int)) := by
      rw [hvalue, value_tenPow (by omega), zpow_neg, zpow_natCast, div_eq_mul_inv]
    have hrounded := over?_isRounded a (tenPow_near (k := k) (by omega)).1
    rw [hquotient] at hrounded
    rw [shift?_down a (by omega) (by omega)]
    exact hrounded.of_covers hx hq hcovers
  · obtain ⟨k, rfl⟩ := Int.eq_ofNat_of_zero_le hup
    have hrounded := times?_isRounded a (tenPow k)
    rw [hvalue, value_tenPow (by omega), ← zpow_natCast] at hrounded
    rw [shift?_up a (by omega)]
    exact hrounded.of_covers hx hq hcovers

/-! ### Written numbers -/

/-- A decimal is laid out without a change of its value. -/
theorem value_asRead (d : Decimal) : d.asRead.value = d.value := by
  unfold Decimal.asRead
  split
  · next h =>
      obtain ⟨k, hk⟩ := Int.eq_ofNat_of_zero_le h.1
      rw [Decimal.value, Decimal.value, hk, Int.toNat_natCast]
      push_cast
      rw [zpow_neg_one, zpow_natCast]
      field_simp
  · rfl

/-- The digits that are read are those of the decimal, or some zeros more up to the seventeenth. -/
theorem asRead_bounds {x : Magnitude} {d : Decimal} (h : x.IsWritten d) : 0 < d.asRead.digits
    ∧ d.asRead.digits < 10 ^ 18 ∧ -341 ≤ d.asRead.exponent ∧ d.asRead.exponent ≤ 308 := by
  have hpos := h.pos
  have hlt := h.lt
  unfold Decimal.asRead
  split
  · next hwhole =>
      have hbound := Json.Reader.lt_pow_length_toDigits d.digits
      have hfits : d.digits * 10 ^ d.exponent.toNat < 10 ^ 16 := by
        refine Nat.lt_of_lt_of_le (Nat.mul_lt_mul_of_pos_right hbound (by positivity)) ?_
        rw [← Nat.pow_add]
        exact Nat.pow_le_pow_right (by decide) (by omega)
      have hsome : 0 < d.digits * 10 ^ d.exponent.toNat := by positivity
      exact ⟨by simp only; omega, by simp only; omega, by simp only; omega, by simp only; omega⟩
  · exact ⟨hpos, by omega, h.least, h.greatest⟩

/-- A covered value is off by one rounding. -/
theorem Magnitude.Covers.within {x : Magnitude} {q : ℚ} (h : x.Covers q) (hx : x.IsCanonical) :
    Within 1 q x.value := by
  have hunit := two_zpow_pos x.exponent
  have hhalf : |q - x.value| ≤ 2 ^ (x.exponent - 1) := by
    have hdouble : (2 : ℚ) ^ (x.exponent - 1) = 1 / 2 * 2 ^ x.exponent := by
      rw [sub_eq_add_neg, add_comm, two_zpow_add]
      norm_num
    have hreach := mul_le_mul_of_nonneg_right x.reachBelow_le hunit.le
    have hge := h.ge
    have hle := h.le
    rw [Magnitude.value, hdouble, abs_le]
    exact ⟨by linarith, by linarith⟩
  rw [Within, Nat.cast_one, one_mul]
  refine hhalf.trans (half_unit_le x.value_nonneg (hx.full.imp_right fun hfull => ?_))
  have hcast : (0x10000000000000 : ℚ) ≤ x.mantissa := by exact_mod_cast hfull
  calc (2 : ℚ) ^ (x.exponent + 52) = 0x10000000000000 * 2 ^ x.exponent := by
        rw [add_comm, two_zpow_add]
        norm_num
    _ ≤ x.mantissa * 2 ^ x.exponent := mul_le_mul_of_nonneg_right hcast hunit.le

/-- The greatest numbers, of which the errors alone do not say that they are read. -/
theorem exists_ofDigits?_top {x : Magnitude} (hx : x.IsCanonical) (htop : x.exponent = 971)
    (hlow : 0x1ffffffffffffa ≤ x.mantissa) :
    ∃ r, ofDigits? x.shortest.asRead.digits x.shortest.asRead.exponent = some r
      ∧ r.IsFinite ∧ r.isNegative = false ∧ Within 18 r.magnitude.value x.value := by
  have hall :
      ∀ i : Fin 6,
        ∃ r ∈ ofDigits? (Magnitude.shortest ⟨0x1ffffffffffffa + i, 971, false⟩).asRead.digits
      (Magnitude.shortest ⟨0x1ffffffffffffa + i, 971, false⟩).asRead.exponent,
      r.IsFinite ∧ r.isNegative = false ∧ r.magnitude.exponent = 971
        ∧ 0x1ffffffffffffa ≤ r.magnitude.mantissa := by
    decide +kernel
  have hlt := hx.lt
  have hshape : x = ⟨0x1ffffffffffffa + (x.mantissa - 0x1ffffffffffffa), 971, false⟩ := by
    have hnarrow : x.narrowBelow = false := by
      rw [← Bool.not_eq_true, hx.narrow]
      omega
    rw [Nat.add_sub_cancel' hlow, ← htop, ← hnarrow]
  obtain ⟨r, hr, hfinite, hsign, hexponent, hmantissa⟩ :=
    hall ⟨x.mantissa - 0x1ffffffffffffa, by omega⟩
  rw [← hshape] at hr
  refine ⟨r, hr, hfinite, hsign, ?_⟩
  have hunit := two_zpow_pos 971
  have hless := hfinite.isCanonical.lt
  have hlowCast : (0x1ffffffffffffa : ℚ) ≤ x.mantissa := by exact_mod_cast hlow
  have hltCast : (x.mantissa : ℚ) < 0x20000000000000 := by exact_mod_cast hlt
  have hmantissaCast : (0x1ffffffffffffa : ℚ) ≤ r.magnitude.mantissa := by exact_mod_cast hmantissa
  have hlessCast : (r.magnitude.mantissa : ℚ) < 0x20000000000000 := by exact_mod_cast hless
  have hdistance : |(r.magnitude.mantissa : ℚ) - x.mantissa| ≤ 6 :=
    abs_le.2 ⟨by linarith, by linarith⟩
  unfold Within
  rw [Magnitude.value, Magnitude.value, hexponent, htop, ← sub_mul, abs_mul, abs_of_pos hunit,
    Nat.cast_ofNat]
  calc |(r.magnitude.mantissa : ℚ) - x.mantissa| * 2 ^ (971 : Int)
    _ ≤ 18 * (x.mantissa / 2 ^ 53) * 2 ^ (971 : Int) := by
        refine mul_le_mul_of_nonneg_right (hdistance.trans ?_) hunit.le
        norm_num
        linarith
    _ = 18 * (x.mantissa * 2 ^ (971 : Int) / 2 ^ 53) := by ring
    _ ≤ 18 * (x.mantissa * 2 ^ (971 : Int) / 2 ^ 53 + 2 ^ (-1075 : Int)) :=
        mul_le_mul_of_nonneg_left (le_add_of_nonneg_right (two_zpow_pos _).le) (by norm_num)

/-- The decimal of a number is read, and what it is read as is off by a few roundings. -/
theorem exists_ofDigits?_shortest {x : Magnitude} (hx : x.IsCanonical) (hpos : 0 < x.mantissa) :
    ∃ r, ofDigits? x.shortest.asRead.digits x.shortest.asRead.exponent = some r
      ∧ r.IsFinite ∧ r.isNegative = false ∧ Within 18 r.magnitude.value x.value := by
  by_cases htop : x.exponent = 971 ∧ 0x1ffffffffffffa ≤ x.mantissa
  · exact exists_ofDigits?_top hx htop.1 htop.2
  · have hwritten := isWritten_shortest hx hpos
    obtain ⟨hdigits, hlt, hlow, hhigh⟩ := asRead_bounds hwritten
    have hvalue := value_asRead x.shortest
    have hmax : x.shortest.value ≤ (0x20000000000000 - 13 / 2) * 2 ^ (971 : Int) := by
      refine hwritten.covers.le.trans ?_
      have hless := hx.lt
      have hgreatest := hx.greatest
      rcases Int.lt_or_eq_of_le hgreatest with hbelow | heq
      · have hcast : (x.mantissa : ℚ) < 0x20000000000000 := by exact_mod_cast hless
        calc ((x.mantissa : ℚ) + 1 / 2) * 2 ^ x.exponent
          _ ≤ (0x20000000000000 + 1 / 2) * 2 ^ (970 : Int) :=
              mul_le_mul (by linarith) (two_zpow_le (by omega)) (two_zpow_pos _).le (by norm_num)
          _ = (0x20000000000000 + 1 / 2) / 2 * 2 ^ (971 : Int) := by
              rw [show (971 : Int) = 1 + 970 from rfl, two_zpow_add]
              ring
          _ ≤ (0x20000000000000 - 13 / 2) * 2 ^ (971 : Int) :=
              mul_le_mul_of_nonneg_right (by norm_num) (two_zpow_pos _).le
      · have hcast : (x.mantissa : ℚ) + 1 ≤ 0x1ffffffffffffa := by
          exact_mod_cast Nat.lt_of_not_le fun h => htop ⟨heq, h⟩
        rw [heq]
        exact mul_le_mul_of_nonneg_right (by linarith) (two_zpow_pos _).le
    rw [Decimal.value] at hvalue
    rw [← hvalue] at hmax
    obtain ⟨r, hr, hfinite, hsign, herror⟩ := exists_ofDigits? hdigits hlt (by omega) hhigh hmax
    refine ⟨r, hr, hfinite, hsign, ?_⟩
    rw [hvalue] at herror
    have hboth := herror.trans (hwritten.covers.within hx) x.value_nonneg (by decide)
    exact hboth

/-! ### Signs -/

/-- The number without its sign. -/
def unsigned (d : Double) : Double := ⟨d.magnitude.bits.toUInt64⟩

theorem negate_bits {d : Double} (h : d.isNegative = false) :
    d.negate.bits.toNat = d.bits.toNat + 0x8000000000000000 := by
  have hlt : d.bits.toNat < 2 ^ 63 := by
    have hsign := d.isNegative_iff
    rw [h] at hsign
    exact Nat.lt_of_not_le fun hle => absurd (hsign.2 hle) Bool.false_ne_true
  rw [negate, UInt64.toNat_or]
  show d.bits.toNat ||| 2 ^ 63 * 1 = _
  rw [Nat.or_comm, ← Nat.two_pow_add_eq_or_of_lt hlt]
  omega

/-- Sign and magnitude make up a number. -/
theorem signed_unsigned (d : Double) :
    (if d.isNegative then d.unsigned.negate else d.unsigned) = d := by
  have hbits := d.toNat_bits
  have hlt := d.bits.toNat_lt
  have hunsigned : d.magnitude.bits < 0x8000000000000000 := by
    by_cases h : d.isNegative = true
    · rw [if_pos h] at hbits
      omega
    · rw [d.isNegative_iff] at h
      omega
  have hvalue : d.unsigned.bits.toNat = d.magnitude.bits :=
    UInt64.toNat_ofNat_of_lt (Nat.lt_trans hunsigned (by decide))
  have hext {a : Double} (h : a.bits.toNat = d.bits.toNat) : a = d :=
    congrArg Double.mk (UInt64.toNat_inj.1 h)
  split
  · next hneg =>
      rw [if_pos hneg] at hbits
      have hplus : d.unsigned.isNegative = false := by
        rw [← Bool.not_eq_true, isNegative_iff, hvalue]
        omega
      refine hext ?_
      rw [negate_bits hplus, hvalue, hbits, Nat.add_comm]
  · next hneg =>
      rw [if_neg hneg] at hbits
      exact hext (by rw [hvalue, hbits, Nat.zero_add])

theorem unsigned_of_zero {d : Double} (hd : d.IsFinite) (hzero : d.magnitude.mantissa = 0) :
    d.unsigned = ⟨0⟩ := by
  have hexponent := hd.isCanonical.full.resolve_right (by omega)
  rw [unsigned, Magnitude.bits, hzero, hexponent]
  rfl

/-! ### Reading a written number -/

/-- The number that the text of a number is read as. -/
def reread (d : Double) : Double :=
  let r := (ofDigits? d.asRead.digits d.asRead.exponent).getD ⟨0⟩
  if d.isNegative then r.negate else r

/-- The rational number that a finite number stands for. -/
def value (d : Double) : ℚ := if d.isNegative then -d.magnitude.value else d.magnitude.value

/-- The text has few digits and few places: so few that all but the last step of reading it are
exact. -/
def IsShort (d : Double) : Prop :=
  d.asRead.digits < 0x20000000000000 ∧ d.asRead.exponent.natAbs ≤ 22

instance (d : Double) : Decidable d.IsShort := inferInstanceAs (Decidable (_ ∧ _))

/-- The text of a finite number is never refused. -/
theorem exists_ofDigits?_asRead {d : Double} (hd : d.IsFinite) :
    ∃ r, ofDigits? d.asRead.digits d.asRead.exponent = some r ∧ r.IsFinite ∧ r.isNegative = false
      ∧ Within 18 r.magnitude.value d.magnitude.value := by
  by_cases hzero : d.magnitude.mantissa = 0
  · refine ⟨⟨0⟩, ?_, by decide, rfl, ?_⟩
    · rw [asRead, if_pos hzero]
      rfl
    · have hvalue : d.magnitude.value = 0 := by rw [Magnitude.value, hzero, Nat.cast_zero, zero_mul]
      have hnone : (⟨0⟩ : Double).magnitude.value = 0 := by
        rw [Magnitude.value, show (⟨0⟩ : Double).magnitude.mantissa = 0 from rfl,
          Nat.cast_zero, zero_mul]
      rw [Within, hvalue, hnone, sub_zero, abs_zero, zero_div, zero_add]
      exact mul_nonneg (Nat.cast_nonneg _) (two_zpow_pos _).le
  · rw [asRead, if_neg hzero]
    exact exists_ofDigits?_shortest hd.isCanonical (Nat.pos_of_ne_zero hzero)

theorem negate_spec {r : Double} (hsign : r.isNegative = false) :
    r.negate.isNegative = true ∧ r.negate.magnitude = r.magnitude
      ∧ (r.IsFinite → r.negate.IsFinite) := by
  have hbits := negate_bits hsign
  have hexponent : (r.bits.toNat + 0x8000000000000000) / 0x10000000000000 % 0x800 =
      r.bits.toNat / 0x10000000000000 % 0x800 := by omega
  have hfraction : (r.bits.toNat + 0x8000000000000000) % 0x10000000000000 =
      r.bits.toNat % 0x10000000000000 := by
    omega
  refine ⟨?_, ?_, ?_⟩
  · rw [isNegative_iff, hbits]
    omega
  · rw [magnitude_eq, magnitude_eq, hbits, hexponent, hfraction]
  · rw [IsFinite, IsFinite, hbits, hexponent]
    exact id

/-- What the text is read as is a finite number, and it differs from the number by a few roundings
at most. -/
theorem reread_near {d : Double} (hd : d.IsFinite) : d.reread.IsFinite
    ∧ |d.reread.value - d.value| ≤ 18 * (|d.value| / 2 ^ 53 + 2 ^ (-1075 : Int)) := by
  obtain ⟨r, hr, hfinite, hsign, herror⟩ := exists_ofDigits?_asRead hd
  have habs : |d.value| = d.magnitude.value := by
    unfold value
    split
    · rw [abs_neg, abs_of_nonneg (Magnitude.value_nonneg _)]
    · rw [abs_of_nonneg (Magnitude.value_nonneg _)]
  rw [habs]
  unfold Within at herror
  rw [Nat.cast_ofNat] at herror
  unfold reread
  simp only [hr, Option.getD_some]
  by_cases hneg : d.isNegative = true
  · obtain ⟨hnegate, hmagnitude, hkeeps⟩ := negate_spec hsign
    rw [if_pos hneg, value, value, if_pos hnegate, if_pos hneg, hmagnitude, ← neg_sub_neg,
      neg_neg, neg_neg, abs_sub_comm]
    exact ⟨hkeeps hfinite, herror⟩
  · rw [if_neg hneg, value, value, if_neg (by rw [hsign]; exact Bool.false_ne_true), if_neg hneg]
    exact ⟨hfinite, herror⟩

/-- A short text is read as the number itself. -/
theorem reread_of_isShort {d : Double} (hd : d.IsFinite) (hshort : d.IsShort) : d.reread = d := by
  suffices hr : ofDigits? d.asRead.digits d.asRead.exponent = some d.unsigned by
    unfold reread
    rw [hr]
    exact d.signed_unsigned
  have hx := hd.isCanonical
  obtain ⟨hlt, hplaces⟩ := hshort
  by_cases hzero : d.magnitude.mantissa = 0
  · rw [asRead, if_pos hzero, unsigned_of_zero hd hzero]
    rfl
  · have hpos := Nat.pos_of_ne_zero hzero
    have hwritten := isWritten_shortest hx hpos
    rw [asRead, if_neg hzero] at hlt hplaces ⊢
    have hcovers := hwritten.covers
    rw [← value_asRead] at hcovers
    exact ofDigits?_of_covers hx (asRead_bounds hwritten).1 hlt hplaces hcovers

end Double

/-- A written number is read as a number, whatever follows it that cannot go on with it. -/
theorem Json.Reader.value_render_reread (depth : Nat) {d : Double} {rest : Bytes} (hd : d.IsFinite)
    (hrest : EndsNumber rest) :
    value depth (Bytes.ofChars d.render.toList ++ rest) =
      .ok (.number (.double d.reread), rest) := by
  obtain ⟨r, hr, -⟩ := Double.exists_ofDigits?_asRead hd
  rw [value_render depth hd hrest, doubleOf, Double.reread, hr]
  rfl

end ApiClient
