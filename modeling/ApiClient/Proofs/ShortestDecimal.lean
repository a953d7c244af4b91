import ApiClient.Proofs.Rounding

/-!
# ApiClient.Proofs.ShortestDecimal

The decimal that stands for a number is one of those that round to it.

The selection works with exact comparisons, and each of them is a comparison of rational numbers
(`compareScaled_lt`). A decimal reads back if the magnitude covers its value (`readsBack_iff`). The
candidates of a digit count are the two decimals around the magnitude. They are `10 ^ k` apart, and
the numbers that round to the magnitude fill an interval; with seventeen digits the interval is
wider than that, so one of the two lies in it (`candidate?_seventeen`).
-/

namespace ApiClient.Double

/-- The rational number that a decimal stands for. -/
def Decimal.value (d : Decimal) : ℚ := d.digits * 10 ^ d.exponent

/-! ### Exact comparisons -/

theorem ten_zpow_pos (i : Int) : (0 : ℚ) < 10 ^ i := zpow_pos (by norm_num) i

theorem ten_zpow_add (i j : Int) : (10 : ℚ) ^ (i + j) = 10 ^ i * 10 ^ j :=
  zpow_add₀ (by norm_num) i j

theorem lt_of_ten_zpow_lt {i j : Int} (h : (10 : ℚ) ^ i < 10 ^ j) : i < j :=
  (zpow_lt_zpow_iff_right₀ (by norm_num)).1 h

/-- A product with a power of two, divided by a power of ten, as exact arithmetic on naturals writes
it. -/
theorem scaled_div_eq (n : Nat) (j k : Int) :
    (n : ℚ) * 2 ^ j / 10 ^ k = (n * Nat.pow 2 j.toNat * Nat.pow 10 (-k).toNat : ℕ)
      / (Nat.pow 10 k.toNat * Nat.pow 2 (-j).toNat : ℕ) := by
  have htwo := zpow_eq_div 2 (by decide) j
  have hten := zpow_eq_div 10 (by decide) k
  rw [Nat.cast_ofNat] at htwo hten
  rw [htwo, hten, mul_div_assoc', div_div_div_eq]
  push_cast
  ring

theorem compareScaled_eq (a : Nat) (i : Int) (n : Nat) (j : Int) :
    compareScaled a i n j = compare ((a : ℚ) * 10 ^ i) (n * 2 ^ j) := by
  have htwo := zpow_eq_div 2 (by decide) j
  have hten := zpow_eq_div 10 (by decide) i
  rw [Nat.cast_ofNat] at htwo hten
  have hdown : (0 : ℚ) < (Nat.pow 10 (-i).toNat : ℕ) * (Nat.pow 2 (-j).toNat : ℕ) := by
    simp only [Nat.pow_eq]
    positivity
  have hleft : (a : ℚ) * 10 ^ i * ((Nat.pow 10 (-i).toNat : ℕ) * (Nat.pow 2 (-j).toNat : ℕ)) =
      (a * Nat.pow 10 i.toNat * Nat.pow 2 (-j).toNat : ℕ) := by
    have hne : ((Nat.pow 10 (-i).toNat : ℕ) : ℚ) ≠ 0 := left_ne_zero_of_mul hdown.ne'
    rw [hten]
    field_simp
    push_cast
    ring
  have hright : (n : ℚ) * 2 ^ j * ((Nat.pow 10 (-i).toNat : ℕ) * (Nat.pow 2 (-j).toNat : ℕ)) =
      (n * Nat.pow 2 j.toNat * Nat.pow 10 (-i).toNat : ℕ) := by
    have hne : ((Nat.pow 2 (-j).toNat : ℕ) : ℚ) ≠ 0 := right_ne_zero_of_mul hdown.ne'
    rw [htwo]
    field_simp
    push_cast
    ring
  rw [compareScaled, ← cmp_eq_compare, ← cmp_eq_compare, ← cmp_mul_pos_right hdown, hleft, hright,
    Nat.strictMono_cast.cmp_map_eq]

theorem compareScaled_lt {a : Nat} {i : Int} {n : Nat} {j : Int} :
    compareScaled a i n j = .lt ↔ (a : ℚ) * 10 ^ i < n * 2 ^ j := by
  rw [compareScaled_eq, compare_lt_iff_lt]

theorem compareScaled_gt {a : Nat} {i : Int} {n : Nat} {j : Int} :
    compareScaled a i n j = .gt ↔ (n : ℚ) * 2 ^ j < a * 10 ^ i := by
  rw [compareScaled_eq, compare_gt_iff_gt]

theorem compareScaled_iff_eq {a : Nat} {i : Int} {n : Nat} {j : Int} :
    compareScaled a i n j = .eq ↔ (a : ℚ) * 10 ^ i = n * 2 ^ j := by
  rw [compareScaled_eq, compare_eq_iff_eq]

variable {x : Magnitude}

/-- A decimal reads back to a magnitude that covers it. -/
theorem readsBack_iff (hpos : 0 < x.mantissa) (d : Decimal) :
    x.readsBack d = true ↔ x.Covers d.value := by
  have hquarter : (2 : ℚ) ^ (x.exponent - 2) = 2 ^ x.exponent / 4 := by
    rw [show x.exponent - 2 = -2 + x.exponent by omega, two_zpow_add]
    norm_num
    ring
  have hlow : ((if x.narrowBelow then 4 * x.mantissa - 1 else 4 * x.mantissa - 2 : Nat) : ℚ)
      * 2 ^ (x.exponent - 2) = (x.mantissa - x.reachBelow) * 2 ^ x.exponent := by
    rw [hquarter, Magnitude.reachBelow]
    split
    · rw [Nat.cast_sub (by omega)]
      push_cast
      ring
    · rw [Nat.cast_sub (by omega)]
      push_cast
      ring
  have hhigh : ((4 * x.mantissa + 2 : Nat) : ℚ) * 2 ^ (x.exponent - 2) =
      (x.mantissa + 1 / 2) * 2 ^ x.exponent := by
    rw [hquarter]
    push_cast
    ring
  unfold Magnitude.readsBack
  simp only [Bool.and_eq_true, Bool.or_eq_true, beq_iff_eq, compareScaled_lt, compareScaled_gt,
    compareScaled_iff_eq, hlow, hhigh]
  rw [← Decimal.value]
  constructor
  · rintro ⟨hge | ⟨heven, heq⟩, hle | ⟨heven', heq'⟩⟩
    · exact ⟨hge.le, hle.le,
        fun h => by rcases h with h | h; exacts [absurd h hge.ne', absurd h hle.ne]⟩
    · exact ⟨hge.le, heq'.le, fun _ => heven'⟩
    · exact ⟨heq.ge, hle.le, fun _ => heven⟩
    · exact ⟨heq.ge, heq'.le, fun _ => heven⟩
  · rintro ⟨hge, hle, heven⟩
    refine ⟨?_, ?_⟩
    · rcases hge.lt_or_eq with hless | heq
      · exact .inl hless
      · exact .inr ⟨heven (.inl heq.symm), heq.symm⟩
    · rcases hle.lt_or_eq with hless | heq
      · exact .inl hless
      · exact .inr ⟨heven (.inr heq), heq⟩

/-! ### The decimals around a magnitude -/

/-- The integer part times the power of ten is the last decimal that is not above the magnitude. -/
theorem floorAt_spec (x : Magnitude) (k : Int) :
    (x.floorAt k : ℚ) * 10 ^ k ≤ x.value ∧ x.value < (x.floorAt k + 1 : ℚ) * 10 ^ k := by
  have hpos : 0 < Nat.pow 10 k.toNat * Nat.pow 2 (-x.exponent).toNat :=
    Nat.mul_pos (Nat.pow_pos (by decide)) (Nat.pow_pos (by decide))
  have hquotient := scaled_div_eq x.mantissa x.exponent k
  rw [← le_div_iff₀ (ten_zpow_pos k), ← div_lt_iff₀ (ten_zpow_pos k), Magnitude.value, hquotient,
    Magnitude.floorAt, le_div_iff₀ (by exact_mod_cast hpos), div_lt_iff₀ (by exact_mod_cast hpos)]
  constructor
  · exact_mod_cast Nat.div_mul_le_self _ _
  · have hnext := Nat.lt_mul_div_succ
      (x.mantissa * Nat.pow 2 x.exponent.toNat * Nat.pow 10 (-k).toNat) hpos
    rw [Nat.mul_comm (_ * _) (_ + 1)] at hnext
    exact_mod_cast hnext

/-- The number of places in front of the point: the magnitude is below this power of ten, and not
below the power before it. -/
structure Magnitude.HasScale (x : Magnitude) (k : Int) : Prop where
  /-- The magnitude is not below the power of ten before. -/
  ge : 10 ^ (k - 1) ≤ x.value
  /-- The magnitude is below the power of ten. -/
  lt : x.value < 10 ^ k

/-- Raising a guess that is not too great finds the scale within the fuel. -/
theorem hasScale_scaleFrom {fuel : Nat} {k : Int} (hge : 10 ^ (k - 1) ≤ x.value)
    (hlt : x.value < 10 ^ (k + fuel)) : x.HasScale (x.scaleFrom fuel k) := by
  induction fuel generalizing k with
  | zero =>
      rw [Nat.cast_zero, Int.add_zero] at hlt
      exact ⟨hge, hlt⟩
  | succ fuel ih =>
      rw [Magnitude.scaleFrom]
      simp only [beq_iff_eq, compareScaled_gt, Nat.cast_one, one_mul]
      split
      · next hdone => exact ⟨hge, hdone⟩
      · next hmore =>
          refine ih ?_ ?_
          · rw [Int.add_sub_cancel]
            exact not_lt.1 hmore
          · rwa [show k + 1 + (fuel : Int) = k + (fuel + 1 : Nat) by push_cast; ring]

/-- The guess from the binary logarithm is never too great, and at most four too small. -/
theorem guess_spec {binary : Int} (hlow : -1074 ≤ binary) (hhigh : binary ≤ 1023) :
    (10 : ℚ) ^ (Int.fdiv (binary * 30103) 100000 - 1 - 1) ≤ 2 ^ binary
      ∧ (2 : ℚ) ^ (binary + 1) ≤ 10 ^ (Int.fdiv (binary * 30103) 100000 - 1 + 4) := by
  -- 0.30103 is only near the logarithm of two, so each logarithm of a number is tried.
  have hall : ∀ n : Fin 2098,
      compareScaled 1 (Int.fdiv (((n : Nat) - 1074 : Int) * 30103) 100000 - 1 - 1) 1
        ((n : Nat) - 1074) ≠ .gt
        ∧ compareScaled 1 (Int.fdiv (((n : Nat) - 1074 : Int) * 30103) 100000 - 1 + 4) 1
            (((n : Nat) - 1074 : Int) + 1) ≠ .lt := by
    decide +kernel
  obtain ⟨hge, hle⟩ := hall ⟨(binary + 1074).toNat, by omega⟩
  rw [show (((binary + 1074).toNat : Nat) : Int) - 1074 = binary by omega] at hge hle
  rw [ne_eq, compareScaled_gt, not_lt, Nat.cast_one, one_mul, one_mul] at hge
  rw [ne_eq, compareScaled_lt, not_lt, Nat.cast_one, one_mul, one_mul] at hle
  exact ⟨hge, hle⟩

theorem hasScale_scale (hx : x.IsCanonical) (hpos : 0 < x.mantissa) : x.HasScale x.scale := by
  obtain ⟨hlow, hhigh⟩ := two_zpow_log2_le hpos
  have hunitPos := two_zpow_pos x.exponent
  have hlog : x.mantissa.log2 ≤ 52 := Nat.lt_succ_iff.1 ((Nat.log2_lt (Nat.ne_of_gt hpos)).2 hx.lt)
  have hleast := hx.least
  have hgreatest := hx.greatest
  have hbinary : -1074 ≤ (x.mantissa.log2 : Int) + x.exponent := by omega
  obtain ⟨hge, hle⟩ := guess_spec hbinary (by omega)
  refine hasScale_scaleFrom (hge.trans ?_) (lt_of_lt_of_le ?_ hle)
  · rw [two_zpow_add, Magnitude.value]
    exact mul_le_mul_of_nonneg_right hlow hunitPos.le
  · rw [Int.add_right_comm, two_zpow_add, Magnitude.value]
    exact mul_lt_mul_of_pos_right hhigh hunitPos

/-- The integer part at a place has as many digits as there are places in front of it. -/
theorem Magnitude.HasScale.floorAt {scale : Int} (h : x.HasScale scale) (n : Nat) :
    10 ^ n ≤ x.floorAt (scale - (n + 1 : Nat))
      ∧ x.floorAt (scale - (n + 1 : Nat)) < 10 ^ (n + 1) := by
  obtain ⟨hle, hlt⟩ := floorAt_spec x (scale - (n + 1 : Nat))
  have hplace := ten_zpow_pos (scale - (n + 1 : Nat))
  constructor
  · have hless : (10 : ℚ) ^ n * 10 ^ (scale - (n + 1 : Nat)) <
        (x.floorAt (scale - (n + 1 : Nat)) + 1) * 10 ^ (scale - (n + 1 : Nat)) := by
      refine lt_of_le_of_lt ?_ hlt
      rw [← zpow_natCast, ← ten_zpow_add,
        show (n : Int) + (scale - (n + 1 : Nat)) = scale - 1 by omega]
      exact h.ge
    have hcast := lt_of_mul_lt_mul_right hless hplace.le
    exact Nat.lt_succ_iff.1 (by exact_mod_cast hcast)
  · have hless : (x.floorAt (scale - (n + 1 : Nat)) : ℚ) * 10 ^ (scale - (n + 1 : Nat)) <
        10 ^ (n + 1) * 10 ^ (scale - (n + 1 : Nat)) := by
      refine hle.trans_lt (h.lt.trans_eq ?_)
      rw [← zpow_natCast, ← ten_zpow_add, add_sub_cancel]
    exact_mod_cast lt_of_mul_lt_mul_right hless hplace.le

/-! ### Candidates -/

/-- A candidate reads back, and it is one of the two decimals around the magnitude. -/
theorem candidate?_eq_some {scale : Int} {n : Nat} {d : Decimal}
    (h : x.candidate? scale n = some d) :
    x.readsBack d = true ∧ d.exponent = scale - n
      ∧ x.floorAt (scale - n) ≤ d.digits ∧ d.digits ≤ x.floorAt (scale - n) + 1 := by
  unfold Magnitude.candidate? at h
  simp only at h
  split at h
  · next hbelow _ =>
      obtain rfl := Option.some.inj h
      exact ⟨hbelow, rfl, Nat.le_refl _, Nat.le_succ _⟩
  · next _ habove =>
      obtain rfl := Option.some.inj h
      exact ⟨habove, rfl, Nat.le_succ _, Nat.le_refl _⟩
  · cases h
  · next hbelow habove =>
      -- Both read back, and the distance or the last digit decides.
      have hone : d = ⟨x.floorAt (scale - n), scale - n⟩
          ∨ d = ⟨x.floorAt (scale - n) + 1, scale - n⟩ := by
        split at h
        · exact .inr (Option.some.inj h).symm
        · exact .inl (Option.some.inj h).symm
        · split at h
          · exact .inl (Option.some.inj h).symm
          · exact .inr (Option.some.inj h).symm
      rcases hone with rfl | rfl
      · exact ⟨hbelow, rfl, Nat.le_refl _, Nat.le_succ _⟩
      · exact ⟨habove, rfl, Nat.le_succ _, Nat.le_refl _⟩

/-- There is a candidate if one of the two decimals around the magnitude reads back. -/
theorem candidate?_ne_none {scale : Int} {n : Nat}
    (h : x.readsBack ⟨x.floorAt (scale - n), scale - n⟩ = true
      ∨ x.readsBack ⟨x.floorAt (scale - n) + 1, scale - n⟩ = true) :
        x.candidate? scale n ≠ none := by
  unfold Magnitude.candidate?
  simp only
  split
  · exact Option.some_ne_none _
  · exact Option.some_ne_none _
  · next hbelow habove =>
      rcases h with h | h
      · exact absurd (hbelow.symm.trans h) Bool.false_ne_true
      · exact absurd (habove.symm.trans h) Bool.false_ne_true
  · split <;> exact Option.some_ne_none _

/-- A quotient strictly between the ends is covered. -/
theorem Magnitude.covers_of_lt {q : ℚ} (hge : (x.mantissa - x.reachBelow) * 2 ^ x.exponent < q)
    (hle : q < (x.mantissa + 1 / 2) * 2 ^ x.exponent) : x.Covers q where
  ge := hge.le
  le := hle.le
  even := by
    rintro (h | h)
    · exact absurd h hge.ne'
    · exact absurd h hle.ne

/-- Of two decimals around a magnitude one is covered if they differ by less than the last of
seventeen digits. -/
theorem covers_or_covers (hx : x.IsCanonical) {below step : ℚ} (hle : below * step ≤ x.value)
    (hlt : x.value < (below + 1) * step) (hstep : step * 10 ^ 16 ≤ x.value) :
    x.Covers (below * step) ∨ x.Covers ((below + 1) * step) := by
  rw [Magnitude.value] at hle hlt hstep
  have hunitPos := two_zpow_pos x.exponent
  have hreach : 0 < x.reachBelow := by
    unfold Magnitude.reachBelow
    split <;> norm_num
  by_contra hneither
  rw [not_or] at hneither
  have hbelow : below * step ≤ (x.mantissa - x.reachBelow) * 2 ^ x.exponent := by
    by_contra hnot
    exact hneither.1 (Magnitude.covers_of_lt (not_le.1 hnot) (hle.trans_lt (by nlinarith)))
  have habove : (x.mantissa + 1 / 2) * 2 ^ x.exponent ≤ (below + 1) * step := by
    by_contra hnot
    exact hneither.2 (Magnitude.covers_of_lt (lt_trans (by nlinarith) hlt) (not_le.1 hnot))
  -- So the step is as wide as the interval, which takes a mantissa of more than 53 binary digits.
  have hwide : (1 / 2 + x.reachBelow) * 10 ^ 16 ≤ x.mantissa := by
    refine le_of_mul_le_mul_right ?_ hunitPos
    linarith
  by_cases hnarrow : x.narrowBelow = true
  · rw [(hx.narrow.1 hnarrow).1, Magnitude.reachBelow, if_pos hnarrow] at hwide
    norm_num at hwide
  · have hmax : (x.mantissa : ℚ) < 0x20000000000000 := by exact_mod_cast hx.lt
    rw [Magnitude.reachBelow, if_neg hnarrow] at hwide
    linarith

/-- Seventeen digits are enough. -/
theorem candidate?_seventeen (hx : x.IsCanonical) (hpos : 0 < x.mantissa) {scale : Int}
    (hscale : x.HasScale scale) : x.candidate? scale 17 ≠ none := by
  obtain ⟨hle, hlt⟩ := floorAt_spec x (scale - (17 : Nat))
  have hstep : (10 : ℚ) ^ (scale - (17 : Nat)) * 10 ^ 16 ≤ x.value := by
    refine le_trans (le_of_eq ?_) hscale.ge
    rw [← zpow_natCast, ← ten_zpow_add]
    congr 1
    omega
  refine candidate?_ne_none ?_
  rw [readsBack_iff hpos, readsBack_iff hpos]
  refine (covers_or_covers hx hle hlt hstep).imp_right fun h => ?_
  rwa [← Nat.cast_add_one] at h

/-! ### The written decimal -/

/-- Moving factors of ten leaves the value. -/
theorem value_strip (fuel : Nat) (d : Decimal) : (Decimal.strip fuel d).value = d.value := by
  induction fuel generalizing d with
  | zero => rfl
  | succ fuel ih =>
      rw [Decimal.strip]
      split
      · next h =>
          simp only [Bool.and_eq_true, bne_iff_ne, beq_iff_eq] at h
          have hten : d.digits = d.digits / 10 * 10 := by omega
          rw [ih, Decimal.value, Decimal.value, ten_zpow_add]
          conv_rhs => rw [hten]
          push_cast
          ring
      · rfl

theorem strip_digits_le (fuel : Nat) (d : Decimal) : (Decimal.strip fuel d).digits ≤ d.digits := by
  induction fuel generalizing d with
  | zero => exact Nat.le_refl _
  | succ fuel ih =>
      rw [Decimal.strip]
      split
      · exact (ih _).trans (Nat.div_le_self _ _)
      · exact Nat.le_refl _

theorem strip_digits_pos (fuel : Nat) {d : Decimal} (h : 0 < d.digits) :
    0 < (Decimal.strip fuel d).digits := by
  induction fuel generalizing d with
  | zero => exact h
  | succ fuel ih =>
      rw [Decimal.strip]
      split
      · next hten =>
          simp only [Bool.and_eq_true, bne_iff_ne, beq_iff_eq] at hten
          exact ih (by simp only; omega)
      · exact h

theorem le_strip_exponent (fuel : Nat) (d : Decimal) :
    d.exponent ≤ (Decimal.strip fuel d).exponent := by
  induction fuel generalizing d with
  | zero => exact Int.le_refl _
  | succ fuel ih =>
      rw [Decimal.strip]
      split
      · exact (show d.exponent ≤ d.exponent + 1 by omega).trans (ih _)
      · exact Int.le_refl _

/-- What is stripped at least once has no eighteenth digit. -/
theorem strip_digits_lt (fuel : Nat) {d : Decimal} (h : d.digits ≤ 10 ^ 17) :
    (Decimal.strip (fuel + 1) d).digits < 10 ^ 17 := by
  rw [Decimal.strip]
  split
  · exact Nat.lt_of_le_of_lt (strip_digits_le _ _) (by simp only; omega)
  · next hten =>
      simp only [Bool.and_eq_true, bne_iff_ne, beq_iff_eq] at hten
      omega

/-- What is known of the decimal that is written for a magnitude. -/
structure Magnitude.IsWritten (x : Magnitude) (d : Decimal) : Prop where
  /-- Some digit is not zero. -/
  pos : 0 < d.digits
  /-- There are at most seventeen digits. -/
  lt : d.digits < 10 ^ 17
  /-- The power of ten is not below that of the last digit of the least number. -/
  least : -341 ≤ d.exponent
  /-- The power of ten is not above that of the greatest number. -/
  greatest : d.exponent ≤ 308
  /-- The decimal rounds to the number. -/
  covers : x.Covers d.value

theorem ten_zpow_le_two_zpow :
    (10 : ℚ) ^ (-324 : Int) ≤ 2 ^ (-1074 : Int) ∧ (2 : ℚ) ^ (1024 : Int) ≤ 10 ^ (309 : Int) := by
  have hlow : compareScaled 1 (-324) 1 (-1074) ≠ .gt := by decide +kernel
  have hhigh : compareScaled 1 309 1 1024 ≠ .lt := by decide +kernel
  rw [ne_eq, compareScaled_gt, not_lt, Nat.cast_one, one_mul, one_mul] at hlow
  rw [ne_eq, compareScaled_lt, not_lt, Nat.cast_one, one_mul, one_mul] at hhigh
  exact ⟨hlow, hhigh⟩

theorem Magnitude.HasScale.least {scale : Int} (h : x.HasScale scale) (hx : x.IsCanonical)
    (hpos : 0 < x.mantissa) : -324 < scale := by
  refine lt_of_ten_zpow_lt (lt_of_le_of_lt (ten_zpow_le_two_zpow.1.trans ?_) h.lt)
  have hone : (1 : ℚ) ≤ x.mantissa := by exact_mod_cast hpos
  calc (2 : ℚ) ^ (-1074 : Int) ≤ 2 ^ x.exponent := two_zpow_le hx.least
    _ = 1 * 2 ^ x.exponent := (one_mul _).symm
    _ ≤ x.value := mul_le_mul_of_nonneg_right hone (two_zpow_pos _).le

/-- What is covered is less than the power of two that is no number any more. -/
theorem Magnitude.Covers.lt {q : ℚ} (h : x.Covers q) (hx : x.IsCanonical) :
    q < 2 ^ (1024 : Int) := by
  have hmax : (x.mantissa : ℚ) + 1 ≤ 0x20000000000000 := by exact_mod_cast hx.lt
  calc q ≤ (x.mantissa + 1 / 2) * 2 ^ x.exponent := h.le
    _ < 0x20000000000000 * 2 ^ x.exponent := mul_lt_mul_of_pos_right (by linarith) (two_zpow_pos _)
    _ ≤ 0x20000000000000 * 2 ^ (971 : Int) :=
        mul_le_mul_of_nonneg_left (two_zpow_le hx.greatest) (by norm_num)
    _ = 2 ^ (1024 : Int) := by
        rw [show (1024 : Int) = 53 + 971 from rfl, two_zpow_add]
        norm_num

theorem isWritten_shortest (hx : x.IsCanonical) (hpos : 0 < x.mantissa) :
    x.IsWritten x.shortest := by
  have hscale := hasScale_scale hx hpos
  -- The first count of digits with a candidate is at most seventeen.
  obtain ⟨d, hfound⟩ : ∃ d,
      (List.range 17).findSome? (fun n => x.candidate? x.scale (n + 1)) = some d := by
    refine Option.ne_none_iff_exists'.1 fun hnone => ?_
    exact candidate?_seventeen hx hpos hscale
      (List.findSome?_eq_none_iff.1 hnone 16 (List.mem_range.2 (by decide)))
  obtain ⟨n, hn, hd⟩ := List.exists_of_findSome?_eq_some hfound
  have hn17 : n < 17 := List.mem_range.1 hn
  obtain ⟨hreads, hexponent, hge, hle⟩ := candidate?_eq_some hd
  obtain ⟨hmin, hmax⟩ := hscale.floorAt n
  have hdigits : d.digits ≤ 10 ^ 17 :=
    hle.trans (Nat.succ_le_of_lt (lt_of_lt_of_le hmax (Nat.pow_le_pow_right (by decide) hn17)))
  have hsome : 0 < d.digits := lt_of_lt_of_le (Nat.pow_pos (by decide)) (hmin.trans hge)
  have hshortest : x.shortest = d.strip 20 := by
    rw [Magnitude.shortest]
    simp only [hfound, Option.getD_some]
  have hcovers : x.Covers (d.strip 20).value := by
    rw [value_strip]
    exact (readsBack_iff hpos d).1 hreads
  have hstrip := strip_digits_pos 20 hsome
  rw [hshortest]
  refine ⟨hstrip, strip_digits_lt 19 hdigits, ?_, ?_, hcovers⟩
  · have := hscale.least hx hpos
    have := le_strip_exponent 20 d
    omega
  · have hone : (1 : ℚ) ≤ (d.strip 20).digits := by exact_mod_cast hstrip
    have hless : (10 : ℚ) ^ (d.strip 20).exponent < 10 ^ (309 : Int) := by
      refine lt_of_le_of_lt ?_ ((hcovers.lt hx).trans_le ten_zpow_le_two_zpow.2)
      exact le_mul_of_one_le_left (ten_zpow_pos _).le hone
    exact Int.lt_add_one_iff.1 (lt_of_ten_zpow_lt hless)

end ApiClient.Double
