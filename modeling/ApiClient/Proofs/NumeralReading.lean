import ApiClient.Proofs.JsonGrammar
import ApiClient.Proofs.JsonNumbers
import ApiClient.Proofs.Results

/-!
# ApiClient.Proofs.NumeralReading

The reader of numbers reads numerals, and gives each its number.

A numeral ends where it must: in front of a byte that could not go on with it (`Numeral.Ends`). Each
part of the reader is followed twice. In front of such an end it gives the number of the part, or
nothing if there is none (`toOption_fraction`), and whatever it accepts has the form of the part
(`shape_of_fraction`).
-/

namespace ApiClient.Json

open Grammar

namespace Grammar

/-- A byte that a numeral with these parts could not go on with. -/
def Numeral.Ends (decimals : Option Digits) (exponent : Option Exponent) (rest : Bytes) : Prop :=
  ∀ b ∈ rest.head?, Ascii.isDigit b = false
    ∧ (exponent = none → b ≠ 0x65 ∧ b ≠ 0x45 ∧ (decimals = none → b ≠ 0x2e))

theorem Numeral.ends_of_endsNumber {rest : Bytes} (h : EndsNumber rest) (decimals : Option Digits)
    (exponent : Option Exponent) : Numeral.Ends decimals exponent rest := by
  intro b hb
  obtain ⟨hdigit, hpoint, hlower, hupper⟩ := h b hb
  exact ⟨hdigit, fun _ => ⟨hlower, hupper, fun _ => hpoint⟩⟩

end Grammar

namespace Reader

variable {negative : Bool} {lead : Leading} {unread rest : Bytes} {v : Json}

/-! ### Runs of digits -/

/-- A run of digits in front of anything, if there is one. -/
theorem exists_digits_of_span {b : UInt8} (hb : Ascii.isDigit b = true) (unread : Bytes) :
    ∃ (digits : Digits) (rest : Bytes), b :: unread = digits.bytes ++ rest
      ∧ (∀ c ∈ rest.head?, Ascii.isDigit c = false) := by
  refine ⟨⟨(b :: unread).takeWhile Ascii.isDigit, ?_, fun c hc => ?_⟩,
    (b :: unread).dropWhile Ascii.isDigit, List.takeWhile_append_dropWhile.symm, fun c hc => ?_⟩
  · rw [List.takeWhile_cons, hb]
    exact List.cons_ne_nil _ _
  · exact List.mem_takeWhile_imp hc
  · have := List.head?_dropWhile_not Ascii.isDigit (b :: unread)
    rw [Option.mem_def.1 hc] at this
    simpa using this

theorem exists_first_digit (digits : Digits) :
    ∃ b others, digits.bytes = b :: others ∧ Ascii.isDigit b = true := by
  obtain ⟨b, others, hdigits⟩ := List.exists_cons_of_ne_nil digits.ne_nil
  exact ⟨b, others, hdigits, digits.isDigit b (hdigits ▸ List.mem_cons_self)⟩

theorem span_bytes (digits : Digits) (hrest : ∀ b ∈ rest.head?, Ascii.isDigit b = false) :
    (digits.bytes ++ rest).span Ascii.isDigit = (digits.bytes, rest) :=
  span_append digits.isDigit hrest

/-- More digits make no smaller number. -/
theorem le_foldl_digits (digits : Bytes) (n : Nat) :
    n ≤ digits.foldl (fun n d => 10 * n + digitValue d) n := by
  induction digits generalizing n with
  | nil => exact Nat.le_refl n
  | cons d digits ih => exact Nat.le_trans (by omega) (ih (10 * n + digitValue d))

/-- Digits exceed the greatest power if the number that they make up does. -/
theorem exponentOverflow_eq_none_iff {n : Nat} (hn : n ≤ 2147483647) (digits : Bytes) :
    exponentOverflow n digits = none ↔
      digits.foldl (fun n d => 10 * n + digitValue d) n ≤ 2147483647 := by
  induction digits generalizing n with
  | nil => exact ⟨fun _ => hn, fun _ => rfl⟩
  | cons d digits ih =>
      rw [exponentOverflow, List.foldl_cons]
      by_cases hlarge : 10 * n + digitValue d > 2147483647
      · have hle := le_foldl_digits digits (10 * n + digitValue d)
        rw [if_pos hlarge]
        exact ⟨fun h => absurd h (Option.some_ne_none _), fun h => by omega⟩
      · rw [if_neg hlarge]
        exact ih (Nat.not_lt.1 hlarge)

/-! ### Doubles and exponents -/

theorem toOption_doubleOf : (doubleOf negative lead rest).toOption =
    (Numeral.double? negative lead).map fun n => (.number n, rest) := by
  rw [doubleOf, Numeral.double?]
  cases Double.ofDigits? lead.digits lead.scale with
  | none => rfl
  | some d => rfl

/-- Reads an exponent, behind its sign. -/
def exponentDigits (negative down : Bool) (lead : Leading) : Reader Json := fun unread =>
  match unread with
  | [] => failAfter .eofInValue []
  | b :: after =>
    if !Ascii.isDigit b then failAfter .invalidNumber after
    else
      let (power, rest) := unread.span Ascii.isDigit
      match exponentOverflow 0 power with
      | some left =>
        if lead.digits != 0 && !down then failAfter .numberOutOfRange (left ++ rest)
        else doubleOf negative ⟨0, 0⟩ rest
      | none =>
        let power : Int := digitsValue power
        doubleOf negative { lead with scale := lead.scale + (if down then -power else power) } rest

theorem exponent_plus (negative : Bool) (lead : Leading) (unread : Bytes) :
    exponent negative lead (0x2b :: unread) = exponentDigits negative false lead unread := rfl

theorem exponent_minus (negative : Bool) (lead : Leading) (unread : Bytes) :
    exponent negative lead (0x2d :: unread) = exponentDigits negative true lead unread := rfl

theorem exponent_of_no_sign (h : ∀ b ∈ unread.head?, b ≠ 0x2b ∧ b ≠ 0x2d) (negative : Bool)
    (lead : Leading) :
    exponent negative lead unread = exponentDigits negative false lead unread := by
  cases unread with
  | nil => rfl
  | cons b unread =>
      obtain ⟨hplus, hminus⟩ := h b rfl
      unfold exponent
      split
      rename_i heq
      split at heq
      · rename_i hcons
        exact absurd (List.cons.inj hcons).1 hplus
      · rename_i hcons
        exact absurd (List.cons.inj hcons).1 hminus
      · cases heq
        rfl

theorem toOption_exponentDigits (down : Bool) (digits : Digits)
    (hrest : ∀ b ∈ rest.head?, Ascii.isDigit b = false) :
    (exponentDigits negative down lead (digits.bytes ++ rest)).toOption =
      (Numeral.scaled? negative lead down (digitsValue digits.bytes)).map fun n =>
        (.number n, rest) := by
  have hspan := span_bytes digits hrest
  have hpower : exponentOverflow 0 digits.bytes = none ↔ digitsValue digits.bytes ≤ 2147483647 :=
    exponentOverflow_eq_none_iff (Nat.zero_le _) digits.bytes
  obtain ⟨b, others, hdigits, hb⟩ := exists_first_digit digits
  rw [hdigits] at hspan hpower ⊢
  rw [List.cons_append, exponentDigits, if_neg (by simp [hb]), ← List.cons_append, hspan]
  simp only
  rw [Numeral.scaled?]
  cases hoverflow : exponentOverflow 0 (b :: others) with
  | none => rw [if_neg (Nat.not_lt.2 (hpower.1 hoverflow)), ← toOption_doubleOf]
  | some left =>
      rw [if_pos (Nat.lt_of_not_le fun hle => by rw [hpower.2 hle] at hoverflow; cases hoverflow)]
      by_cases hzero : lead.digits = 0 ∨ down = true
      · rw [if_pos hzero, ← toOption_doubleOf]
        simp only
        rw [if_neg (by rcases hzero with hzero | hzero <;> simp [hzero])]
      · rw [if_neg hzero]
        simp only
        rw [if_pos (by simpa using hzero)]
        rfl

theorem eq_of_doubleOf {unread' : Bytes} (h : doubleOf negative lead unread = .ok (v, unread')) :
    unread' = unread := by
  rw [doubleOf] at h
  cases hdouble : Double.ofDigits? lead.digits lead.scale with
  | none =>
      rw [hdouble] at h
      cases h
  | some d =>
      rw [hdouble] at h
      cases h
      rfl

/-- Behind the sign of an exponent there are digits. -/
theorem shape_of_exponentDigits {down : Bool}
    (h : exponentDigits negative down lead unread = .ok (v, rest)) :
    ∃ digits : Digits, unread = digits.bytes ++ rest
      ∧ ∀ b ∈ rest.head?, Ascii.isDigit b = false := by
  cases unread with
  | nil => cases h
  | cons b after =>
      rw [exponentDigits] at h
      by_cases hb : Ascii.isDigit b = true
      · obtain ⟨digits, left, hunread, hleft⟩ := exists_digits_of_span hb after
        rw [if_neg (by simp [hb]), hunread, span_bytes digits hleft] at h
        simp only at h
        suffices hrest : rest = left by
          subst hrest
          exact ⟨digits, hunread, hleft⟩
        cases hoverflow : exponentOverflow 0 digits.bytes with
        | none =>
            rw [hoverflow] at h
            exact eq_of_doubleOf h
        | some beyond =>
            rw [hoverflow] at h
            simp only at h
            split at h
            · cases h
            · exact eq_of_doubleOf h
      · rw [if_pos (by simp [hb])] at h
        cases h

/-- In front of its end an exponent gives the number that it makes of the digits. -/
theorem toOption_exponent (e : Exponent) (hrest : ∀ b ∈ rest.head?, Ascii.isDigit b = false) :
    (exponent negative lead (e.sign ++ (e.digits.bytes ++ rest))).toOption =
      (Numeral.scaled? negative lead e.down e.power).map fun n => (.number n, rest) := by
  obtain ⟨mark, sign, digits, hmark, hsign⟩ := e
  rcases hsign with rfl | rfl | rfl
  · have hfirst : ∀ b ∈ (digits.bytes ++ rest).head?, b ≠ 0x2b ∧ b ≠ 0x2d := by
      obtain ⟨b, others, hdigits, hb⟩ := exists_first_digit digits
      rw [hdigits]
      rintro b' ⟨⟩
      constructor <;> rintro rfl <;> exact absurd hb (by decide)
    rw [List.nil_append, exponent_of_no_sign hfirst]
    exact toOption_exponentDigits false digits hrest
  · rw [List.singleton_append, exponent_plus]
    exact toOption_exponentDigits false digits hrest
  · rw [List.singleton_append, exponent_minus]
    exact toOption_exponentDigits true digits hrest

/-- Behind its mark an exponent is a sign, which may be missing, and digits. -/
theorem shape_of_exponent {mark : UInt8} (hmark : mark = 0x65 ∨ mark = 0x45)
    (h : exponent negative lead unread = .ok (v, rest)) :
    ∃ e : Exponent, mark :: unread = e.text ++ rest
      ∧ ∀ b ∈ rest.head?, Ascii.isDigit b = false := by
  by_cases hplus : unread.head? = some 0x2b
  · obtain ⟨tail, rfl⟩ := List.head?_eq_some_iff.1 hplus
    obtain ⟨digits, rfl, hrest⟩ := shape_of_exponentDigits (exponent_plus .. ▸ h)
    exact ⟨⟨mark, [0x2b], digits, hmark, .inr (.inl rfl)⟩, rfl, hrest⟩
  by_cases hminus : unread.head? = some 0x2d
  · obtain ⟨tail, rfl⟩ := List.head?_eq_some_iff.1 hminus
    obtain ⟨digits, rfl, hrest⟩ := shape_of_exponentDigits (exponent_minus .. ▸ h)
    exact ⟨⟨mark, [0x2d], digits, hmark, .inr (.inr rfl)⟩, rfl, hrest⟩
  rw [exponent_of_no_sign
    (fun b hb => ⟨fun hb' => hplus (hb' ▸ hb), fun hb' => hminus (hb' ▸ hb)⟩)] at h
  obtain ⟨digits, rfl, hrest⟩ := shape_of_exponentDigits h
  exact ⟨⟨mark, [], digits, hmark, .inl rfl⟩, rfl, hrest⟩

/-! ### Numbers -/

/-- Reads what may follow decimals. -/
def behindDecimals (negative : Bool) (lead : Leading) : Reader Json := fun unread =>
  match unread with
  | 0x65 :: rest => exponent negative lead rest
  | 0x45 :: rest => exponent negative lead rest
  | _ => doubleOf negative lead unread

theorem fraction_point (decimals : Digits) (hrest : ∀ b ∈ rest.head?, Ascii.isDigit b = false) :
    fraction negative lead (0x2e :: (decimals.bytes ++ rest)) =
      behindDecimals negative (lead.withDecimals decimals.bytes) rest := by
  unfold fraction
  simp only [span_bytes decimals hrest]
  rw [if_neg (by simpa using decimals.ne_nil)]
  rfl

theorem fraction_of_no_mark (h : ∀ b ∈ rest.head?, b ≠ 0x65 ∧ b ≠ 0x45 ∧ b ≠ 0x2e) :
    (fraction negative lead rest).toOption =
      (Numeral.whole? negative lead).map fun n => (.number n, rest) := by
  unfold fraction
  split
  · exact absurd rfl (h _ rfl).2.2
  · exact absurd rfl (h _ rfl).1
  · exact absurd rfl (h _ rfl).2.1
  · rw [Numeral.whole?]
    simp only [Bool.and_eq_true, decide_eq_true_eq, Bool.not_eq_true', and_assoc]
    split
    · rfl
    · split
      · rfl
      · exact toOption_doubleOf

/-- In front of its end the tail of a numeral gives the number that it makes of the digits. -/
theorem toOption_fraction (decimals : Option Digits) (e : Option Exponent)
    (hrest : Numeral.Ends decimals e rest) :
    (fraction negative lead (Numeral.tail decimals e ++ rest)).toOption =
      (Numeral.behind? negative lead decimals e).map fun n => (.number n, rest) := by
  have hdigit : ∀ b ∈ rest.head?, Ascii.isDigit b = false := fun b hb => (hrest b hb).1
  cases e with
  | some e =>
      have htext : e.text ++ rest = e.mark :: (e.sign ++ (e.digits.bytes ++ rest)) := by
        rw [Exponent.text, List.cons_append, List.append_assoc]
      have hmark : ∀ b ∈ (e.text ++ rest).head?, Ascii.isDigit b = false := by
        rw [htext]
        rintro b ⟨⟩
        rcases e.isMark with h | h <;> rw [h] <;> rfl
      cases decimals with
      | some decimals =>
          show (fraction negative lead (0x2e :: decimals.bytes ++ e.text ++ rest)).toOption = _
          rw [List.cons_append, List.cons_append, List.append_assoc,
            fraction_point decimals hmark, htext]
          refine Eq.trans ?_ (toOption_exponent e hdigit)
          rcases e.isMark with h | h <;> rw [h] <;> rfl
      | none =>
          show (fraction negative lead ([] ++ e.text ++ rest)).toOption = _
          rw [List.nil_append, htext]
          refine Eq.trans ?_ (toOption_exponent e hdigit)
          rcases e.isMark with h | h <;> rw [h] <;> rfl
  | none =>
      cases decimals with
      | some decimals =>
          show (fraction negative lead (0x2e :: decimals.bytes ++ [] ++ rest)).toOption = _
          rw [List.append_nil, List.cons_append, fraction_point decimals hdigit]
          refine Eq.trans ?_ toOption_doubleOf
          unfold behindDecimals
          split
          · exact absurd rfl ((hrest _ rfl).2 rfl).1
          · exact absurd rfl ((hrest _ rfl).2 rfl).2.1
          · rfl
      | none =>
          refine fraction_of_no_mark fun b hb => ?_
          obtain ⟨hlower, hupper, hpoint⟩ := (hrest b hb).2 rfl
          exact ⟨hlower, hupper, hpoint rfl⟩

theorem eq_of_fraction_of_no_mark (h : ∀ b ∈ unread.head?, b ≠ 0x65 ∧ b ≠ 0x45 ∧ b ≠ 0x2e)
    (hread : fraction negative lead unread = .ok (v, rest)) : rest = unread := by
  have hoption := congrArg Except.toOption hread
  rw [fraction_of_no_mark h] at hoption
  obtain ⟨n, -, hn⟩ := Option.map_eq_some_iff.1 hoption
  exact (congrArg Prod.snd hn).symm

/-- Behind a mark there is an exponent, with or without decimals before it. -/
theorem shape_of_mark (decimals : Option Digits) {mark : UInt8} (hmark : mark = 0x65 ∨ mark = 0x45)
    (h : exponent negative lead unread = .ok (v, rest)) :
    ∃ e, (decimals.elim [] fun d => 0x2e :: d.bytes) ++ mark :: unread =
      Numeral.tail decimals e ++ rest
      ∧ Numeral.Ends decimals e rest := by
  obtain ⟨e, htext, hrest⟩ := shape_of_exponent hmark h
  refine ⟨some e, ?_, fun b hb => ⟨hrest b hb, nofun⟩⟩
  rw [htext, Numeral.tail, List.append_assoc]
  rfl

/-- Behind decimals there is an exponent, or the end. -/
theorem shape_of_behindDecimals (decimals : Digits)
    (hdigit : ∀ b ∈ unread.head?, Ascii.isDigit b = false)
    (h : behindDecimals negative lead unread = .ok (v, rest)) :
    ∃ e, 0x2e :: (decimals.bytes ++ unread) = Numeral.tail (some decimals) e ++ rest
      ∧ Numeral.Ends (some decimals) e rest := by
  unfold behindDecimals at h
  split at h
  · exact shape_of_mark (some decimals) (.inl rfl) h
  · exact shape_of_mark (some decimals) (.inr rfl) h
  · rename_i hlower hupper
    obtain rfl := eq_of_doubleOf h
    refine ⟨none, by simp [Numeral.tail], fun b hb => ⟨hdigit b hb, fun _ => ⟨?_, ?_, nofun⟩⟩⟩
    · rintro rfl
      obtain ⟨tail, rfl⟩ := List.head?_eq_some_iff.1 hb
      exact hlower tail rfl
    · rintro rfl
      obtain ⟨tail, rfl⟩ := List.head?_eq_some_iff.1 hb
      exact hupper tail rfl

/-- Behind a point there are digits. -/
theorem exists_digit_of_fraction_point
    (h : fraction negative lead (0x2e :: unread) = .ok (v, rest)) :
    ∃ b ∈ unread.head?, Ascii.isDigit b = true := by
  by_contra hnone
  have hspan : ([] ++ unread).span Ascii.isDigit = ([], unread) :=
    span_append (fun _ hmem => absurd hmem List.not_mem_nil) fun b hb =>
      Bool.eq_false_iff.2 fun hb' => hnone ⟨b, hb, hb'⟩
  rw [List.nil_append] at hspan
  unfold fraction at h
  simp only [hspan] at h
  cases h

/-- Behind the digits in front of the point there is the tail of a numeral. -/
theorem shape_of_fraction (hdigit : ∀ b ∈ unread.head?, Ascii.isDigit b = false)
    (h : fraction negative lead unread = .ok (v, rest)) :
    ∃ decimals e, unread = Numeral.tail decimals e ++ rest ∧ Numeral.Ends decimals e rest := by
  by_cases hpoint : unread.head? = some 0x2e
  · obtain ⟨left, rfl⟩ := List.head?_eq_some_iff.1 hpoint
    obtain ⟨b, hb, hb'⟩ := exists_digit_of_fraction_point h
    obtain ⟨tail, rfl⟩ := List.head?_eq_some_iff.1 hb
    obtain ⟨decimals, left, htail, hleft⟩ := exists_digits_of_span hb' tail
    rw [htail, fraction_point decimals hleft] at h
    rw [htail]
    exact ⟨some decimals, shape_of_behindDecimals decimals hleft h⟩
  by_cases hlower : unread.head? = some 0x65
  · obtain ⟨left, rfl⟩ := List.head?_eq_some_iff.1 hlower
    exact ⟨none, shape_of_mark none (.inl rfl) h⟩
  by_cases hupper : unread.head? = some 0x45
  · obtain ⟨left, rfl⟩ := List.head?_eq_some_iff.1 hupper
    exact ⟨none, shape_of_mark none (.inr rfl) h⟩
  have hmark : ∀ b ∈ unread.head?, b ≠ 0x65 ∧ b ≠ 0x45 ∧ b ≠ 0x2e := fun b hb =>
    ⟨fun heq => hlower (heq ▸ hb), fun heq => hupper (heq ▸ hb), fun heq => hpoint (heq ▸ hb)⟩
  obtain rfl := eq_of_fraction_of_no_mark hmark h
  refine ⟨none, none, rfl, fun b hb => ⟨hdigit b hb, fun _ => ?_⟩⟩
  obtain ⟨hlower, hupper, hpoint⟩ := hmark b hb
  exact ⟨hlower, hupper, fun _ => hpoint⟩

/-- Behind the digits in front of the point there is no digit. -/
theorem not_isDigit_tail {decimals : Option Digits} {e : Option Exponent}
    (hrest : Numeral.Ends decimals e rest) :
    ∀ b ∈ (Numeral.tail decimals e ++ rest).head?, Ascii.isDigit b = false := by
  cases decimals with
  | some decimals =>
      rintro b ⟨⟩
      rfl
  | none =>
      cases e with
      | some e =>
          rintro b ⟨⟩
          rcases e.isMark with h | h <;> rw [h] <;> rfl
      | none => exact fun b hb => (hrest b hb).1

theorem number_lone_zero (h : ∀ b ∈ unread.head?, Ascii.isDigit b = false) :
    number negative (0x30 :: unread) = fraction negative ⟨0, 0⟩ unread := by
  rw [number, if_pos (by decide), if_neg]
  cases unread with
  | nil => exact Bool.false_ne_true
  | cons b unread => simpa using h b rfl

theorem number_digits_bytes (digits : Digits) (hzero : digits.bytes.head? ≠ some 0x30)
    (hrest : ∀ b ∈ rest.head?, Ascii.isDigit b = false) :
    number negative (digits.bytes ++ rest) =
      fraction negative (.ofInteger 0 digits.bytes) rest := by
  have hspan := span_bytes digits hrest
  obtain ⟨b, others, hdigits, hb⟩ := exists_first_digit digits
  rw [hdigits] at hspan hzero ⊢
  rw [List.cons_append, number, if_neg (by simpa using hzero), if_pos hb, ← List.cons_append, hspan]

/-- In front of its end a numeral is read as its number. -/
theorem toOption_number (n : Numeral) (hrest : Numeral.Ends n.decimals n.exponent rest) :
    (number n.negative (n.unsigned ++ rest)).toOption =
      n.value?.map fun v => (.number v, rest) := by
  rw [Numeral.unsigned, List.append_assoc, Numeral.value?]
  by_cases hzero : n.whole.bytes.head? = some 0x30
  · rw [n.zero_alone hzero, List.singleton_append, number_lone_zero (not_isDigit_tail hrest),
      toOption_fraction _ _ hrest]
    rfl
  · rw [number_digits_bytes n.whole hzero (not_isDigit_tail hrest), toOption_fraction _ _ hrest]

/-- What the reader of numbers accepts is a numeral, in front of its end. -/
theorem shape_of_number (h : number negative unread = .ok (v, rest)) :
    ∃ n : Numeral, n.negative = negative
    ∧ unread = n.unsigned ++ rest ∧ Numeral.Ends n.decimals n.exponent rest := by
  cases unread with
  | nil => cases h
  | cons b left =>
      by_cases hzero : b = 0x30
      · subst hzero
        by_cases hdigit : ∃ b ∈ left.head?, Ascii.isDigit b = true
        · obtain ⟨b, hb, hb'⟩ := hdigit
          obtain ⟨tail, rfl⟩ := List.head?_eq_some_iff.1 hb
          rw [number, if_pos (by decide), if_pos (by simpa using hb')] at h
          cases h
        · have hnone : ∀ b ∈ left.head?, Ascii.isDigit b = false := fun b hb =>
            Bool.eq_false_iff.2 fun hb' => hdigit ⟨b, hb, hb'⟩
          rw [number_lone_zero hnone] at h
          obtain ⟨decimals, e, rfl, hends⟩ := shape_of_fraction hnone h
          exact ⟨⟨negative, ⟨[0x30], by decide, List.all_eq_true.1 rfl⟩, decimals, e,
            fun _ => rfl⟩, rfl, rfl, hends⟩
      · by_cases hb : Ascii.isDigit b = true
        · obtain ⟨whole, left', hwhole, hleft⟩ := exists_digits_of_span hb left
          have hfirst : whole.bytes.head? ≠ some 0x30 := by
            obtain ⟨c, others, hcons, -⟩ := exists_first_digit whole
            rw [hcons] at hwhole ⊢
            obtain ⟨rfl, -⟩ := List.cons.inj hwhole
            simpa using hzero
          rw [hwhole, number_digits_bytes whole hfirst hleft] at h
          obtain ⟨decimals, e, rfl, hends⟩ := shape_of_fraction hleft h
          refine ⟨⟨negative, whole, decimals, e, fun h => absurd h hfirst⟩, rfl, ?_, hends⟩
          rw [hwhole, Numeral.unsigned, List.append_assoc]
        · rw [number, if_neg (by simpa using hzero), if_neg hb] at h
          cases h

/-- A numeral starts with its minus or with a digit. -/
theorem text_cases (n : Numeral) : (n.negative = true ∧ n.text = 0x2d :: n.unsigned)
    ∨ (n.negative = false ∧ n.text = n.unsigned
      ∧ ∃ b tail, n.unsigned = b :: tail ∧ Ascii.isDigit b = true) := by
  rw [Numeral.text]
  cases n.negative with
  | true => exact .inl ⟨rfl, rfl⟩
  | false =>
      obtain ⟨b, tail, hwhole, hb⟩ := exists_first_digit n.whole
      exact .inr ⟨rfl, rfl, b, _, by rw [Numeral.unsigned, hwhole]; rfl, hb⟩

/-! ### The reader of numbers -/

/-- **The reader of numbers accepts the numerals that have a number**, in front of their ends. -/
theorem number_eq_ok_iff : number negative unread = .ok (v, rest) ↔ ∃ (n : Numeral) (w : Number),
    n.negative = negative ∧ unread = n.unsigned ++ rest ∧ Numeral.Ends n.decimals n.exponent rest
      ∧ n.value? = some w ∧ v = .number w := by
  constructor
  · intro h
    obtain ⟨n, rfl, rfl, hends⟩ := shape_of_number h
    have hoption := toOption_number n hends
    rw [h] at hoption
    obtain ⟨w, hw, heq⟩ := Option.map_eq_some_iff.1 hoption.symm
    exact ⟨n, w, rfl, rfl, hends, hw, (congrArg Prod.fst heq).symm⟩
  · rintro ⟨n, w, rfl, rfl, hends, hw, rfl⟩
    apply eq_ok_of_toOption_eq_some
    rw [toOption_number n hends, hw]
    rfl

end Reader

end ApiClient.Json
