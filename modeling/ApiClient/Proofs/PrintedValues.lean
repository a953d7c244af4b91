import ApiClient.Proofs.JsonRoundTrip

/-!
# ApiClient.Proofs.PrintedValues

Different values have different texts.

Reading a text is no help with doubles, because reading rounds more than once and takes neighbours
for one another. But the decimal that a text shows can be told from the text alone
(`Decimal.shown`), and the shortest decimal of a double lies among the reals that round to this
double and to no other. So a text belongs to one double only (`Double.render_injective`).

For anything else the reader tells where the text of a value ends, and which kind of value it is
(`eq_of_print_append`). So lists and objects are compared item by item.
-/

namespace ApiClient

open Bytes

/-! ### Shown decimals -/

namespace Double

/-- The power of ten behind the mark of an exponent. -/
def shownPower : List Char → Int
  | '-' :: digits => -(Nat.ofDigitChars 10 digits 0 : Int)
  | '+' :: digits => Nat.ofDigitChars 10 digits 0
  | _ => 0

/-- The decimal that a text shows: the digits around the point as one number, and the power of ten
less the places behind the point. -/
def Decimal.shown (text : List Char) : Decimal :=
  let (front, back) := text.span (· != 'e')
  let (whole, point) := front.span (· != '.')
  ⟨Nat.ofDigitChars 10 (whole ++ point.drop 1) 0, shownPower (back.drop 1) - (point.drop 1).length⟩

open Json (AreDigits)

theorem ne_mark_of_areDigits {digits : List Char} (h : AreDigits digits) :
    ∀ c ∈ digits, (c != 'e') = true ∧ (c != '.') = true := by
  intro c hc
  have hdigit := h c hc
  constructor
  · rw [bne_iff_ne]
    rintro rfl
    exact absurd hdigit (by decide)
  · rw [bne_iff_ne]
    rintro rfl
    exact absurd hdigit (by decide)

theorem shown_append {whole point back : List Char} (hwhole : AreDigits whole)
    (hpoint : ∀ c ∈ point.head?, c = '.') (hdecimals : AreDigits (point.drop 1))
    (hback : ∀ c ∈ back.head?, c = 'e') : Decimal.shown (whole ++ point ++ back) =
      ⟨Nat.ofDigitChars 10 (whole ++ point.drop 1) 0,
        shownPower (back.drop 1) - (point.drop 1).length⟩ := by
  have hfront : ∀ c ∈ whole ++ point, (c != 'e') = true := by
    intro c hc
    rcases List.mem_append.1 hc with hc | hc
    · exact (ne_mark_of_areDigits hwhole c hc).1
    · cases point with
      | nil => cases hc
      | cons mark decimals =>
          rcases List.mem_cons.1 hc with rfl | hc
          · rw [hpoint c rfl]
            rfl
          · exact (ne_mark_of_areDigits hdecimals c hc).1
  have hcutBack : (whole ++ point ++ back).span (· != 'e') = (whole ++ point, back) :=
    span_append hfront fun c hc => by rw [hback c hc]; rfl
  have hcutPoint : (whole ++ point).span (· != '.') = (whole, point) :=
    span_append (fun c hc => (ne_mark_of_areDigits hwhole c hc).2) fun c hc =>
      by rw [hpoint c hc]; rfl
  simp only [Decimal.shown, hcutBack, hcutPoint]

/-- Digits, the point, and digits. -/
theorem shown_point {whole decimals : List Char} (hwhole : AreDigits whole)
    (hdecimals : AreDigits decimals) :
    Decimal.shown (whole ++ '.' :: decimals) =
      ⟨Nat.ofDigitChars 10 (whole ++ decimals) 0, -decimals.length⟩ := by
  have hpoint : ∀ c ∈ ('.' :: decimals).head?, c = '.' := by simp
  have hnothing : ∀ c ∈ ([] : List Char).head?, c = 'e' := by simp
  have hshown := shown_append hwhole hpoint hdecimals hnothing
  rw [List.append_nil] at hshown
  rw [hshown]
  exact congrArg (Decimal.mk _) (Int.zero_sub _)

theorem shownPower_signed (down : Bool) (power : Nat) :
    shownPower ((if down then '-' else '+') :: Nat.toDigits 10 power) =
      if down then -(power : Int) else power := by
  cases down with
  | true => exact congrArg (fun n : Nat => -(n : Int)) (Json.ofDigitChars_toDigits power)
  | false => exact congrArg (fun n : Nat => (n : Int)) (Json.ofDigitChars_toDigits power)

/-- A laid out decimal shows what is read off it. -/
theorem shown_layout (d : Decimal) : Decimal.shown d.layout.toList = d.asRead := by
  have hlaid := d.laidOut_layout
  generalize d.layout.toList = text at hlaid
  generalize d.asRead = read at hlaid
  have hall := Json.areDigits_toDigits d.digits
  have hvalue := Json.ofDigitChars_toDigits d.digits
  have htake (n : Nat) : AreDigits ((Nat.toDigits 10 d.digits).take n) :=
    fun c hc => hall c (List.mem_of_mem_take hc)
  have hdrop (n : Nat) : AreDigits ((Nat.toDigits 10 d.digits).drop n) :=
    fun c hc => hall c (List.mem_of_mem_drop hc)
  cases hlaid with
  | whole zeros _ =>
      have hone : AreDigits ['0'] := Json.areDigits_zeros 1
      rw [shown_point (hall.append (Json.areDigits_zeros zeros)) hone, Json.ofDigitChars_append,
        Json.ofDigitChars_append, hvalue, Json.ofDigitChars_zeros]
      exact congrArg (Decimal.mk · (-1)) (Json.ofDigitChars_cons ..)
  | split point _ _ =>
      rw [shown_point (htake point) (hdrop point), List.take_append_drop, hvalue, List.length_drop]
  | small zeros =>
      refine (shown_point (Json.areDigits_zeros 1)
        ((Json.areDigits_zeros zeros).append hall)).trans ?_
      rw [Json.ofDigitChars_append, Json.ofDigitChars_append, Json.ofDigitChars_zeros,
        Json.ofDigitChars_zeros,
        Nat.zero_mul, Nat.zero_mul, hvalue, List.length_append, List.length_replicate]
  | scientific down power _ =>
      have hpoint : ∀ c ∈ (if ((Nat.toDigits 10 d.digits).drop 1).isEmpty then []
          else '.' :: (Nat.toDigits 10 d.digits).drop 1).head?, c = '.' := by
        split <;> simp
      have hdecimals : (if ((Nat.toDigits 10 d.digits).drop 1).isEmpty then []
          else '.' :: (Nat.toDigits 10 d.digits).drop 1).drop 1 =
            (Nat.toDigits 10 d.digits).drop 1 := by
        split
        · next hempty => exact (List.isEmpty_iff.1 hempty).symm
        · rfl
      rw [shown_append (htake 1) hpoint (by rw [hdecimals]; exact hdrop 1) (by simp), hdecimals,
        List.take_append_drop, hvalue, List.drop_one, List.tail_cons, shownPower_signed,
          List.length_drop]
      exact congrArg (Decimal.mk _) (Int.sub_eq_add_neg.trans (Int.add_comm _ _))

theorem shown_bareText (d : Double) : Decimal.shown d.bareText.toList = d.asRead := by
  unfold bareText asRead
  split
  · decide
  · exact shown_layout _

/-! ### Doubles -/

/-- A real rounds to one number only. -/
theorem eq_of_covers {x y : Magnitude} {q : ℚ} (hx : x.IsCanonical) (hy : y.IsCanonical)
    (hq : 0 < q) (hxq : x.Covers q) (hyq : y.Covers q) : x.bits.toUInt64 = y.bits.toUInt64 := by
  have hrounded : IsRounded (ofRatio? q.num.toNat q.den) q := by
    refine ⟨_, _, q.den_pos, ?_, rfl⟩
    have hnum : (q.num.toNat : ℚ) = q.num := by
      exact_mod_cast congrArg (Int.cast (R := ℚ)) (Int.toNat_of_nonneg (Rat.num_nonneg.2 hq.le))
    rw [hnum, Rat.num_div_den]
  have hsame := (hrounded.of_covers hx hq hxq).symm.trans (hrounded.of_covers hy hq hyq)
  exact Double.mk.inj (Option.some.inj hsame)

theorem asRead_digits_eq_zero_iff {d : Double} (hd : d.IsFinite) :
    d.asRead.digits = 0 ↔ d.magnitude.mantissa = 0 := by
  unfold asRead
  split
  · next hzero => exact iff_of_true rfl hzero
  · next hzero =>
    have hwritten := isWritten_shortest hd.isCanonical (Nat.pos_of_ne_zero hzero)
    exact iff_of_false (Nat.ne_of_gt (asRead_bounds hwritten).1) hzero

/-- The magnitude of a number other than zero covers the decimal that is written for it. -/
theorem covers_asRead {d : Double} (hd : d.IsFinite) (hzero : d.magnitude.mantissa ≠ 0) :
    0 < d.asRead.value ∧ d.magnitude.Covers d.asRead.value := by
  have hwritten := isWritten_shortest hd.isCanonical (Nat.pos_of_ne_zero hzero)
  have hpos : (0 : ℚ) < d.magnitude.shortest.digits := by exact_mod_cast hwritten.pos
  rw [asRead, if_neg hzero, value_asRead]
  exact ⟨mul_pos hpos (ten_zpow_pos _), hwritten.covers⟩

theorem unsigned_eq_of_asRead {d e : Double} (hd : d.IsFinite) (he : e.IsFinite)
    (h : d.asRead = e.asRead) :
    d.unsigned = e.unsigned := by
  have hzeros : d.magnitude.mantissa = 0 ↔ e.magnitude.mantissa = 0 := by
    rw [← asRead_digits_eq_zero_iff hd, h, asRead_digits_eq_zero_iff he]
  by_cases hzero : d.magnitude.mantissa = 0
  · rw [unsigned_of_zero hd hzero, unsigned_of_zero he (hzeros.1 hzero)]
  · obtain ⟨hpos, hcovers⟩ := covers_asRead hd hzero
    obtain ⟨-, hcovers'⟩ := covers_asRead he (mt hzeros.2 hzero)
    rw [← h] at hcovers'
    exact congrArg Double.mk (eq_of_covers hd.isCanonical he.isCanonical hpos hcovers hcovers')

/-- The first character tells the sign. -/
theorem isNegative_eq_head? {d : Double} (hd : d.IsFinite) :
    d.isNegative = decide (d.render.toList.head? = some '-') := by
  obtain ⟨c, chars, hc, hbare, -⟩ := Json.Reader.exists_bareText hd
  rw [d.toList_render, hbare]
  cases d.isNegative with
  | true => rfl
  | false =>
      have hne : c ≠ '-' := by
        rintro rfl
        exact absurd hc (by decide)
      simpa using hne

/-- **A text belongs to one double only.** -/
theorem render_injective {d e : Double} (hd : d.IsFinite) (he : e.IsFinite)
    (h : d.render = e.render) : d = e := by
  have hsign : d.isNegative = e.isNegative := by
    rw [isNegative_eq_head? hd, h, isNegative_eq_head? he]
  have htext := congrArg String.toList h
  rw [d.toList_render, e.toList_render, hsign] at htext
  have hread : d.asRead = e.asRead := by
    rw [← shown_bareText, List.append_cancel_left htext, shown_bareText]
  rw [← d.signed_unsigned, ← e.signed_unsigned, hsign, unsigned_eq_of_asRead hd he hread]

end Double

/-! ### Values -/

theorem Bytes.ofChars_injective {a b : List Char} (h : ofChars a = ofChars b) : a = b := by
  have hdecode := congrArg Utf8.decode h
  rw [← ofText_ofList, ← ofText_ofList, Utf8.decode_ofText, Utf8.decode_ofText] at hdecode
  rw [← String.toList_ofList (l := a), Except.ok.inj hdecode, String.toList_ofList]

namespace Json

variable {v w : Json}

/-- A value's text ends where the reader says, and the reader says of what kind the value is. -/
theorem eq_of_print_append (hv : v.Everywhere IsRegular) (hw : w.Everywhere IsRegular)
    {rest others : Bytes} (hrest : EndsNumber rest) (hothers : EndsNumber others)
    (h : ofChars v.print ++ rest = ofChars w.print ++ others) :
    v.reread = w.reread ∧ v.print = w.print ∧ rest = others := by
  have hread := readsText_value (max v.height w.height) hv rest hrest
  have hread' := readsText_value (max v.height w.height) hw others hothers
  rw [Reads, if_pos (Nat.le_max_left _ _), h] at hread
  rw [Reads, if_pos (Nat.le_max_right _ _), hread] at hread'
  obtain ⟨hsame, rfl⟩ := Prod.mk.inj (Except.ok.inj hread')
  exact ⟨hsame, ofChars_injective (List.append_cancel_right h), rfl⟩

theorem reread_eq_of_print (hv : v.Everywhere IsRegular) (hw : w.Everywhere IsRegular)
    (h : v.print = w.print) :
    v.reread = w.reread := by
  have hends : EndsNumber [] := by rintro b ⟨⟩
  exact (eq_of_print_append hv hw hends hends (by rw [h])).1

/-- The value is neither a double nor a list nor an object. -/
def IsLeaf : Json → Prop
  | .number (.double _) => False
  | .array _ => False
  | .object _ => False
  | _ => True

theorem reread_of_isLeaf (h : v.IsLeaf) : v.reread = v := by
  cases v with
  | number n =>
      cases n with
      | int i => rfl
      | double d => exact h.elim
  | array items => exact h.elim
  | object fields => exact h.elim
  | null => rfl
  | bool b => rfl
  | string s => rfl

theorem isLeaf_reread (v : Json) : v.reread.IsLeaf ↔ v.IsLeaf := by
  cases v with
  | number n => cases n <;> rfl
  | _ => rfl

/-- A leaf is read as itself, and nothing else is read as it. -/
theorem eq_of_isLeaf (hv : v.IsLeaf) (h : v.reread = w.reread) : v = w := by
  have hw : w.IsLeaf := by rwa [← isLeaf_reread, ← h, isLeaf_reread]
  rw [← reread_of_isLeaf hv, h, reread_of_isLeaf hw]

/-- Equal texts of parts with commas between them are equal behind another part too. -/
theorem printMore_eq_of_whole {γ : Type} {text : γ → List Char} {whole : List γ → List Char}
    (hnil : whole [] = []) (hcons : ∀ p rest, whole (p :: rest) = text p ++ printMore text rest)
    {parts others : List γ} (hparts : ∀ p ∈ parts, text p ≠ [])
    (hothers : ∀ p ∈ others, text p ≠ []) (h : whole parts = whole others) :
    printMore text parts = printMore text others := by
  have hempty {p : γ} {rest : List γ} (hp : text p ≠ []) : whole (p :: rest) ≠ whole [] := by
    rw [hcons, hnil]
    exact List.append_ne_nil_of_left_ne_nil hp _
  cases parts with
  | nil =>
      cases others with
      | nil => rfl
      | cons other others => exact absurd h.symm (hempty (hothers other List.mem_cons_self))
  | cons part parts =>
      cases others with
      | nil => exact absurd h (hempty (hparts part List.mem_cons_self))
      | cons other others =>
          rw [hcons, hcons] at h
          rw [printMore, printMore, h]

theorem printMore_eq_of_printItems {items others : List Json}
    (hitems : EverywhereIn IsRegular items) (hothers : EverywhereIn IsRegular others)
    (h : printItems items = printItems others) :
    printMore print items = printMore print others := by
  have hnonempty {values : List Json} (hregular : EverywhereIn IsRegular values) :
      ∀ v ∈ values, v.print ≠ [] := by
    intro v hmem
    obtain ⟨c, chars, hprint, -⟩ := exists_print_eq_cons (hregular.of_mem v hmem)
    rw [hprint]
    exact List.cons_ne_nil _ _
  exact printMore_eq_of_whole printItems.eq_1 printItems_cons (hnonempty hitems)
    (hnonempty hothers) h

theorem printMore_eq_of_printFields {fields others : Fields}
    (h : printFields fields = printFields others) :
    printMore printField fields = printMore printField others :=
  printMore_eq_of_whole printFields.eq_1 printFields_cons (fun _ _ => List.cons_ne_nil _ _)
    (fun _ _ => List.cons_ne_nil _ _) h

mutual

/-- **Different values have different texts.** -/
theorem print_injective :
    ∀ {v w : Json}, v.Everywhere IsRegular → w.Everywhere IsRegular → v.print = w.print →
    v = w
  | .null, _, hv, hw, h => eq_of_isLeaf trivial (reread_eq_of_print hv hw h)
  | .bool _, _, hv, hw, h => eq_of_isLeaf trivial (reread_eq_of_print hv hw h)
  | .string _, _, hv, hw, h => eq_of_isLeaf trivial (reread_eq_of_print hv hw h)
  | .number (.int _), _, hv, hw, h => eq_of_isLeaf trivial (reread_eq_of_print hv hw h)
  | .number (.double d), w, hv, hw, h => by
      have hreread := reread_eq_of_print hv hw h
      cases w with
      | number n =>
          cases n with
          | int i => cases hreread
          | double e => rw [Double.render_injective hv hw (String.toList_inj.1 h)]
      | _ => cases hreread
  | .array items, w, hv, hw, h => by
      have hreread := reread_eq_of_print hv hw h
      cases w with
      | array others =>
          have hitems : printItems items = printItems others := by simpa [print] using h
          rw [items_injective hv.2 hw.2 (printMore_eq_of_printItems hv.2 hw.2 hitems)]
      | number n => cases n <;> cases hreread
      | _ => cases hreread
  | .object fields, w, hv, hw, h => by
      have hreread := reread_eq_of_print hv hw h
      cases w with
      | object others =>
          have hfields : printFields fields = printFields others := by simpa [print] using h
          rw [fields_injective hv.2 hw.2 (printMore_eq_of_printFields hfields)]
      | number n => cases n <;> cases hreread
      | _ => cases hreread

theorem items_injective : ∀ {items others : List Json}, EverywhereIn IsRegular items →
    EverywhereIn IsRegular others → printMore print items = printMore print others → items = others
  | [], [], _, _, _ => rfl
  | [], _ :: _, _, _, h => nomatch h
  | _ :: _, [], _, _, h => nomatch h
  | item :: items, other :: others, hitems, hothers, h => by
      have htext := congrArg (fun chars => ofChars chars ++ [0x5d]) (List.cons.inj h).2
      simp only [ofChars_append, List.append_assoc] at htext
      obtain ⟨-, hprint, hrest⟩ := eq_of_print_append hitems.1 hothers.1
        (endsNumber_printMore Reader.endsNumber_bracket print items [])
        (endsNumber_printMore Reader.endsNumber_bracket print others []) htext
      have hmore := ofChars_injective (List.append_cancel_right hrest)
      rw [print_injective hitems.1 hothers.1 hprint, items_injective hitems.2 hothers.2 hmore]

theorem fields_injective : ∀ {fields others : List (String × Json)},
    EverywhereUnder IsRegular fields → EverywhereUnder IsRegular others →
    printMore printField fields = printMore printField others → fields = others
  | [], [], _, _, _ => rfl
  | [], _ :: _, _, _, h => nomatch h
  | _ :: _, [], _, _, h => nomatch h
  | (name, v) :: fields, (name', v') :: others, hfields, hothers, h => by
      have hcolon (chars : List Char) : EndsNumber (ofChars (':' :: chars) ++ [0x7d]) := by
        rw [ofChars_cons_of_ascii (by decide)]
        rintro b ⟨⟩
        decide
      have htext := congrArg (fun chars => ofChars chars ++ [0x7d]) (List.cons.inj h).2
      simp only [printField, List.append_assoc, List.cons_append] at htext
      rw [ofChars_append, ofChars_append, List.append_assoc, List.append_assoc] at htext
      obtain ⟨hname, -, hrest⟩ :=
        eq_of_print_append (v := .string name) (w := .string name') trivial trivial (hcolon _)
          (hcolon _) htext
      have hvalue := congrArg (fun chars => ofChars chars ++ [0x7d])
        (List.cons.inj (ofChars_injective (List.append_cancel_right hrest))).2
      simp only [ofChars_append, List.append_assoc] at hvalue
      obtain ⟨-, hprint, hrest⟩ := eq_of_print_append hfields.1 hothers.1
        (endsNumber_printMore Reader.endsNumber_brace printField fields [])
        (endsNumber_printMore Reader.endsNumber_brace printField others []) hvalue
      have hmore := ofChars_injective (List.append_cancel_right hrest)
      rw [Json.string.inj hname, print_injective hfields.1 hothers.1 hprint,
        fields_injective hfields.2 hothers.2 hmore]

end

end Json

end ApiClient
