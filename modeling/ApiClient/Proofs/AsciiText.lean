import ApiClient.Text.Percent
import ApiClient.Text.Utf8
import Mathlib.Data.List.TakeDrop
import Mathlib.Data.List.TakeWhile

/-!
# ApiClient.Proofs.AsciiText

The UTF-8 form of text that is plain ASCII.

An ASCII character is one byte, and every byte of any other character is 128 or more. So a class of
ASCII bytes is a class of characters, and a byte string of such a class is the text that its bytes
spell.
-/

namespace ApiClient

/-! ### Characters and bytes -/

theorem utf8EncodeChar_of_ascii {c : Char} (h : c.toNat < 0x80) :
    String.utf8EncodeChar c = [Ascii.byte c] := by
  have hle : c.val.toNat ≤ 0x7f := Nat.le_of_lt_succ h
  rw [String.utf8EncodeChar]
  simp only [hle, if_true]
  rfl

/-- A character of more than one byte has no ASCII byte. -/
theorem high_of_mem_utf8EncodeChar {c : Char} (hc : ¬ c.toNat < 0x80) {b : UInt8}
    (hb : b ∈ String.utf8EncodeChar c) : ¬ b < 0x80 := by
  have hlt : ¬ c.val.toNat ≤ 0x7f := by
    show ¬ c.toNat ≤ 0x7f
    omega
  have hhigh : ∀ n, 0x80 ≤ n → n < 0x100 → ¬ UInt8.ofNat n < 0x80 := by
    intro n hge hle hbyte
    have hnat : (UInt8.ofNat n).toNat < 0x80 := hbyte
    rw [UInt8.toNat_ofNat', Nat.mod_eq_of_lt hle] at hnat
    omega
  rw [String.utf8EncodeChar] at hb
  simp only [hlt, if_false] at hb
  -- Two, three and four bytes, each of them a remainder above a bound of 128 or more.
  split at hb
  · simp only [List.mem_cons, List.not_mem_nil, or_false] at hb
    rcases hb with rfl | rfl <;> exact hhigh _ (by omega) (by omega)
  · split at hb
    · simp only [List.mem_cons, List.not_mem_nil, or_false] at hb
      rcases hb with rfl | rfl | rfl <;> exact hhigh _ (by omega) (by omega)
    · simp only [List.mem_cons, List.not_mem_nil, or_false] at hb
      rcases hb with rfl | rfl | rfl | rfl <;> exact hhigh _ (by omega) (by omega)

theorem ascii_of_utf8EncodeChar {c : Char} (h : ∀ b ∈ String.utf8EncodeChar c, b < 0x80) :
    c.toNat < 0x80 := by
  by_contra hlarge
  obtain ⟨b, hb⟩ := List.exists_mem_of_ne_nil _ (String.utf8EncodeChar_ne_nil (c := c))
  exact high_of_mem_utf8EncodeChar hlarge hb (h b hb)

/-! ### Texts and byte strings -/

namespace Bytes

@[simp] theorem ofText_append (s t : String) : ofText (s ++ t) = ofText s ++ ofText t := by
  simp [ofText]

theorem ofText_ne_nil {s : String} (h : s ≠ "") : ofText s ≠ [] := by
  intro hnil
  have hchars : s.toList = [] := by
    cases hlist : s.toList with
    | nil => rfl
    | cons c rest =>
        rw [ofText, hlist, List.flatMap_cons] at hnil
        exact absurd (List.append_eq_nil_iff.1 hnil).1 String.utf8EncodeChar_ne_nil
  exact h (String.toList_eq_nil_iff.1 hchars)

theorem ofText_ofList_of_ascii {chars : List Char} (h : ∀ c ∈ chars, c.toNat < 0x80) :
    ofText (String.ofList chars) = chars.map Ascii.byte := by
  rw [ofText, String.toList_ofList]
  induction chars with
  | nil => rfl
  | cons c rest ih =>
      rw [List.flatMap_cons, utf8EncodeChar_of_ascii (h c List.mem_cons_self),
        ih fun c hmem => h c (List.mem_cons_of_mem _ hmem)]
      rfl

theorem ofText_ofList_append (s t : List Char) :
    ofText (String.ofList (s ++ t)) = ofText (String.ofList s) ++ ofText (String.ofList t) := by
  rw [String.ofList_append, ofText_append]

theorem ofText_ofList_cons {c : Char} (hc : c.toNat < 0x80) (s : List Char) :
    ofText (String.ofList (c :: s)) = Ascii.byte c :: ofText (String.ofList s) := by
  rw [ofText, ofText, String.toList_ofList, String.toList_ofList, List.flatMap_cons,
    utf8EncodeChar_of_ascii hc]
  rfl

/-- An ASCII byte of a text is a character of it. -/
theorem mem_of_byte_mem_ofText {chars : List Char} {c : Char} (hc : c.toNat < 0x80)
    (h : Ascii.byte c ∈ ofText (String.ofList chars)) : c ∈ chars := by
  rw [ofText, String.toList_ofList] at h
  obtain ⟨d, hd, hmem⟩ := List.mem_flatMap.1 h
  by_cases hascii : d.toNat < 0x80
  · rw [utf8EncodeChar_of_ascii hascii] at hmem
    have hsame := congrArg UInt8.toNat (List.mem_singleton.1 hmem)
    rw [Ascii.toNat_byte hc, Ascii.toNat_byte hascii] at hsame
    rwa [Char.toNat_inj.1 hsame]
  · have hbyte : (Ascii.byte c).toNat < 0x80 := by rwa [Ascii.toNat_byte hc]
    exact absurd hbyte (high_of_mem_utf8EncodeChar hascii hmem)

/-- No byte of a character is that of another ASCII character. -/
theorem byte_not_mem_utf8EncodeChar {c d : Char} (hd : d.toNat < 0x80) (hne : c ≠ d) :
    Ascii.byte d ∉ String.utf8EncodeChar c := by
  intro hmem
  have hbyte : Ascii.byte d ∈ ofText (String.ofList [c]) := by
    rwa [ofText, String.toList_ofList, List.flatMap_singleton]
  exact hne (List.mem_singleton.1 (mem_of_byte_mem_ofText hd hbyte)).symm

/-- A text is ASCII if its UTF-8 form is. -/
theorem ascii_of_ofText {s : String} (h : ∀ b ∈ ofText s, b < 0x80) :
    ∀ c ∈ s.toList, c.toNat < 0x80 :=
  fun c hmem => ascii_of_utf8EncodeChar fun b hb => h b (List.mem_flatMap.2 ⟨c, hmem, hb⟩)

/-- A number is written in digits. -/
theorem isDigit_of_mem_ofText_toString {n : Nat} {b : UInt8} (hmem : b ∈ ofText (toString n)) :
    Ascii.isDigit b = true := by
  have hdigit : ∀ c ∈ Nat.toDigits 10 n, 48 ≤ c.toNat ∧ c.toNat ≤ 57 := by
    intro c hc
    have h := Nat.isDigit_of_mem_toDigits (by decide) (by decide) hc
    simpa [Char.isDigit, UInt32.le_iff_toNat_le] using h
  rw [Nat.toString_eq_repr, Nat.repr_eq_ofList_toDigits, ofText_ofList_of_ascii fun c hc =>
    Nat.lt_of_le_of_lt (hdigit c hc).2 (by decide)] at hmem
  obtain ⟨c, hc, rfl⟩ := List.mem_map.1 hmem
  obtain ⟨hlow, hhigh⟩ := hdigit c hc
  have hbyte := Ascii.toNat_byte (show c.toNat < 0x80 by omega)
  simp only [Ascii.isDigit, Bool.and_eq_true, decide_eq_true_eq, UInt8.le_iff_toNat_le, hbyte]
  exact ⟨hlow, hhigh⟩

end Bytes

/-! ### Classes and tokens -/

/-- What holds of all 256 bytes holds of each. -/
theorem forall_byte {p : UInt8 → Prop} (h : ∀ k : Fin 256, p (UInt8.ofNat k))
    (b : UInt8) : p b := by
  have hb := h ⟨b.toNat, b.toNat_lt⟩
  rwa [UInt8.ofNat_toNat] at hb

/-- What holds of all 128 ASCII characters holds of each. -/
theorem forall_ascii {p : Char → Prop} (h : ∀ k : Fin 0x80, p (Char.ofNat k)) {c : Char}
    (hc : c.toNat < 0x80) : p c := by
  have hchar := h ⟨c.toNat, hc⟩
  rwa [Char.ofNat_toNat] at hchar

theorem lt_of_isAlphanum {c : Char} (h : c.isAlphanum = true) : c.toNat < 0x80 := by
  rcases Bool.or_eq_true_iff.1 h with halpha | hdigit
  · rcases Bool.or_eq_true_iff.1 halpha with hupper | hlower
    · have hbound : c.toNat ≤ 'Z'.toNat := UInt32.le_iff_toNat_le.1 (of_decide_eq_true hupper).2
      exact Nat.lt_of_le_of_lt hbound (by decide)
    · have hbound : c.toNat ≤ 'z'.toNat :=
        UInt32.le_iff_toNat_le.1 (of_decide_eq_true (Bool.and_eq_true_iff.1 hlower).2)
      exact Nat.lt_of_le_of_lt hbound (by decide)
  · have hbound : c.toNat ≤ '9'.toNat :=
      UInt32.le_iff_toNat_le.1 (of_decide_eq_true (Bool.and_eq_true_iff.1 hdigit).2)
    exact Nat.lt_of_le_of_lt hbound (by decide)

/-- A class of bytes lies within another if it does so among all 256 bytes. -/
theorem all_mono {p q : UInt8 → Bool}
    (h : ∀ k : Fin 256, p (UInt8.ofNat k) = true → q (UInt8.ofNat k) = true) {bytes : Bytes}
    (hall : bytes.all p = true) : bytes.all q = true := by
  refine List.all_eq_true.2 fun b hmem => ?_
  exact forall_byte (p := fun b => p b = true → q b = true) h b (List.all_eq_true.1 hall b hmem)

/-- A list is cut behind its longest front in a class. -/
theorem span_append {α : Type} {p : α → Bool} {front rest : List α}
    (hfront : ∀ a ∈ front, p a = true) (hrest : ∀ a ∈ rest.head?, p a = false) :
    (front ++ rest).span p = (front, rest) := by
  rw [List.span_eq_takeWhile_dropWhile, List.takeWhile_append_of_pos hfront,
    List.dropWhile_append_of_pos hfront]
  cases rest with
  | nil => simp
  | cons a rest =>
      have hstop : ¬ p a = true := ne_true_of_eq_false (hrest a rfl)
      rw [List.takeWhile_cons_of_neg hstop, List.dropWhile_cons_of_neg hstop, List.append_nil]

/-- Every list is a front in a class and a rest that starts with none of it. -/
theorem exists_span {α : Type} (p : α → Bool) (s : List α) :
    ∃ front rest, s = front ++ rest ∧ (∀ a ∈ front, p a = true)
      ∧ ∀ a ∈ rest.head?, p a = false := by
  refine ⟨s.takeWhile p, s.dropWhile p, List.takeWhile_append_dropWhile.symm,
    fun a hmem => List.mem_takeWhile_imp hmem, fun a hhead => ?_⟩
  have h := List.head?_dropWhile_not p s
  rwa [Option.mem_def.1 hhead] at h

/-- A token ends at the first byte that cannot stand in it. -/
theorem span_append_cons {p : UInt8 → Bool} {token : Bytes} {b : UInt8}
    (htoken : token.all p = true) (hb : p b = false) (rest : Bytes) :
    (token ++ b :: rest).span p = (token, b :: rest) :=
  span_append (List.all_eq_true.1 htoken) (by simpa using hb)

theorem span_of_all {p : UInt8 → Bool} {token : Bytes} (htoken : token.all p = true) :
    token.span p = (token, []) := by
  have hspan : (token ++ []).span p = (token, []) :=
    span_append (List.all_eq_true.1 htoken) (by simp)
  rwa [List.append_nil] at hspan

end ApiClient
