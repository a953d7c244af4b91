import ApiClient.Proofs.RelativeTargets

/-!
# ApiClient.Proofs.EncodedText

Expansion encodes once.

What comes out of an expansion is encoded text (`Template.Encoded`): characters that a literal
keeps, and percent signs with two hexadecimal digits behind each. A literal and a value become
encoded text each for itself, and encoded texts can be put behind each other. So a percent sign at
the end of a literal cannot start a triplet with a value that looks like two digits: it was encoded
before the value came.

Encoded text is a literal that encoding leaves as it is. It has no braces, so as a template it is
one literal, and expanding it changes nothing.
-/

namespace ApiClient

/-! ### Characters of addresses -/

namespace Uri

/-- A character with a meaning of its own in addresses: a delimiter of the parts of an address, or
one of the delimiters that are left to its parts. -/
def isReserved (b : UInt8) : Bool := (Bytes.ofText ":/?#[]@!$&'()*+,;=").contains b

/-- A character that may stand in an address. -/
def isLegal (b : UInt8) : Bool := Template.isUnreserved b || isReserved b || b == 0x25

end Uri

namespace Template

theorem IsKept.isLegal {c : Char} (h : IsKept c) : Uri.isLegal (Ascii.byte c) = true :=
  forall_byte (p := fun b => keepsInLiteral b = true → Uri.isLegal b = true)
    (by decide +kernel) _ h.2

/-! ### Encoded text -/

/-- A text that is encoded: characters that literals keep, and triplets. -/
inductive Encoded : List Char → Prop where
  /-- Nothing. -/
  | nil : Encoded []
  /-- A character other than the percent sign. -/
  | kept {c : Char} {rest : List Char} (hc : IsKept c) (hne : c ≠ '%') (h : Encoded rest) :
      Encoded (c :: rest)
  /-- A percent sign with two hexadecimal digits. -/
  | triplet {hi lo : Char} {rest : List Char} (hhi : isHexDigit hi = true)
      (hlo : isHexDigit lo = true) (h : Encoded rest) : Encoded ('%' :: hi :: lo :: rest)

/-- A hexadecimal digit is an ASCII character that literals keep. -/
theorem isKept_of_isHexDigit {c : Char} (h : isHexDigit c = true) : IsKept c ∧ c ≠ '%' := by
  have hascii : c.toNat < 0x80 := by
    simp only [isHexDigit, Bool.or_eq_true, Bool.and_eq_true, decide_eq_true_eq, Char.le_def,
      UInt32.le_iff_toNat_le] at h
    simp only [Char.toNat]
    have hnine : '9'.val.toNat = 0x39 := rfl
    have hupper : 'F'.val.toNat = 0x46 := rfl
    have hlower : 'f'.val.toNat = 0x66 := rfl
    omega
  exact forall_ascii (p := fun c => isHexDigit c = true → IsKept c ∧ c ≠ '%') (by decide +kernel)
    hascii h

theorem isHexDigit_hexDigit {n : Nat} (h : n < 16) :
    isHexDigit (Percent.asciiChar (Ascii.hexDigit n)) = true :=
  (by decide : ∀ n : Fin 16, isHexDigit (Percent.asciiChar (Ascii.hexDigit n)) = true) ⟨n, h⟩

namespace Encoded

variable {s t : List Char}

theorem append (hs : Encoded s) (ht : Encoded t) : Encoded (s ++ t) := by
  induction hs with
  | nil => exact ht
  | kept hc hne _ ih => exact .kept hc hne ih
  | triplet hhi hlo _ ih => exact .triplet hhi hlo ih

theorem flatMap {α : Type} {f : α → List Char} (h : ∀ a, Encoded (f a)) (items : List α) :
    Encoded (items.flatMap f) := by
  induction items with
  | nil => exact .nil
  | cons a rest ih => exact (h a).append ih

theorem isKept (h : Encoded s) : ∀ c ∈ s, IsKept c := by
  induction h with
  | nil => exact List.forall_mem_nil _
  | kept hc _ _ ih => exact List.forall_mem_cons.2 ⟨hc, ih⟩
  | triplet hhi hlo _ ih =>
      exact List.forall_mem_cons.2 ⟨by decide, List.forall_mem_cons.2 ⟨(isKept_of_isHexDigit hhi).1,
        List.forall_mem_cons.2 ⟨(isKept_of_isHexDigit hlo).1, ih⟩⟩⟩

/-- Behind every percent sign stand two hexadecimal digits. -/
theorem startsWithHexPair (h : Encoded s) {front rest : List Char} (hs : s = front ++ '%' :: rest) :
    startsWithHexPair rest = true := by
  induction h generalizing front with
  | nil => simp at hs
  | kept _ hne _ ih =>
      cases front with
      | nil => exact absurd (List.cons.inj hs).1 hne
      | cons _ front => exact ih (List.cons.inj hs).2
  | @triplet hi lo behind hhi hlo _ ih =>
      -- The sign is that of the triplet, or stands behind its two digits, which are no signs.
      match front, hs with
      | [], hs =>
          obtain rfl := (List.cons.inj hs).2
          simp [Template.startsWithHexPair, hhi, hlo]
      | [_], hs =>
          exact absurd (List.cons.inj (List.cons.inj hs).2).1 (isKept_of_isHexDigit hhi).2
      | [_, _], hs =>
          exact absurd (List.cons.inj (List.cons.inj (List.cons.inj hs).2).2).1
            (isKept_of_isHexDigit hlo).2
      | _ :: _ :: _ :: front, hs =>
          have hbehind : behind = front ++ '%' :: rest :=
            (List.cons.inj (List.cons.inj (List.cons.inj hs).2).2).2
          exact ih hbehind

theorem braceFree (h : Encoded s) : BraceFree s := by
  constructor
  · intro hmem
    exact absurd (h.isKept _ hmem) (by decide)
  · intro hmem
    exact absurd (h.isKept _ hmem) (by decide)

end Encoded

/-! ### Encoding -/

/-- Bytes become encoded text if those that stand for themselves are kept, and none of them is the
percent sign. -/
theorem Encoded.encode {keeps : UInt8 → Bool} {bytes : Bytes}
    (h : ∀ b ∈ bytes, keeps b = true → IsKept (Percent.asciiChar b) ∧ Percent.asciiChar b ≠ '%') :
    Encoded (Percent.encode keeps bytes) := by
  induction bytes with
  | nil => exact .nil
  | cons b rest ih =>
      obtain ⟨hb, hrest⟩ := List.forall_mem_cons.1 h
      have hlt : b.toNat < 256 := b.toNat_lt
      rw [Percent.encode_cons, Percent.encodeByte]
      split
      · next hkeeps => exact .kept (hb hkeeps).1 (hb hkeeps).2 (ih hrest)
      · exact .triplet (isHexDigit_hexDigit (by omega)) (isHexDigit_hexDigit (by omega)) (ih hrest)

theorem Encoded.encodeValue (value : String) : Encoded (encodeValue value) := by
  refine .encode fun b _ => ?_
  exact forall_byte (p := fun b => isUnreserved b = true →
    IsKept (Percent.asciiChar b) ∧ Percent.asciiChar b ≠ '%') (by decide +kernel) b

/-- What a character other than the percent sign becomes has percent signs in triplets only. -/
theorem Encoded.encodeChar {c : Char} (hc : c ≠ '%') :
    Encoded (Percent.encode keepsInLiteral (String.utf8EncodeChar c)) := by
  refine .encode fun b hb hkeeps => ⟨?_, ?_⟩
  · exact forall_byte (p := fun b => keepsInLiteral b = true → IsKept (Percent.asciiChar b))
      (by decide +kernel) b hkeeps
  · intro hpercent
    have hbyte : b = Ascii.byte '%' :=
      forall_byte
        (p := fun b => keepsInLiteral b = true → Percent.asciiChar b = '%' → b = Ascii.byte '%')
        (by decide +kernel) b hkeeps hpercent
    exact Bytes.byte_not_mem_utf8EncodeChar (by decide) hc (hbyte ▸ hb)

theorem encodeLiteral_kept {c : Char} (hc : IsKept c) (hne : c ≠ '%') (rest : List Char) :
    encodeLiteral (c :: rest) = c :: encodeLiteral rest := by
  rw [encodeLiteral, if_neg hne, utf8EncodeChar_of_ascii hc.1, Percent.encode_cons,
    Percent.encodeByte, if_pos hc.2, Percent.asciiChar_byte hc.1]
  rfl

theorem encodeLiteral_triplet {hi lo : Char} (hhi : isHexDigit hi = true)
    (hlo : isHexDigit lo = true) (rest : List Char) :
    encodeLiteral ('%' :: hi :: lo :: rest) = '%' :: hi :: lo :: encodeLiteral rest := by
  obtain ⟨hhikept, hhine⟩ := isKept_of_isHexDigit hhi
  obtain ⟨hlokept, hlone⟩ := isKept_of_isHexDigit hlo
  have hpair : startsWithHexPair (hi :: lo :: rest) = true := by simp [startsWithHexPair, hhi, hlo]
  rw [encodeLiteral, if_pos rfl, if_pos hpair, encodeLiteral_kept hhikept hhine,
    encodeLiteral_kept hlokept hlone]
  rfl

theorem Encoded.encodeLiteral (literal : List Char) : Encoded (encodeLiteral literal) := by
  -- Along the reading of a literal: a triplet is taken at once, any other sign becomes one itself.
  match literal with
  | [] => exact .nil
  | c :: rest =>
      by_cases hc : c = '%'
      · obtain rfl := hc
        match rest with
        | hi :: lo :: rest =>
            by_cases hpair : Template.startsWithHexPair (hi :: lo :: rest) = true
            · obtain ⟨hhi, hlo⟩ := Bool.and_eq_true_iff.1 hpair
              rw [encodeLiteral_triplet hhi hlo]
              exact .triplet hhi hlo (Encoded.encodeLiteral rest)
            · rw [Template.encodeLiteral, if_pos rfl, if_neg hpair]
              exact .triplet (by decide) (by decide) (Encoded.encodeLiteral (hi :: lo :: rest))
        | [c] => exact .triplet (by decide) (by decide) (Encoded.encodeLiteral [c])
        | [] => exact .triplet (by decide) (by decide) .nil
      · rw [Template.encodeLiteral, if_neg hc]
        exact (Encoded.encodeChar hc).append (Encoded.encodeLiteral rest)
termination_by literal.length

/-- Encoding leaves encoded text as it is. -/
theorem Encoded.encodeLiteral_eq_self {s : List Char} (h : Encoded s) :
    Template.encodeLiteral s = s := by
  induction h with
  | nil => rfl
  | kept hc hne _ ih => rw [encodeLiteral_kept hc hne, ih]
  | triplet hhi hlo _ ih => rw [encodeLiteral_triplet hhi hlo, ih]

/-! ### Expansion -/

theorem Expands.encoded {bindings : Variables} {first : Nat} {text result : List Char}
    (h : Expands bindings first text result) : Encoded result := by
  obtain ⟨slots, last, -, -, -, rfl⟩ := h
  have hslot : ∀ s : Slot, Encoded s.filled := fun s =>
    (Encoded.encodeLiteral s.literal).append (Encoded.encodeValue s.value)
  exact (Encoded.flatMap hslot slots).append (Encoded.encodeLiteral last)

/-- As a template, encoded text expands to itself, whatever the variables are. -/
theorem Encoded.expandFrom_eq {s : List Char} (h : Encoded s) (bindings : Variables) (first : Nat) :
    expandFrom bindings first (readFrom none s) = .ok s := by
  rw [readFrom_done h.braceFree, expandFrom, h.encodeLiteral_eq_self]

end Template

namespace Address

theorem encoded_of_expand {template : String} {bindings : Variables} {target : String}
    (h : expand template bindings = .ok target) : Template.Encoded target.toList := by
  obtain ⟨chars, hchars, rfl⟩ := expand_eq_ok_iff.1 h
  rw [String.toList_ofList]
  exact (Template.expandFrom_eq_ok_iff.1 hchars).encoded

/-- **Expansion encodes exactly once.** What comes out of it has only characters that may stand in
an address, with two hexadecimal digits behind every percent sign, and as a template without
variables it expands to itself. -/
theorem expansion_encodes_once {template : String} {bindings : Variables} {target : String}
    (h : expand template bindings = .ok target) :
    (∀ b ∈ Bytes.ofText target, Uri.isLegal b = true)
    ∧ (∀ front rest, target.toList = front ++ '%' :: rest → Template.startsWithHexPair rest = true)
    ∧ expand target .none = .ok target := by
  have hencoded := encoded_of_expand h
  refine ⟨?_, fun front rest hsplit => hencoded.startsWithHexPair hsplit, ?_⟩
  · have hbytes := Bytes.ofText_ofList_of_ascii fun c hc => (hencoded.isKept c hc).1
    rw [String.ofList_toList] at hbytes
    rw [hbytes]
    exact List.forall_mem_map.2 fun c hc => (hencoded.isKept c hc).isLegal
  · rw [expand, Template.expand, Template.read, hencoded.expandFrom_eq]
    exact congrArg Except.ok String.ofList_toList

/-- Percent signs at the end of a literal, in front of a triplet and in a value. -/
theorem percent_signs_encoded_once :
    expand "%\x7bx\x7d%%41ä\x7by\x7d" (.positional ["41", "%41"]) = .ok "%2541%25%41%C3%A4%2541"
      ∧ (∀ b ∈ Bytes.ofText "%2541%25%41%C3%A4%2541", Uri.isLegal b = true)
      ∧ expand "%2541%25%41%C3%A4%2541" .none = .ok "%2541%25%41%C3%A4%2541" := by
  have hexpand : expand "%\x7bx\x7d%%41ä\x7by\x7d" (.positional ["41", "%41"]) =
      .ok "%2541%25%41%C3%A4%2541" := eq_ok_of_toOption_eq_some (by decide +kernel)
  obtain ⟨hlegal, -, hagain⟩ := expansion_encodes_once hexpand
  exact ⟨hexpand, hlegal, hagain⟩

end Address

end ApiClient
