import ApiClient.Proofs.EncodedText

/-!
# ApiClient.Proofs.ExpansionDecoding

Percent-decoding undoes expansion.

A literal and a value are decoded each for itself, with anything behind them: what a literal becomes
ends in no percent sign that could take digits from what follows, because every sign in it has two
digits of its own behind it. So the decoding of an expansion is put together from the slots of the
template (`Split.decoded`), whatever stands next to what.

A literal is followed along its percent signs. A sign that starts a triplet is kept, and decodes to
the byte of the triplet on both sides; any other sign was encoded by itself, and decodes to itself.
-/

namespace ApiClient

/-! ### Decoding from the front -/

namespace Percent

theorem isHexDigit_eq (b : UInt8) : Ascii.isHexDigit b = (Ascii.hexValue? b).isSome :=
  forall_byte (p := fun b => Ascii.isHexDigit b = (Ascii.hexValue? b).isSome) (by decide +kernel) b

theorem decode_percent_of_not_pair {rest : Bytes} (h : startsWithHexPair rest = false) :
    decode (0x25 :: rest) = 0x25 :: decode rest := by
  match rest with
  | [] => rfl
  | [_] => rfl
  | hi :: lo :: rest =>
      rw [startsWithHexPair, isHexDigit_eq, isHexDigit_eq] at h
      rw [decode]
      cases hhi : Ascii.hexValue? hi with
      | none => simp
      | some _ =>
          cases hlo : Ascii.hexValue? lo with
          | none => simp
          | some _ => simp [hhi, hlo] at h

theorem startsWithHexPair_of_not {b : UInt8} (h : Ascii.isHexDigit b = false) (rest : Bytes) :
    startsWithHexPair (b :: rest) = false := by
  cases rest with
  | nil => rfl
  | cons _ _ => simp [startsWithHexPair, h]

/-- A triplet stands for a byte, whatever follows it. -/
theorem exists_decode_pair {hi lo : UInt8} (hhi : Ascii.isHexDigit hi = true)
    (hlo : Ascii.isHexDigit lo = true) :
    ∃ b, ∀ rest, decode (0x25 :: hi :: lo :: rest) = b :: decode rest := by
  rw [isHexDigit_eq] at hhi hlo
  obtain ⟨h, hh⟩ := Option.isSome_iff_exists.1 hhi
  obtain ⟨l, hl⟩ := Option.isSome_iff_exists.1 hlo
  refine ⟨(16 * h + l).toUInt8, ?_⟩
  intro rest
  simp [decode, hh, hl]

theorem decode_append_of_not_mem {bytes : Bytes} (h : 0x25 ∉ bytes) (rest : Bytes) :
    decode (bytes ++ rest) = bytes ++ decode rest := by
  induction bytes with
  | nil => rfl
  | cons b bytes ih =>
      obtain ⟨hb, hbytes⟩ := not_or.1 (mt List.mem_cons.2 h)
      rw [List.cons_append, decode_cons_of_ne (Ne.symm hb), ih hbytes]
      rfl

end Percent

namespace Template

/-! ### Literals -/

theorem isHexDigit_byte {c : Char} (hc : c.toNat < 0x80) :
    Ascii.isHexDigit (Ascii.byte c) = isHexDigit c :=
  forall_ascii (p := fun c => Ascii.isHexDigit (Ascii.byte c) = isHexDigit c) (by decide +kernel) hc

/-- A character starts with a byte that is a hexadecimal digit if it is one itself, and then this
byte is all of it. -/
theorem exists_utf8EncodeChar (c : Char) :
    ∃ b bytes, String.utf8EncodeChar c = b :: bytes ∧ Ascii.isHexDigit b = isHexDigit c
      ∧ (isHexDigit c = true → bytes = []) := by
  by_cases hc : c.toNat < 0x80
  · exact ⟨Ascii.byte c, [], utf8EncodeChar_of_ascii hc, isHexDigit_byte hc, fun _ => rfl⟩
  · have hdigit : isHexDigit c = false := by
      refine eq_false_of_ne_true ?_
      intro h
      exact hc (isKept_of_isHexDigit h).1.1
    obtain ⟨b, bytes, hbytes⟩ := List.exists_cons_of_ne_nil (String.utf8EncodeChar_ne_nil (c := c))
    have hhigh : ¬ b < 0x80 := high_of_mem_utf8EncodeChar hc (by simp [hbytes])
    have hclass : Ascii.isHexDigit b = true → b < 0x80 :=
      forall_byte (p := fun b => Ascii.isHexDigit b = true → b < 0x80) (by decide +kernel) b
    refine ⟨b, bytes, hbytes, ?_, ?_⟩
    · rw [hdigit]
      exact eq_false_of_ne_true fun h => hhigh (hclass h)
    · simp [hdigit]

/-- A text goes on with two hexadecimal digits if its bytes do. -/
theorem startsWithHexPair_ofText (s : List Char) :
    Percent.startsWithHexPair (Bytes.ofText (String.ofList s)) = startsWithHexPair s := by
  rw [Bytes.ofText, String.toList_ofList]
  cases s with
  | nil => rfl
  | cons c rest =>
      obtain ⟨b, bytes, hbytes, hb, hsingle⟩ := exists_utf8EncodeChar c
      rw [List.flatMap_cons, hbytes, List.cons_append]
      cases hc : isHexDigit c with
      | false =>
          rw [Percent.startsWithHexPair_of_not (hb.trans hc)]
          cases rest with
          | nil => rfl
          | cons d rest => simp [startsWithHexPair, hc]
      | true =>
          obtain rfl := hsingle hc
          cases rest with
          | nil => rfl
          | cons d rest =>
              obtain ⟨b', bytes', hbytes', hb', -⟩ := exists_utf8EncodeChar d
              simp [hbytes', Percent.startsWithHexPair, startsWithHexPair, hb, hb']

theorem lt_of_keepsInLiteral {b : UInt8} (h : keepsInLiteral b = true) : b < 0x80 :=
  forall_byte (p := fun b => keepsInLiteral b = true → b < 0x80) (by decide +kernel) b h

theorem decode_ofText_sign {rest : List Char} (h : startsWithHexPair rest = false) :
    Percent.decode (Bytes.ofText (String.ofList ('%' :: rest))) =
      0x25 :: Percent.decode (Bytes.ofText (String.ofList rest)) := by
  rw [Bytes.ofText_ofList_cons (by decide)]
  exact Percent.decode_percent_of_not_pair ((startsWithHexPair_ofText rest).trans h)

theorem decode_ofText_cons {c : Char} (hc : c ≠ '%') (rest : List Char) :
    Percent.decode (Bytes.ofText (String.ofList (c :: rest))) =
      String.utf8EncodeChar c ++ Percent.decode (Bytes.ofText (String.ofList rest)) := by
  have hbytes : Bytes.ofText (String.ofList (c :: rest)) =
      String.utf8EncodeChar c ++ Bytes.ofText (String.ofList rest) := by simp [Bytes.ofText]
  rw [hbytes]
  exact Percent.decode_append_of_not_mem (Bytes.byte_not_mem_utf8EncodeChar (by decide) hc) _

theorem ofText_triplet {hi lo : Char} (hhi : isHexDigit hi = true) (hlo : isHexDigit lo = true)
    (rest : List Char) :
    Bytes.ofText (String.ofList ('%' :: hi :: lo :: rest)) =
      0x25 :: Ascii.byte hi :: Ascii.byte lo :: Bytes.ofText (String.ofList rest) := by
  rw [Bytes.ofText_ofList_cons (by decide), Bytes.ofText_ofList_cons (isKept_of_isHexDigit hhi).1.1,
    Bytes.ofText_ofList_cons (isKept_of_isHexDigit hlo).1.1]
  rfl

/-- A character other than the percent sign decodes to its bytes, kept or encoded. -/
theorem decode_encodeChar {c : Char} (hc : c ≠ '%') (rest : Bytes) :
    Percent.decode
      ((Percent.encode keepsInLiteral (String.utf8EncodeChar c)).map Ascii.byte ++ rest) =
        String.utf8EncodeChar c ++ Percent.decode rest := by
  refine Percent.decode_encode_append ?_ rest
  intro b hb hkeeps
  refine ⟨lt_of_keepsInLiteral hkeeps, ?_⟩
  rintro rfl
  exact Bytes.byte_not_mem_utf8EncodeChar (show '%'.toNat < 0x80 by decide) hc hb

/-- A literal decodes to what it decodes to before it is encoded, whatever follows it. -/
theorem decode_encodeLiteral (literal : List Char) (rest : Bytes) :
    Percent.decode ((encodeLiteral literal).map Ascii.byte ++ rest) =
      Percent.decode (Bytes.ofText (String.ofList literal)) ++ Percent.decode rest := by
  match literal with
  | [] => rfl
  | c :: literal =>
      by_cases hc : c = '%'
      · obtain rfl := hc
        by_cases hpair : startsWithHexPair literal = true
        · match literal, hpair with
          | hi :: lo :: literal, hpair =>
              obtain ⟨hhi, hlo⟩ := Bool.and_eq_true_iff.1 hpair
              obtain ⟨b, hb⟩ := Percent.exists_decode_pair
                ((isHexDigit_byte (isKept_of_isHexDigit hhi).1.1).trans hhi)
                ((isHexDigit_byte (isKept_of_isHexDigit hlo).1.1).trans hlo)
              rw [encodeLiteral_triplet hhi hlo, ofText_triplet hhi hlo, hb, List.cons_append,
                ← decode_encodeLiteral literal rest]
              exact hb _
        · have htriplet :
              ∀ behind : Bytes, Percent.decode (['%', '2', '5'].map Ascii.byte ++ behind) =
                0x25 :: Percent.decode behind := fun behind => Percent.decode_triplet 0x25 behind
          rw [encodeLiteral, if_pos rfl, if_neg hpair,
            decode_ofText_sign (eq_false_of_ne_true hpair),
            List.map_append, List.append_assoc, htriplet, decode_encodeLiteral literal rest,
            List.cons_append]
      · rw [encodeLiteral, if_neg hc, decode_ofText_cons hc, List.map_append, List.append_assoc,
          decode_encodeChar hc, decode_encodeLiteral literal rest, List.append_assoc]
termination_by literal.length

/-! ### Slots -/

theorem decode_encodeValue (value : String) (rest : Bytes) :
    Percent.decode ((encodeValue value).map Ascii.byte ++ rest) =
      Bytes.ofText value ++ Percent.decode rest := by
  refine Percent.decode_encode_append ?_ rest
  intro b _
  exact forall_byte (p := fun b => isUnreserved b = true → b < 0x80 ∧ b ≠ 0x25)
    (by decide +kernel) b

/-- What a slot stands for in bytes: the literal decoded, and the value as it is. -/
def Slot.decoded (s : Slot) : Bytes :=
  Percent.decode (Bytes.ofText (String.ofList s.literal)) ++ Bytes.ofText s.value

theorem decode_filled (s : Slot) (rest : Bytes) :
    Percent.decode (s.filled.map Ascii.byte ++ rest) = s.decoded ++ Percent.decode rest := by
  rw [Slot.filled, List.map_append, List.append_assoc, decode_encodeLiteral, decode_encodeValue,
    Slot.decoded, List.append_assoc]

theorem decode_slots (slots : List Slot) (rest : Bytes) :
    Percent.decode ((slots.flatMap Slot.filled).map Ascii.byte ++ rest) =
      slots.flatMap Slot.decoded ++ Percent.decode rest := by
  induction slots with
  | nil => rfl
  | cons s slots ih =>
      rw [List.flatMap_cons, List.map_append, List.append_assoc, decode_filled, ih,
        List.flatMap_cons, List.append_assoc]

/-- A template split into slots that fit and a last literal. -/
structure Split (bindings : Variables) (text : List Char) where
  /-- The slots. -/
  slots : List Slot
  /-- The literal behind the last of them. -/
  last : List Char
  /-- The slots have the values of their variables. -/
  fit : Fit bindings 0 slots
  /-- The last literal has no brace. -/
  braceFree : BraceFree last
  /-- Together they are the template. -/
  text_eq : text = slots.flatMap Slot.text ++ last

variable {bindings : Variables} {text : List Char}

/-- What a template stands for in bytes: its literals decoded, and the values as they are. -/
def Split.decoded (split : Split bindings text) : Bytes :=
  split.slots.flatMap Slot.decoded ++ Percent.decode (Bytes.ofText (String.ofList split.last))

/-- What a template becomes. -/
def Split.filled (split : Split bindings text) : List Char :=
  split.slots.flatMap Slot.filled ++ encodeLiteral split.last

theorem Split.expands (split : Split bindings text) : Expands bindings 0 text split.filled :=
  ⟨split.slots, split.last, split.fit, split.braceFree, split.text_eq, rfl⟩

theorem Expands.nonempty_split {result : List Char} (h : Expands bindings 0 text result) :
    Nonempty (Split bindings text) := by
  obtain ⟨slots, last, hfit, hlast, htext, -⟩ := h
  exact ⟨⟨slots, last, hfit, hlast, htext⟩⟩

theorem Split.decode_filled (split : Split bindings text) :
    Percent.decode (split.filled.map Ascii.byte) = split.decoded := by
  have hlast := decode_encodeLiteral split.last []
  rw [List.append_nil, show Percent.decode [] = [] from rfl, List.append_nil] at hlast
  rw [Split.filled, List.map_append, decode_slots, hlast]
  rfl

end Template

namespace Address

/-- **Percent-decoding undoes expansion.** A template that expands can be split into slots and a
last literal, and however it is split, the expansion decodes to the literals, each decoded by
itself, and the bytes of the values, in the order of the template. -/
theorem decoding_undoes_expansion {template : String} {bindings : Variables} {target : String}
    (h : expand template bindings = .ok target) :
    Nonempty (Template.Split bindings template.toList)
    ∧ ∀ split : Template.Split bindings template.toList,
      Percent.decode (Bytes.ofText target) = split.decoded := by
  obtain ⟨chars, hchars, rfl⟩ := expand_eq_ok_iff.1 h
  refine ⟨(Template.expandFrom_eq_ok_iff.1 hchars).nonempty_split, ?_⟩
  intro split
  have hsame : Except.ok split.filled = Except.ok chars :=
    split.expands.expandFrom_eq.symm.trans hchars
  have hencoded := split.expands.encoded
  rw [← Except.ok.inj hsame, Bytes.ofText_ofList_of_ascii fun c hc => (hencoded.isKept c hc).1,
    split.decode_filled]

/-- The template `a%{x}%C3%A4%2{y}` with values that go on as its percent signs would. -/
def seams : Template.Split (.positional ["41", "%41ä"]) "a%\x7bx\x7d%C3%A4%2\x7by\x7d".toList where
  slots := [⟨"a%".toList, "x".toList, "41"⟩, ⟨"%C3%A4%2".toList, "y".toList, "%41ä"⟩]
  last := []
  fit := by
    have hfirst :
        Template.Slot.Fits ⟨"a%".toList, "x".toList, "41"⟩ (.positional ["41", "%41ä"]) 0 :=
      ⟨by decide, by decide, by decide, .positional rfl⟩
    have hsecond : Template.Slot.Fits ⟨"%C3%A4%2".toList, "y".toList, "%41ä"⟩
        (.positional ["41", "%41ä"]) 1 := ⟨by decide, by decide, by decide, .positional rfl⟩
    exact Template.fit_cons.2 ⟨hfirst, Template.fit_cons.2 ⟨hsecond, Template.fit_nil _ _⟩⟩
  braceFree := Template.braceFree_nil
  text_eq := by decide

/-- No triplet forms across a seam. -/
theorem seams_decode_apart :
    expand "a%\x7bx\x7d%C3%A4%2\x7by\x7d" (.positional ["41", "%41ä"]) =
      .ok "a%2541%C3%A4%252%2541%C3%A4"
      ∧ Percent.decode (Bytes.ofText "a%2541%C3%A4%252%2541%C3%A4") =
        Bytes.ofText "a%41ä%2%41ä" := by
  have hexpand : expand "a%\x7bx\x7d%C3%A4%2\x7by\x7d" (.positional ["41", "%41ä"]) =
      .ok "a%2541%C3%A4%252%2541%C3%A4" := eq_ok_of_toOption_eq_some (by decide +kernel)
  obtain ⟨-, hdecoded⟩ := decoding_undoes_expansion hexpand
  exact ⟨hexpand, (hdecoded seams).trans (by decide +kernel)⟩

end Address

end ApiClient
