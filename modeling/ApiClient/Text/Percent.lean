import ApiClient.Text.Bytes

/-!
# ApiClient.Text.Percent

Percent-encoding: a byte is written as itself or as `%` and two upper-case hexadecimal digits.

Design points:

* `encode` takes the class of bytes that stand for themselves. Only ASCII bytes may be in it,
  because what is written is text.
* `decode` undoes `encode` for every class without `%`; a `%` that starts no triplet stands for
  itself.
-/

namespace ApiClient.Percent

/-- The character of an ASCII byte. -/
def asciiChar (b : UInt8) : Char := Char.ofNat b.toNat

/-- The triplet of a byte: `%` and two upper-case hexadecimal digits. -/
def triplet (b : UInt8) : List Char :=
  ['%', asciiChar (Ascii.hexDigit (b.toNat / 16)), asciiChar (Ascii.hexDigit (b.toNat % 16))]

/-- A byte as `encode` writes it. -/
def encodeByte (keeps : UInt8 → Bool) (b : UInt8) : List Char :=
  if keeps b then [asciiChar b] else triplet b

/-- A byte string as text: the bytes of the class `keeps` as they are, the others as triplets. -/
def encode (keeps : UInt8 → Bool) (bytes : Bytes) : List Char := bytes.flatMap (encodeByte keeps)

/-- The percent-encoded UTF-8 form of a text. -/
def encodeText (keeps : UInt8 → Bool) (s : String) : String :=
  String.ofList (encode keeps (Bytes.ofText s))

/-- Whether a byte string goes on with two hexadecimal digits. -/
def startsWithHexPair : Bytes → Bool
  | hi :: lo :: _ => Ascii.isHexDigit hi && Ascii.isHexDigit lo
  | _ => false

/-- The bytes that an encoded byte string stands for. -/
def decode : Bytes → Bytes
  | b :: hi :: lo :: rest =>
    if b == 0x25 then
      match Ascii.hexValue? hi, Ascii.hexValue? lo with
      | some h, some l => (16 * h + l).toUInt8 :: decode rest
      | _, _ => b :: decode (hi :: lo :: rest)
    else b :: decode (hi :: lo :: rest)
  | bytes => bytes

@[simp] theorem encode_nil (keeps : UInt8 → Bool) : encode keeps [] = [] := rfl

@[simp] theorem encode_cons (keeps : UInt8 → Bool) (b : UInt8) (bytes : Bytes) :
    encode keeps (b :: bytes) = encodeByte keeps b ++ encode keeps bytes := rfl

@[simp] theorem encode_append (keeps : UInt8 → Bool) (a b : Bytes) :
    encode keeps (a ++ b) = encode keeps a ++ encode keeps b := by
  simp [encode]

/-- A byte other than `%` stands for itself. -/
theorem decode_cons_of_ne {b : UInt8} (h : b ≠ 0x25) (rest : Bytes) :
    decode (b :: rest) = b :: decode rest := by
  match rest with
  | [] => rfl
  | [_] => rfl
  | _ :: _ :: _ => simp [decode, h]

theorem toNat_asciiChar {b : UInt8} (h : b < 0x80) : (asciiChar b).toNat = b.toNat := by
  have hb : b.toNat < 128 := h
  rw [asciiChar, Char.ofNat, dif_pos (show b.toNat.isValidChar from Or.inl (by omega))]
  rfl

theorem byte_asciiChar {b : UInt8} (h : b < 0x80) : Ascii.byte (asciiChar b) = b := by
  rw [Ascii.byte, toNat_asciiChar h]
  exact UInt8.ofNat_toNat

theorem asciiChar_byte {c : Char} (h : c.toNat < 0x80) : asciiChar (Ascii.byte c) = c := by
  rw [asciiChar, Ascii.toNat_byte h, Char.ofNat_toNat]

/-- ASCII characters are spelled by their bytes. -/
theorem map_asciiChar_byte {chars : List Char} (h : ∀ c ∈ chars, c.toNat < 0x80) :
    (chars.map Ascii.byte).map asciiChar = chars := by
  rw [List.map_map]
  refine (List.map_congr_left fun c hmem => ?_).trans (List.map_id _)
  exact asciiChar_byte (h c hmem)

theorem decode_triplet (b : UInt8) (rest : Bytes) :
    decode ((triplet b).map Ascii.byte ++ rest) = b :: decode rest := by
  have hb : b.toNat < 256 := b.toNat_lt
  have digit : ∀ n < 16, Ascii.hexDigit n < 0x80 := by decide
  simp only [triplet, List.map_cons, List.map_nil, List.cons_append, List.nil_append,
    byte_asciiChar (digit (b.toNat / 16) (by omega)),
    byte_asciiChar (digit (b.toNat % 16) (by omega))]
  rw [decode, if_pos (by decide), Ascii.hexValue?_hexDigit (show b.toNat / 16 < 16 by omega),
    Ascii.hexValue?_hexDigit (show b.toNat % 16 < 16 by omega)]
  simp only [Ascii.ofNat_nibbles]

/-- A property of the characters that `encode` writes holds of all that is written: of the bytes
that stand for themselves, of `%`, and of hexadecimal digits. -/
theorem forall_mem_encode {p : Char → Prop} {keeps : UInt8 → Bool}
    (hkeeps : ∀ b, keeps b = true → p (asciiChar b)) (hpercent : p '%')
    (hdigit : ∀ n < 16, p (asciiChar (Ascii.hexDigit n))) (bytes : Bytes) :
    ∀ c ∈ encode keeps bytes, p c := by
  intro c hmem
  obtain ⟨b, -, hmem⟩ := List.mem_flatMap.1 hmem
  have hb : b.toNat < 256 := b.toNat_lt
  rw [encodeByte] at hmem
  split at hmem
  · next hb =>
    obtain rfl := List.mem_singleton.1 hmem
    exact hkeeps b hb
  · rcases List.mem_cons.1 hmem with rfl | hmem
    · exact hpercent
    · rcases List.mem_cons.1 hmem with rfl | hmem
      · exact hdigit _ (by omega)
      · obtain rfl := List.mem_singleton.1 hmem
        exact hdigit _ (by omega)

/-- Reading undoes writing in front of anything, if every byte that stands for itself is ASCII and
not `%`. -/
theorem decode_encode_append {keeps : UInt8 → Bool} {bytes : Bytes}
    (h : ∀ b ∈ bytes, keeps b = true → b < 0x80 ∧ b ≠ 0x25) (rest : Bytes) :
    decode ((encode keeps bytes).map Ascii.byte ++ rest) = bytes ++ decode rest := by
  induction bytes with
  | nil => rfl
  | cons b bytes ih =>
    obtain ⟨hb, hbytes⟩ := List.forall_mem_cons.1 h
    rw [encode_cons, List.map_append, List.append_assoc, encodeByte]
    split
    · next hk =>
      obtain ⟨hascii, hne⟩ := hb hk
      simp [byte_asciiChar hascii, decode_cons_of_ne hne, ih hbytes]
    · rw [decode_triplet, ih hbytes, List.cons_append]

/-- Reading undoes writing for every class of ASCII bytes without `%`. -/
theorem decode_encode {keeps : UInt8 → Bool} (ascii : ∀ b, keeps b → b < 0x80)
    (h : keeps 0x25 = false) (bytes : Bytes) :
    decode ((encode keeps bytes).map Ascii.byte) = bytes := by
  have hkept : ∀ b ∈ bytes, keeps b = true → b < 0x80 ∧ b ≠ 0x25 := by
    intro b _ hk
    refine ⟨ascii b hk, ?_⟩
    rintro rfl
    simp [h] at hk
  have hread := decode_encode_append hkept []
  simpa [decode] using hread

end ApiClient.Percent
