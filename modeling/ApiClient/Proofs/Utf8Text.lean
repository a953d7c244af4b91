import ApiClient.Proofs.AsciiText

/-!
# ApiClient.Proofs.Utf8Text

The UTF-8 form of any text is read back as the text, and no other byte string is read as a text.

The machine reads a character byte by byte. The first byte of a character says how many follow and
what the second one may be, so there is one run of the machine for each length (`piecesFrom_char`).
The bounds on the second byte exclude no character: below them a character would be shorter, and
between them it would be a surrogate, or beyond the last character. They also leave room for no
second form: followed backwards, a run without a fault gives the bytes of its characters
(`cases_of_piecesFrom`).
-/

namespace ApiClient.Utf8

/-! ### One byte -/

/-- What a byte that opens a longer character means, by its number. -/
theorem lead_of_ge {n : Nat} (hlow : 0xc2 ≤ n) (hhigh : n ≤ 0xf4) : lead (UInt8.ofNat n) =
    .opens (if n < 0xe0 then ⟨1, 0x80, 0xbf, n - 0xc0, 1⟩
      else if n < 0xf0 then
        ⟨2, if n = 0xe0 then 0xa0 else 0x80, if n = 0xed then 0x9f else 0xbf, n - 0xe0, 1⟩
      else ⟨3, if n = 0xf0 then 0x90 else 0x80, if n = 0xf4 then 0x8f else 0xbf, n - 0xf0, 1⟩) := by
  have hall : ∀ k : Fin 0x33, lead (UInt8.ofNat (k.val + 0xc2)) =
      .opens (if k.val + 0xc2 < 0xe0 then ⟨1, 0x80, 0xbf, k.val + 0xc2 - 0xc0, 1⟩
        else if k.val + 0xc2 < 0xf0 then
          ⟨2, if k.val + 0xc2 = 0xe0 then 0xa0 else 0x80,
            if k.val + 0xc2 = 0xed then 0x9f else 0xbf, k.val + 0xc2 - 0xe0, 1⟩
        else ⟨3, if k.val + 0xc2 = 0xf0 then 0x90 else 0x80,
          if k.val + 0xc2 = 0xf4 then 0x8f else 0xbf, k.val + 0xc2 - 0xf0, 1⟩) := by decide +kernel
  have h := hall ⟨n - 0xc2, by omega⟩
  rwa [show n - 0xc2 + 0xc2 = n by omega] at h

/-- A byte within the bounds goes on with the character, and the last one ends it. -/
theorem piecesFrom_tail {p : Pending} {n : Nat} (hlow : p.low.toNat ≤ n) (hhigh : n ≤ p.high.toNat)
    (rest : Bytes) : piecesFrom (some p) (UInt8.ofNat n :: rest) =
      if p.missing ≤ 1 then .char (Char.ofNat (p.bits * 64 + (n - 0x80))) :: piecesFrom none rest
      else piecesFrom (some ⟨p.missing - 1, 0x80, 0xbf, p.bits * 64 + (n - 0x80), p.width + 1⟩)
        rest := by
  have hbyte : (UInt8.ofNat n).toNat = n :=
    UInt8.toNat_ofNat_of_lt' (Nat.lt_of_le_of_lt hhigh p.high.toNat_lt)
  have hbounds : (p.low ≤ UInt8.ofNat n && UInt8.ofNat n ≤ p.high) = true := by
    simp [UInt8.le_iff_toNat_le, hbyte, hlow, hhigh]
  rw [piecesFrom, advance, if_pos hbounds, hbyte]
  by_cases hlast : p.missing ≤ 1
  · simp [hlast]
  · simp [hlast]

theorem piecesFrom_lead {n : Nat} {p : Pending} (h : lead (UInt8.ofNat n) = .opens p)
    (rest : Bytes) :
    piecesFrom none (UInt8.ofNat n :: rest) = piecesFrom (some p) rest := by
  simp [piecesFrom, advance, begin, h]

/-! ### One character -/

/-- In front of anything the bytes of a character are that character. -/
theorem piecesFrom_char (c : Char) (rest : Bytes) :
    piecesFrom none (String.utf8EncodeChar c ++ rest) = .char c :: piecesFrom none rest := by
  have hvalid : c.toNat < 0xd800 ∨ 0xdfff < c.toNat ∧ c.toNat < 0x110000 := c.valid
  have hself {v : Nat} (h : v = c.toNat) : Char.ofNat v = c := h ▸ Char.ofNat_toNat c
  -- One case for each number of bytes. The bounds of a second byte depend on the first only if
  -- there are more.
  by_cases hone : c.toNat < 0x80
  · rw [utf8EncodeChar_of_ascii hone, List.singleton_append, piecesFrom]
    have hbyte : Ascii.byte c < 0x80 := by
      rw [UInt8.lt_iff_toNat_lt, Ascii.toNat_byte hone]
      exact hone
    simp only [advance, begin, lead, if_pos hbyte, Ascii.toNat_byte hone, Char.ofNat_toNat,
      List.cons_append, List.nil_append]
  · rw [String.utf8EncodeChar]
    simp only [show c.val.toNat = c.toNat from rfl]
    rw [if_neg (show ¬ c.toNat ≤ 127 by omega)]
    by_cases htwo : c.toNat ≤ 0x7ff
    · rw [if_pos htwo]
      simp only [List.cons_append, List.nil_append]
      rw [piecesFrom_lead (lead_of_ge (by omega) (by omega)), if_pos (by omega),
        piecesFrom_tail (by simp) (by simp; omega), if_pos (Nat.le_refl 1),
          hself (by simp only; omega)]
    · rw [if_neg htwo]
      by_cases hthree : c.toNat ≤ 0xffff
      · rw [if_pos hthree]
        simp only [List.cons_append, List.nil_append]
        rw [piecesFrom_lead (lead_of_ge (by omega) (by omega)), if_neg (by omega),
          if_pos (by omega),
          piecesFrom_tail ?_ ?_, if_neg (by simp), piecesFrom_tail (by simp) (by simp; omega),
          if_pos (by simp), hself (by simp only; omega)]
        · simp only
          split
          · simp
            omega
          · simp
        · simp only
          split <;> simp <;> omega
      · rw [if_neg hthree]
        simp only [List.cons_append, List.nil_append]
        rw [piecesFrom_lead (lead_of_ge (by omega) (by omega)), if_neg (by omega),
          if_neg (by omega),
          piecesFrom_tail ?_ ?_, if_neg (by simp), piecesFrom_tail (by simp) (by simp; omega),
          if_neg (by simp), piecesFrom_tail (by simp) (by simp; omega), if_pos (by simp),
          hself (by simp only; omega)]
        · simp only
          split
          · simp
            omega
          · simp
        · simp only
          split <;> simp <;> omega

/-- Behind the first byte of a character there are bytes between 128 and 191, and the first byte is
none. -/
theorem exists_utf8EncodeChar_eq_cons (c : Char) : ∃ b tail, String.utf8EncodeChar c = b :: tail
    ∧ ¬ (0x80 ≤ b.toNat ∧ b.toNat < 0xc0) ∧ ∀ t ∈ tail, 0x80 ≤ t.toNat ∧ t.toNat < 0xc0 := by
  have hbyte {n : Nat} (h : n < 0x100) : (UInt8.ofNat n).toNat = n := UInt8.toNat_ofNat_of_lt' h
  have hrest (n : Nat) : 0x80 ≤ (UInt8.ofNat (n % 64 + 128)).toNat
      ∧ (UInt8.ofNat (n % 64 + 128)).toNat < 0xc0 := by
    rw [hbyte (by omega)]
    omega
  have hvalid : c.toNat < 0xd800 ∨ 0xdfff < c.toNat ∧ c.toNat < 0x110000 := c.valid
  by_cases hone : c.toNat < 0x80
  · rw [utf8EncodeChar_of_ascii hone]
    refine ⟨_, [], rfl, ?_, nofun⟩
    rw [Ascii.toNat_byte hone]
    omega
  · rw [String.utf8EncodeChar]
    simp only [show c.val.toNat = c.toNat from rfl]
    rw [if_neg (show ¬ c.toNat ≤ 127 by omega)]
    split
    · refine ⟨_, _, rfl, ?_, List.forall_mem_singleton.2 (hrest _)⟩
      rw [hbyte (by omega)]
      omega
    · split
      · refine ⟨_, _, rfl, ?_,
          List.forall_mem_cons.2 ⟨hrest _, List.forall_mem_singleton.2 (hrest _)⟩⟩
        rw [hbyte (by omega)]
        omega
      · refine ⟨_, _, rfl, ?_, List.forall_mem_cons.2 ⟨hrest _,
          List.forall_mem_cons.2 ⟨hrest _, List.forall_mem_singleton.2 (hrest _)⟩⟩⟩
        rw [hbyte (by omega)]
        omega

/-! ### Texts -/

theorem pieces_ofText (s : String) : pieces (Bytes.ofText s) = s.toList.map .char := by
  rw [pieces, Bytes.ofText]
  induction s.toList with
  | nil => rfl
  | cons c rest ih => rw [List.flatMap_cons, piecesFrom_char, ih, List.map_cons]

theorem strict_char (index : Nat) (chars : List Char) :
    strict index (chars.map .char) = .ok chars := by
  induction chars generalizing index with
  | nil => rfl
  | cons c rest ih => rw [List.map_cons, strict, ih]; rfl

/-- Reading the UTF-8 form of a text gives the text. -/
theorem decode_ofText (s : String) : decode (Bytes.ofText s) = .ok s := by
  rw [decode, pieces_ofText, strict_char]
  exact congrArg Except.ok String.ofList_toList

/-- Nothing of it is replaced. -/
theorem decodeLossy_ofText (s : String) : decodeLossy (Bytes.ofText s) = s := by
  rw [decodeLossy, pieces_ofText, List.map_map]
  exact (congrArg String.ofList (List.map_id _)).trans String.ofList_toList

/-! ### Byte strings that are texts -/

theorem toNat_ofNat_of_valid {n : Nat} (h : n < 0xd800 ∨ 0xdfff < n ∧ n < 0x110000) :
    (Char.ofNat n).toNat = n := by
  rw [Char.ofNat, dif_pos h]
  rfl

theorem encode_two {n n₁ : Nat} (hn : 0xc2 ≤ n) (hn' : n < 0xe0) (h₁ : 0x80 ≤ n₁)
    (h₁' : n₁ ≤ 0xbf) :
    String.utf8EncodeChar (Char.ofNat ((n - 0xc0) * 64 + (n₁ - 0x80))) =
      [UInt8.ofNat n, UInt8.ofNat n₁] := by
  have hvalue := toNat_ofNat_of_valid (.inl (show (n - 0xc0) * 64 + (n₁ - 0x80) < 0xd800 by omega))
  generalize hv : (n - 0xc0) * 64 + (n₁ - 0x80) = v at *
  rw [String.utf8EncodeChar]
  simp only [show ∀ c : Char, c.val.toNat = c.toNat from fun _ => rfl, hvalue]
  rw [if_neg (by omega), if_pos (by omega), show v / 64 % 32 + 192 = n by omega,
    show v % 64 + 128 = n₁ by omega]

theorem encode_three {n n₁ n₂ : Nat} (hn : 0xe0 ≤ n) (hn' : n < 0xf0)
    (h₁ : (if n = 0xe0 then 0xa0 else 0x80) ≤ n₁) (h₁' : n₁ ≤ if n = 0xed then 0x9f else 0xbf)
    (h₂ : 0x80 ≤ n₂) (h₂' : n₂ ≤ 0xbf) :
    String.utf8EncodeChar (Char.ofNat (((n - 0xe0) * 64 + (n₁ - 0x80)) * 64 + (n₂ - 0x80))) =
      [UInt8.ofNat n, UInt8.ofNat n₁, UInt8.ofNat n₂] := by
  have hlow : 0x80 ≤ n₁ := by split at h₁ <;> omega
  have hhigh : n₁ ≤ 0xbf := by split at h₁' <;> omega
  have hlarge : 0x7ff < ((n - 0xe0) * 64 + (n₁ - 0x80)) * 64 + (n₂ - 0x80) := by
    split at h₁ <;> omega
  have hvalid : ((n - 0xe0) * 64 + (n₁ - 0x80)) * 64 + (n₂ - 0x80) < 0xd800
      ∨ 0xdfff < ((n - 0xe0) * 64 + (n₁ - 0x80)) * 64 + (n₂ - 0x80) := by split at h₁' <;> omega
  have hvalue := toNat_ofNat_of_valid (hvalid.imp_right fun h => ⟨h, by omega⟩)
  generalize hv : ((n - 0xe0) * 64 + (n₁ - 0x80)) * 64 + (n₂ - 0x80) = v at *
  rw [String.utf8EncodeChar]
  simp only [show ∀ c : Char, c.val.toNat = c.toNat from fun _ => rfl, hvalue]
  rw [if_neg (by omega), if_neg (by omega), if_pos (by omega),
    show v / 4096 % 16 + 224 = n by omega,
    show v / 64 % 64 + 128 = n₁ by omega, show v % 64 + 128 = n₂ by omega]

theorem encode_four {n n₁ n₂ n₃ : Nat} (hn : 0xf0 ≤ n) (hn' : n ≤ 0xf4)
    (h₁ : (if n = 0xf0 then 0x90 else 0x80) ≤ n₁) (h₁' : n₁ ≤ if n = 0xf4 then 0x8f else 0xbf)
    (h₂ : 0x80 ≤ n₂) (h₂' : n₂ ≤ 0xbf) (h₃ : 0x80 ≤ n₃) (h₃' : n₃ ≤ 0xbf) :
    String.utf8EncodeChar
        (Char.ofNat ((((n - 0xf0) * 64 + (n₁ - 0x80)) * 64 + (n₂ - 0x80)) * 64 + (n₃ - 0x80))) =
      [UInt8.ofNat n, UInt8.ofNat n₁, UInt8.ofNat n₂, UInt8.ofNat n₃] := by
  have hlow : 0x80 ≤ n₁ := by split at h₁ <;> omega
  have hhigh : n₁ ≤ 0xbf := by split at h₁' <;> omega
  have hlarge :
      0xffff < (((n - 0xf0) * 64 + (n₁ - 0x80)) * 64 + (n₂ - 0x80)) * 64 + (n₃ - 0x80) := by
    split at h₁ <;> omega
  have hvalid :
      (((n - 0xf0) * 64 + (n₁ - 0x80)) * 64 + (n₂ - 0x80)) * 64 + (n₃ - 0x80) < 0x110000 := by
    split at h₁' <;> omega
  have hvalue := toNat_ofNat_of_valid (.inr ⟨by omega, hvalid⟩)
  generalize hv : (((n - 0xf0) * 64 + (n₁ - 0x80)) * 64 + (n₂ - 0x80)) * 64 + (n₃ - 0x80) = v at *
  rw [String.utf8EncodeChar]
  simp only [show ∀ c : Char, c.val.toNat = c.toNat from fun _ => rfl, hvalue]
  rw [if_neg (by omega), if_neg (by omega), if_neg (by omega),
    show v / 262144 % 8 + 240 = n by omega,
    show v / 4096 % 64 + 128 = n₁ by omega, show v / 64 % 64 + 128 = n₂ by omega,
    show v % 64 + 128 = n₃ by omega]

/-- What a byte that opens no longer character means, by its number. -/
theorem lead_of_short {n : Nat} (hn : n < 0x100) (h : n < 0xc2 ∨ 0xf4 < n) :
    lead (UInt8.ofNat n) = if n < 0x80 then .single (Char.ofNat n) else .never := by
  have hall : ∀ k : Fin 0x100, k.val < 0xc2 ∨ 0xf4 < k.val →
      lead (UInt8.ofNat k.val) = if k.val < 0x80 then .single (Char.ofNat k.val) else .never := by
    decide +kernel
  exact hall ⟨n, hn⟩ h

/-- A begun character goes on with a byte within its bounds, unless something is ill-formed. -/
theorem exists_of_piecesFrom_some {p : Pending} {bytes : Bytes} {chars : List Char}
    (h : piecesFrom (some p) bytes = chars.map .char) : ∃ n rest, bytes = UInt8.ofNat n :: rest
      ∧ p.low.toNat ≤ n ∧ n ≤ p.high.toNat
      ∧ (if p.missing ≤ 1 then .char (Char.ofNat (p.bits * 64 + (n - 0x80))) :: piecesFrom none rest
        else piecesFrom
          (some ⟨p.missing - 1, 0x80, 0xbf, p.bits * 64 + (n - 0x80), p.width + 1⟩) rest) =
        chars.map .char := by
  cases bytes with
  | nil => cases chars <;> cases h
  | cons b rest =>
      by_cases hbounds : p.low ≤ b ∧ b ≤ p.high
      · have hlow := UInt8.le_iff_toNat_le.1 hbounds.1
        have hhigh := UInt8.le_iff_toNat_le.1 hbounds.2
        rw [← UInt8.ofNat_toNat (x := b), piecesFrom_tail hlow hhigh] at h
        exact ⟨b.toNat, rest, by rw [UInt8.ofNat_toNat], hlow, hhigh, h⟩
      · rw [piecesFrom, advance, if_neg (by simpa using hbounds)] at h
        cases chars <;> cases h

/-- The last byte of a character ends it. -/
theorem exists_of_piecesFrom_last {low high : UInt8} {bits width : Nat} {bytes : Bytes}
    {chars : List Char}
    (h : piecesFrom (some ⟨1, low, high, bits, width⟩) bytes = chars.map .char) : ∃ n rest others,
      bytes = UInt8.ofNat n :: rest ∧ low.toNat ≤ n ∧ n ≤ high.toNat
        ∧ chars = Char.ofNat (bits * 64 + (n - 0x80)) :: others
        ∧ piecesFrom none rest = others.map .char := by
  obtain ⟨n, rest, rfl, hlow, hhigh, h⟩ := exists_of_piecesFrom_some h
  rw [if_pos (Nat.le_refl 1)] at h
  cases chars with
  | nil => cases h
  | cons c others =>
      obtain ⟨hchar, hrest⟩ := List.cons.inj h
      exact ⟨n, rest, others, rfl, hlow, hhigh, by rw [← Piece.char.inj hchar], hrest⟩

/-- Where nothing is ill-formed, there is nothing, or a character and what is behind it. -/
theorem cases_of_piecesFrom {bytes : Bytes} {chars : List Char}
    (h : piecesFrom none bytes = chars.map .char) : (bytes = [] ∧ chars = [])
      ∨ ∃ c others rest, chars = c :: others ∧ bytes = String.utf8EncodeChar c ++ rest
        ∧ piecesFrom none rest = others.map .char := by
  cases bytes with
  | nil =>
      cases chars with
      | nil => exact .inl ⟨rfl, rfl⟩
      | cons c chars => cases h
  | cons b rest =>
      have hn : b.toNat < 0x100 := b.toNat_lt
      rw [← UInt8.ofNat_toNat (x := b)] at h ⊢
      generalize b.toNat = n at *
      refine .inr ?_
      by_cases hshort : n < 0xc2 ∨ 0xf4 < n
      · have hlead := lead_of_short hn hshort
        by_cases hascii : n < 0x80
        · rw [if_pos hascii] at hlead
          simp only [piecesFrom, advance, begin, hlead] at h
          cases chars with
          | nil => cases h
          | cons c chars =>
              obtain ⟨hc, hrest⟩ := List.cons.inj h
              obtain rfl := Piece.char.inj hc
              have hvalue := toNat_ofNat_of_valid (.inl (show n < 0xd800 by omega))
              refine ⟨_, chars, rest, rfl, ?_, hrest⟩
              rw [utf8EncodeChar_of_ascii (by omega), Ascii.byte, hvalue]
              rfl
        · rw [if_neg hascii] at hlead
          simp only [piecesFrom, advance, begin, hlead] at h
          cases chars <;> cases h
      · -- As in the other direction, there is one case for each number of bytes.
        rw [piecesFrom_lead (lead_of_ge (by omega) (by omega))] at h
        by_cases htwo : n < 0xe0
        · rw [if_pos htwo] at h
          obtain ⟨n₁, rest, others, rfl, h₁, h₁', rfl, hrest⟩ := exists_of_piecesFrom_last h
          refine ⟨_, others, rest, rfl, ?_, hrest⟩
          rw [encode_two (by omega) htwo h₁ h₁']
          rfl
        · rw [if_neg htwo] at h
          by_cases hthree : n < 0xf0
          · rw [if_pos hthree] at h
            obtain ⟨n₁, rest, rfl, h₁, h₁', h⟩ := exists_of_piecesFrom_some h
            rw [if_neg (by simp)] at h
            obtain ⟨n₂, rest, others, rfl, h₂, h₂', rfl, hrest⟩ := exists_of_piecesFrom_last h
            refine ⟨_, others, rest, rfl, ?_, hrest⟩
            rw [encode_three (by omega) hthree (by simpa [apply_ite UInt8.toNat] using h₁)
              (by simpa [apply_ite UInt8.toNat] using h₁') h₂ h₂']
            rfl
          · rw [if_neg hthree] at h
            obtain ⟨n₁, rest, rfl, h₁, h₁', h⟩ := exists_of_piecesFrom_some h
            rw [if_neg (by simp)] at h
            obtain ⟨n₂, rest, rfl, h₂, h₂', h⟩ := exists_of_piecesFrom_some h
            rw [if_neg (by simp)] at h
            obtain ⟨n₃, rest, others, rfl, h₃, h₃', rfl, hrest⟩ := exists_of_piecesFrom_last h
            refine ⟨_, others, rest, rfl, ?_, hrest⟩
            rw [encode_four (by omega) (by omega) (by simpa [apply_ite UInt8.toNat] using h₁)
              (by simpa [apply_ite UInt8.toNat] using h₁') h₂ h₂' h₃ h₃']
            rfl

theorem eq_of_piecesFrom {bytes : Bytes} {chars : List Char}
    (h : piecesFrom none bytes = chars.map .char) :
    bytes = chars.flatMap String.utf8EncodeChar := by
  induction chars generalizing bytes with
  | nil =>
      rcases cases_of_piecesFrom h with ⟨rfl, -⟩ | ⟨_, _, _, hchars, -⟩
      · rfl
      · cases hchars
  | cons c chars ih =>
      rcases cases_of_piecesFrom h with ⟨-, hchars⟩ | ⟨_, _, rest, hchars, rfl, hrest⟩
      · cases hchars
      · obtain ⟨rfl, rfl⟩ := List.cons.inj hchars
        rw [List.flatMap_cons, ih hrest]

theorem eq_of_strict {index : Nat} {stretches : List Piece} {chars : List Char}
    (h : strict index stretches = .ok chars) : stretches = chars.map .char := by
  induction stretches generalizing index chars with
  | nil =>
      cases h
      rfl
  | cons piece rest ih =>
      cases piece with
      | char c =>
          rw [strict] at h
          cases hrest : strict (index + (String.utf8EncodeChar c).length) rest with
          | error fault =>
              rw [hrest] at h
              cases h
          | ok others =>
              rw [hrest] at h
              cases h
              rw [ih hrest, List.map_cons]
      | illFormed width => cases h
      | cutOff width => cases h

/-- **A byte string is read as a text if it is the UTF-8 form of the text.** -/
theorem decode_eq_ok_iff {bytes : Bytes} {s : String} :
    decode bytes = .ok s ↔ bytes = Bytes.ofText s := by
  constructor
  · intro h
    rw [decode] at h
    cases hstrict : strict 0 (pieces bytes) with
    | error fault =>
        rw [hstrict] at h
        cases h
    | ok chars =>
        rw [hstrict] at h
        cases h
        rw [eq_of_piecesFrom (eq_of_strict hstrict), Bytes.ofText, String.toList_ofList]
  · rintro rfl
    exact decode_ofText s

/-- Bytes are read as the text whose UTF-8 form they are, or there is no such text and they are
faulty. -/
theorem decode_cases (bytes : Bytes) : (∃ s, bytes = Bytes.ofText s ∧ decode bytes = .ok s)
    ∨ (∀ s, bytes ≠ Bytes.ofText s) ∧ ∃ fault, decode bytes = .error fault := by
  cases hdecode : decode bytes with
  | ok s => exact .inl ⟨s, decode_eq_ok_iff.1 hdecode, rfl⟩
  | error fault =>
      refine .inr ⟨fun s hs => ?_, fault, rfl⟩
      cases hdecode.symm.trans (decode_eq_ok_iff.2 hs)

/-- A character is told by the bytes in front of anything. -/
theorem utf8EncodeChar_append_inj {c d : Char} {rest rest' : Bytes}
    (h : String.utf8EncodeChar c ++ rest = String.utf8EncodeChar d ++ rest') :
    c = d ∧ rest = rest' := by
  have hpieces := congrArg (piecesFrom none) h
  rw [piecesFrom_char, piecesFrom_char] at hpieces
  obtain rfl := Piece.char.inj (List.cons.inj hpieces).1
  exact ⟨rfl, List.append_cancel_left h⟩

end ApiClient.Utf8

namespace ApiClient

/-! ### Characters as bytes -/

/-- The UTF-8 form of characters. -/
def Bytes.ofChars (chars : List Char) : Bytes := chars.flatMap String.utf8EncodeChar

namespace Bytes

theorem ofText_ofList (chars : List Char) : ofText (String.ofList chars) = ofChars chars := by
  rw [ofText, String.toList_ofList, ofChars]

theorem ofText_eq_ofChars (s : String) : ofText s = ofChars s.toList := rfl

@[simp] theorem ofChars_nil : ofChars [] = [] := rfl

@[simp] theorem ofChars_append (a b : List Char) : ofChars (a ++ b) = ofChars a ++ ofChars b :=
  List.flatMap_append

theorem ofChars_cons (c : Char) (chars : List Char) :
    ofChars (c :: chars) = String.utf8EncodeChar c ++ ofChars chars := List.flatMap_cons

theorem ofChars_cons_of_ascii {c : Char} (h : c.toNat < 0x80) (chars : List Char) :
    ofChars (c :: chars) = Ascii.byte c :: ofChars chars := by
  rw [ofChars_cons, utf8EncodeChar_of_ascii h, List.singleton_append]

theorem ofChars_of_ascii {chars : List Char} (h : ∀ c ∈ chars, c.toNat < 0x80) :
    ofChars chars = chars.map Ascii.byte := by
  rw [← ofText_ofList, ofText_ofList_of_ascii h]

end Bytes

end ApiClient
