import ApiClient.Json.Printer
import ApiClient.Proofs.QuotedReading

/-!
# ApiClient.Proofs.QuotedText

Texts in JSON quotes are read back.

A character is written as itself, or as a backslash with a code behind it, and either spells the
character (`escape_cases`). So what is written of a text spells the text, by induction over its
characters, and reading it back is what the reader does with any quoted text of the grammar.
-/

namespace ApiClient.Json

open Bytes

/-! ### Escapes -/

/-- The characters that have an escape of one letter, with the letter. -/
def shortEscapes : List (Char × Char) :=
  [('\x22', '\x22'), ('\x5c', '\x5c'), ('\x08', 'b'), ('\x0c', 'f'), ('\n', 'n'), ('\r', 'r'),
    ('\t', 't')]

theorem escape_of_mem_shortEscapes {c letter : Char} (h : (c, letter) ∈ shortEscapes) :
    escape c = ['\x5c', letter] ∧ Grammar.Escape (ofChars [letter]) c := by
  have hcode {b : UInt8} (hletter : ofChars [letter] = [b]) (hmem : (b, c) ∈ Grammar.letters) :
      Grammar.Escape (ofChars [letter]) c := hletter ▸ .letter hmem
  simp only [shortEscapes, List.mem_cons, Prod.mk.injEq, List.not_mem_nil, or_false] at h
  rcases h
    with ⟨rfl, rfl⟩ | ⟨rfl, rfl⟩ | ⟨rfl, rfl⟩ | ⟨rfl, rfl⟩ | ⟨rfl, rfl⟩ | ⟨rfl, rfl⟩
      | ⟨rfl, rfl⟩ <;>
    exact ⟨rfl, hcode rfl (by decide)⟩

/-- The four digits of a control character are its code unit. -/
theorem escape_of_lt {c : Char} (h : c.toNat < 0x20) :
    Grammar.Escape
      [0x75, 0x30, 0x30, Ascii.hexDigitLower (c.toNat / 16),
        Ascii.hexDigitLower (c.toNat % 16)] c := by
  have hunit := Grammar.CodeUnit.mk (show Ascii.hexValue? 0x30 = some 0 from rfl)
    (show Ascii.hexValue? 0x30 = some 0 from rfl)
    (Ascii.hexValue?_hexDigitLower (show c.toNat / 16 < 16 by omega))
    (Ascii.hexValue?_hexDigitLower (show c.toNat % 16 < 16 by omega))
  rw [show ((0 * 16 + 0) * 16 + c.toNat / 16) * 16 + c.toNat % 16 = c.toNat by omega] at hunit
  have hescape := Grammar.Escape.unit hunit (.inl (by omega))
  rwa [Char.ofNat_toNat] at hescape

theorem hexDigitLower_char {n : Nat} (h : n < 16) :
    (Char.ofNat (Ascii.hexDigitLower n).toNat).toNat < 0x80
      ∧ Ascii.byte (Char.ofNat (Ascii.hexDigitLower n).toNat) = Ascii.hexDigitLower n :=
  (by decide : ∀ n : Fin 16, (Char.ofNat (Ascii.hexDigitLower n.val).toNat).toNat < 0x80
    ∧ Ascii.byte (Char.ofNat (Ascii.hexDigitLower n.val).toNat) = Ascii.hexDigitLower n.val) ⟨n, h⟩

/-- A character is written as itself, or as an escape of the character. -/
theorem escape_cases (c : Char) :
    (escape c = [c] ∧ c ≠ '\x22' ∧ c ≠ '\x5c' ∧ 0x20 ≤ c.toNat)
      ∨ ∃ code, escape c = '\x5c' :: code ∧ Grammar.Escape (ofChars code) c := by
  by_cases hshort : ∃ letter, (c, letter) ∈ shortEscapes
  · obtain ⟨letter, hmem⟩ := hshort
    exact .inr ⟨[letter], escape_of_mem_shortEscapes hmem⟩
  · have hne (other letter : Char) (hmem : (other, letter) ∈ shortEscapes) :
        ¬ (c == other) = true :=
      fun heq => hshort ⟨letter, eq_of_beq heq ▸ hmem⟩
    have hquote : ¬ (c == '\x22') = true := hne _ '\x22' (by decide)
    have hslash : ¬ (c == '\x5c') = true := hne _ '\x5c' (by decide)
    rw [escape, if_neg hquote, if_neg hslash, if_neg (hne _ 'b' (by decide)),
      if_neg (hne _ 'f' (by decide)), if_neg (hne _ 'n' (by decide)),
        if_neg (hne _ 'r' (by decide)),
      if_neg (hne _ 't' (by decide))]
    by_cases hcontrol : c.toNat < 0x20
    · rw [if_pos hcontrol]
      obtain ⟨hasciiHigh, hhigh⟩ := hexDigitLower_char (n := c.toNat / 16) (by omega)
      obtain ⟨hasciiLow, hlow⟩ := hexDigitLower_char (n := c.toNat % 16) (by omega)
      refine .inr ⟨_, rfl, ?_⟩
      rw [ofChars_cons_of_ascii (by decide), ofChars_cons_of_ascii (by decide),
        ofChars_cons_of_ascii (by decide), ofChars_cons_of_ascii hasciiHigh, hhigh,
        ofChars_cons_of_ascii hasciiLow, hlow]
      exact escape_of_lt hcontrol
    · rw [if_neg hcontrol]
      exact .inl ⟨rfl, by simpa using hquote, by simpa using hslash, by omega⟩

/-! ### Texts -/

/-- What is written of characters spells them. -/
theorem spells_escape (chars : List Char) :
    Grammar.Spells (ofChars (chars.flatMap escape)) chars := by
  induction chars with
  | nil => exact .nil
  | cons c chars ih =>
      rw [List.flatMap_cons, ofChars_append]
      rcases escape_cases c with ⟨hescape, hquote, hslash, hcontrol⟩ | ⟨code, hescape, hcode⟩
      · rw [hescape, ofChars_cons, ofChars_nil, List.append_nil]
        exact .plain hquote hslash hcontrol ih
      · rw [hescape, ofChars_cons_of_ascii (by decide)]
        exact .escape hcode ih

theorem quoted_ofChars_printText (s : String) : Grammar.Quoted (ofChars (printText s)) s := by
  rw [printText, ofChars_append, ofChars_cons_of_ascii (by decide),
    ofChars_cons_of_ascii (by decide), ofChars_nil]
  exact .mk (spells_escape s.toList)

/-- A text in quotes is read back, whatever stands behind it. -/
theorem Reader.quoted_printText (s : String) (rest : Bytes) :
    ∃ unread, ofChars (printText s) ++ rest = 0x22 :: unread ∧ quoted unread = .ok (s, rest) := by
  obtain ⟨tail, htext, hread⟩ := quoted_of_quoted (quoted_ofChars_printText s)
  exact ⟨tail ++ rest, by rw [htext, List.cons_append], hread rest⟩

end ApiClient.Json
