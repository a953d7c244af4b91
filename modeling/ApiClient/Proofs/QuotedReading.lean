import ApiClient.Proofs.JsonGrammar
import ApiClient.Proofs.Results
import ApiClient.Proofs.Utf8Text

/-!
# ApiClient.Proofs.QuotedReading

The reader of quoted texts accepts the quoted texts of the grammar.

The reader resolves escapes and collects bytes, and only the whole of them is read as UTF-8. So a
run is followed twice: up to the closing quote it resolves escapes (`Resolves`), and what it
resolves to is cut into characters afterwards (`Resolves.spells`). No escape stands inside a
character there, because no character starts with a byte that goes on with another.
-/

namespace ApiClient.Json

open Bytes Grammar

namespace Reader

variable {unread rest : Bytes}

/-! ### Escapes -/

theorem hexFour_eq_ok_iff {n : Nat} :
    hexFour unread = .ok (n, rest) ↔ ∃ code, CodeUnit code n ∧ unread = code ++ rest := by
  constructor
  · intro h
    unfold hexFour at h
    split at h
    · rename_i a b c d left
      split at h
      · rename_i ha hb hc hd
        cases h
        exact ⟨[a, b, c, d], .mk ha hb hc hd, rfl⟩
      · cases h
    · cases h
  · rintro ⟨_, ⟨ha, hb, hc, hd⟩, rfl⟩
    simp only [hexFour, List.cons_append, List.nil_append, ha, hb, hc, hd]

theorem escaped_of_escape {code : Bytes} {c : Char} (h : Escape code c) (rest : Bytes) :
    escaped (code ++ rest) = .ok (c, rest) := by
  cases h with
  | letter hmem =>
      simp only [letters, List.mem_cons, Prod.mk.injEq, List.not_mem_nil, or_false] at hmem
      rcases hmem
        with ⟨rfl, rfl⟩ | ⟨rfl, rfl⟩ | ⟨rfl, rfl⟩ | ⟨rfl, rfl⟩ | ⟨rfl, rfl⟩ | ⟨rfl, rfl⟩
          | ⟨rfl, rfl⟩
        | ⟨rfl, rfl⟩ <;> rfl
  | @unit code n hunit hn =>
      show codeUnit (code ++ rest) = _
      rw [codeUnit, hexFour_eq_ok_iff.2 ⟨code, hunit, rfl⟩]
      show (if 0xdc00 ≤ n && n ≤ 0xdfff then _ else _) = _
      rw [if_neg (by simp; omega), if_pos (by simp; omega)]
  | @pair first second m n hfirst hm hsecond hn =>
      show codeUnit (first ++ 0x5c :: 0x75 :: second ++ rest) = _
      rw [List.append_assoc, codeUnit, hexFour_eq_ok_iff.2 ⟨first, hfirst, rfl⟩]
      show (if 0xdc00 ≤ m && m ≤ 0xdfff then _ else _) = _
      rw [if_neg (by simp; omega), if_neg (by simp; omega)]
      show (hexFour (second ++ rest) >>= _) = _
      rw [hexFour_eq_ok_iff.2 ⟨second, hsecond, rfl⟩]
      show (if n < 0xdc00 || 0xdfff < n then _ else _) = _
      rw [if_neg (by simp; omega)]

/-- What is read behind the mark of a code unit is one code unit, or two surrogates. -/
theorem escape_of_codeUnit {c : Char} (h : codeUnit unread = .ok (c, rest)) :
    ∃ code, Escape (0x75 :: code) c ∧ unread = code ++ rest := by
  obtain ⟨⟨m, left⟩, hfour, hm⟩ := exists_of_bind_eq_ok h
  obtain ⟨first, hfirst, rfl⟩ := hexFour_eq_ok_iff.1 hfour
  dsimp only at hm
  split at hm
  · cases hm
  · rename_i hlow
    split at hm
    · rename_i hplain
      cases hm
      simp only [Bool.and_eq_true, Bool.or_eq_true, decide_eq_true_eq] at hlow hplain
      exact ⟨first, .unit hfirst (by omega), rfl⟩
    · rename_i hhigh
      simp only [Bool.and_eq_true, Bool.or_eq_true, decide_eq_true_eq] at hlow hhigh
      split at hm
      · cases hm
      · split at hm <;> cases hm
      · rename_i b u left
        split at hm
        · cases hm
        · rename_i hslash
          split at hm
          · cases hm
          · rename_i hmark
            obtain ⟨⟨n, left⟩, hfour, hn⟩ := exists_of_bind_eq_ok hm
            obtain ⟨second, hsecond, rfl⟩ := hexFour_eq_ok_iff.1 hfour
            dsimp only at hn
            split at hn
            · cases hn
            · rename_i hpartner
              obtain ⟨rfl, rfl⟩ := Prod.mk.inj (Except.ok.inj hn)
              obtain rfl : b = 0x5c := by simpa using hslash
              obtain rfl : u = 0x75 := by simpa using hmark
              simp only [Bool.or_eq_true, decide_eq_true_eq] at hpartner
              have hpair := Escape.pair hfirst (by omega) hsecond (by omega)
              exact ⟨_, hpair, by rw [List.append_assoc]; rfl⟩

/-- A byte that is neither a letter nor the mark of a code unit stands for nothing. -/
theorem escaped_of_no_letter {b : UInt8} (hletter : ∀ c, (b, c) ∉ letters) (hmark : b ≠ 0x75)
    (unread : Bytes) :
    escaped (b :: unread) = failAfter .invalidEscape unread := by
  have hne {other : UInt8} {c : Char} (hmem : (other, c) ∈ letters) : ¬ (b == other) = true :=
    fun heq => hletter c (eq_of_beq heq ▸ hmem)
  unfold escaped
  simp only
  rw [if_neg (hne (c := '\x22') (by decide)), if_neg (hne (c := '\x5c') (by decide)),
    if_neg (hne (c := '/') (by decide)), if_neg (hne (c := '\x08') (by decide)),
    if_neg (hne (c := '\x0c') (by decide)), if_neg (hne (c := '\n') (by decide)),
    if_neg (hne (c := '\r') (by decide)), if_neg (hne (c := '\t') (by decide)),
      if_neg (by simpa using hmark)]

/-- **The reader of escapes accepts the escapes**, in front of anything. -/
theorem escaped_eq_ok_iff {c : Char} :
    escaped unread = .ok (c, rest) ↔ ∃ code, Escape code c ∧ unread = code ++ rest := by
  constructor
  · intro h
    cases unread with
    | nil => cases h
    | cons b left =>
        by_cases hletter : ∃ d, (b, d) ∈ letters
        · obtain ⟨d, hmem⟩ := hletter
          have hread := escaped_of_escape (.letter hmem) left
          rw [List.singleton_append, h] at hread
          cases hread
          exact ⟨[b], .letter hmem, rfl⟩
        · by_cases hmark : b = 0x75
          · subst hmark
            obtain ⟨code, hcode, rfl⟩ := escape_of_codeUnit h
            exact ⟨_, hcode, rfl⟩
          · rw [escaped_of_no_letter (fun d hmem => hletter ⟨d, hmem⟩) hmark] at h
            cases h
  · rintro ⟨code, h, rfl⟩
    exact escaped_of_escape h rest

/-! ### Quoted texts -/

/-- Bytes that stand for themselves are read one by one. -/
theorem quotedBytes_plain {plain : Bytes} (h : ∀ b ∈ plain, b ≠ 0x22 ∧ b ≠ 0x5c ∧ ¬ b < 0x20)
    (fuel : Nat) (done rest : Bytes) : quotedBytes (fuel + plain.length) done (plain ++ rest) =
      quotedBytes fuel (plain.reverse ++ done) rest := by
  induction plain generalizing done with
  | nil => rfl
  | cons b plain ih =>
      obtain ⟨hquote, hslash, hcontrol⟩ := h b List.mem_cons_self
      rw [List.length_cons, ← Nat.add_assoc, List.cons_append, quotedBytes,
        if_neg (by simpa using hquote), if_neg (by simpa using hslash), if_neg hcontrol,
        ih fun b hmem => h b (List.mem_cons_of_mem _ hmem),
        List.reverse_cons, List.append_assoc, List.singleton_append]

/-- Bytes of a character that needs no escape stand for themselves. -/
theorem plain_of_mem_utf8EncodeChar {c : Char} (hquote : c ≠ '\x22') (hslash : c ≠ '\x5c')
    (hcontrol : 0x20 ≤ c.toNat) {b : UInt8} (hb : b ∈ String.utf8EncodeChar c) :
    b ≠ 0x22 ∧ b ≠ 0x5c ∧ ¬ b < 0x20 := by
  by_cases hascii : c.toNat < 0x80
  · rw [utf8EncodeChar_of_ascii hascii, List.mem_singleton] at hb
    subst hb
    have hbyte := Ascii.toNat_byte hascii
    have hother (d : Char) (hd : c ≠ d) : c.toNat ≠ d.toNat := fun heq => hd (Char.toNat_inj.1 heq)
    refine ⟨fun heq => hother _ hquote ?_, fun heq => hother _ hslash ?_, ?_⟩
    · rw [← hbyte, heq]
      rfl
    · rw [← hbyte, heq]
      rfl
    · rw [UInt8.lt_iff_toNat_lt, hbyte]
      exact Nat.not_lt.2 hcontrol
  · have hhigh := high_of_mem_utf8EncodeChar hascii hb
    refine ⟨?_, ?_, fun hlow => hhigh (UInt8.lt_trans hlow (by decide))⟩
    · rintro rfl
      exact hhigh (by decide)
    · rintro rfl
      exact hhigh (by decide)

/-- What spells characters is read as their UTF-8 form, up to and with the quote behind it. -/
theorem quotedBytes_of_spells {inside : Bytes} {chars : List Char} (h : Spells inside chars)
    (done rest : Bytes) {fuel : Nat} (hfuel : inside.length < fuel) :
    quotedBytes fuel done (inside ++ 0x22 :: rest) = .ok (done.reverse ++ ofChars chars, rest) := by
  induction h generalizing done fuel with
  | nil =>
      obtain ⟨fuel, rfl⟩ := Nat.exists_eq_add_one_of_ne_zero (Nat.ne_of_gt hfuel)
      rw [List.nil_append, quotedBytes, if_pos (by decide), ofChars_nil, List.append_nil]
  | @plain c tail chars hquote hslash hcontrol _ ih =>
      rw [List.length_append] at hfuel
      obtain ⟨left, rfl⟩ :=
        Nat.exists_eq_add_of_le' (show (String.utf8EncodeChar c).length ≤ fuel by omega)
      rw [List.append_assoc,
        quotedBytes_plain fun b hb => plain_of_mem_utf8EncodeChar hquote hslash hcontrol hb,
        ih _ (by omega), List.reverse_append, List.reverse_reverse, List.append_assoc, ofChars_cons]
  | @escape code tail c chars hcode _ ih =>
      rw [List.length_cons, List.length_append] at hfuel
      obtain ⟨fuel, rfl⟩ := Nat.exists_eq_add_one_of_ne_zero (show fuel ≠ 0 by omega)
      rw [List.cons_append, List.append_assoc, quotedBytes, if_neg (by decide), if_pos (by decide),
        escaped_eq_ok_iff.2 ⟨code, hcode, rfl⟩]
      show quotedBytes fuel _ _ = _
      rw [ih _ (by omega), List.reverse_append, List.reverse_reverse,
        List.append_assoc, ofChars_cons]

/-- What stands between quotes, and the bytes that it stands for: the escapes are resolved, and the
other bytes stand for themselves, whether they make up characters or not. -/
inductive Resolves : Bytes → Bytes → Prop where
  /-- Nothing. -/
  | nil : Resolves [] []
  /-- A byte that stands for itself. -/
  | plain {b : UInt8} {rest bytes : Bytes} (h : b ≠ 0x22 ∧ b ≠ 0x5c ∧ ¬ b < 0x20)
      (hrest : Resolves rest bytes) :
      Resolves (b :: rest) (b :: bytes)
  /-- An escape. -/
  | escape {code rest bytes : Bytes} {c : Char} (h : Escape code c) (hrest : Resolves rest bytes) :
      Resolves (0x5c :: (code ++ rest)) (String.utf8EncodeChar c ++ bytes)

/-- What is read up to a quote has its escapes resolved. -/
theorem resolves_of_quotedBytes {fuel : Nat} {done bytes : Bytes}
    (h : quotedBytes fuel done unread = .ok (bytes, rest)) :
    ∃ inside resolved, Resolves inside resolved
      ∧ unread = inside ++ 0x22 :: rest ∧ bytes = done.reverse ++ resolved := by
  induction fuel generalizing done unread with
  | zero => cases h
  | succ fuel ih =>
      cases unread with
      | nil => cases h
      | cons b left =>
          rw [quotedBytes] at h
          split at h
          · rename_i hquote
            cases h
            obtain rfl := eq_of_beq hquote
            exact ⟨[], [], .nil, rfl, (List.append_nil _).symm⟩
          · rename_i hquote
            split at h
            · rename_i hslash
              obtain ⟨⟨c, left⟩, hescaped, hmore⟩ := exists_of_bind_eq_ok h
              obtain ⟨code, hcode, rfl⟩ := escaped_eq_ok_iff.1 hescaped
              obtain ⟨inside, resolved, hresolves, rfl, rfl⟩ := ih hmore
              obtain rfl := eq_of_beq hslash
              refine ⟨_, _, .escape hcode hresolves, by simp, by simp⟩
            · rename_i hslash
              split at h
              · cases h
              · rename_i hcontrol
                obtain ⟨inside, resolved, hresolves, rfl, rfl⟩ := ih h
                exact ⟨_, _,
                  .plain ⟨by simpa using hquote, by simpa using hslash, hcontrol⟩ hresolves, rfl,
                    by simp⟩

/-- Bytes that no character starts with stand for themselves. -/
theorem Resolves.exists_of_append {inside tail bytes : Bytes} (h : Resolves inside (tail ++ bytes))
    (htail : ∀ t ∈ tail, 0x80 ≤ t.toNat ∧ t.toNat < 0xc0) :
    ∃ rest, inside = tail ++ rest ∧ Resolves rest bytes := by
  induction tail generalizing inside with
  | nil => exact ⟨inside, rfl, h⟩
  | cons t tail ih =>
      rw [List.cons_append] at h
      generalize htotal : t :: (tail ++ bytes) = total at h
      cases h with
      | nil => cases htotal
      | plain _ hrest =>
          obtain ⟨rfl, rfl⟩ := List.cons.inj htotal
          obtain ⟨rest, rfl, hresolves⟩ :=
            ih hrest fun t hmem => htail t (List.mem_cons_of_mem _ hmem)
          exact ⟨rest, rfl, hresolves⟩
      | @escape _ _ _ c _ _ =>
          obtain ⟨b, others, hc, hfirst, -⟩ := Utf8.exists_utf8EncodeChar_eq_cons c
          rw [hc] at htotal
          obtain ⟨rfl, -⟩ := List.cons.inj htotal
          exact absurd (htail t List.mem_cons_self) hfirst

/-- Bytes whose escapes are resolved spell the characters that the result is the UTF-8 form of. -/
theorem Resolves.spells {inside : Bytes} {chars : List Char} (h : Resolves inside (ofChars chars)) :
    Spells inside chars := by
  induction chars generalizing inside with
  | nil =>
      generalize htotal : ofChars [] = total at h
      cases h with
      | nil => exact .nil
      | plain _ _ => cases htotal
      | escape _ _ =>
          exact absurd (List.append_eq_nil_iff.1 htotal.symm).1 String.utf8EncodeChar_ne_nil
  | cons c chars ih =>
      rw [ofChars_cons] at h
      generalize htotal : String.utf8EncodeChar c ++ ofChars chars = total at h
      cases h with
      | nil => exact absurd (List.append_eq_nil_iff.1 htotal).1 String.utf8EncodeChar_ne_nil
      | escape hcode hrest =>
          obtain ⟨rfl, rfl⟩ := Utf8.utf8EncodeChar_append_inj htotal
          exact .escape hcode (ih hrest)
      | @plain b rest bytes hb hrest =>
          -- The byte starts the character, so the rest of the character stands for itself as well.
          obtain ⟨first, tail, hc, -, htail⟩ := Utf8.exists_utf8EncodeChar_eq_cons c
          rw [hc] at htotal
          obtain ⟨rfl, rfl⟩ := List.cons.inj htotal
          obtain ⟨rest, rfl, hresolves⟩ := hrest.exists_of_append htail
          have hself {d : Char} (hd : d.toNat < 0x80) (hne : first ≠ Ascii.byte d) : c ≠ d := by
            rintro rfl
            rw [utf8EncodeChar_of_ascii hd] at hc
            exact hne (List.cons.inj hc).1.symm
          have hcontrol : 0x20 ≤ c.toNat := by
            refine Nat.not_lt.1 fun hlow => hb.2.2 ?_
            rw [utf8EncodeChar_of_ascii (by omega)] at hc
            obtain ⟨rfl, -⟩ := List.cons.inj hc
            rw [UInt8.lt_iff_toNat_lt, Ascii.toNat_byte (by omega)]
            exact hlow
          have hquote : c ≠ '\x22' := hself (by decide) hb.1
          have hslash : c ≠ '\x5c' := hself (by decide) hb.2.1
          have hplain := Spells.plain hquote hslash hcontrol (ih hresolves)
          rwa [hc] at hplain

/-- A quoted text is read behind its opening quote, in front of anything. -/
theorem quoted_of_quoted {text : Bytes} {s : String} (h : Quoted text s) :
    ∃ tail, text = 0x22 :: tail ∧ ∀ rest, quoted (tail ++ rest) = .ok (s, rest) := by
  obtain ⟨hspells⟩ := h
  refine ⟨_, rfl, fun rest => ?_⟩
  rw [List.append_assoc, List.singleton_append, quoted,
    quotedBytes_of_spells hspells _ _ (by rw [List.length_append]; omega)]
  simp only [bind, Except.bind, List.reverse_nil, List.nil_append, ← ofText_eq_ofChars,
    Utf8.decode_ofText]

/-- **The reader of quoted texts accepts the quoted texts**, behind their opening quote. -/
theorem quoted_eq_ok_iff {s : String} :
    quoted unread = .ok (s, rest) ↔ ∃ text, Quoted text s ∧ 0x22 :: unread = text ++ rest := by
  constructor
  · intro h
    obtain ⟨⟨bytes, left⟩, hbytes, hdecode⟩ := exists_of_bind_eq_ok h
    obtain ⟨inside, _, hresolves, rfl, rfl⟩ := resolves_of_quotedBytes hbytes
    cases hs : Utf8.decode bytes with
    | error fault =>
        simp only [hs] at hdecode
        cases hdecode
    | ok s' =>
        simp only [hs] at hdecode
        cases hdecode
        obtain rfl := Utf8.decode_eq_ok_iff.1 hs
        exact ⟨_, .mk hresolves.spells, by simp⟩
  · rintro ⟨text, htext, hunread⟩
    obtain ⟨tail, rfl, hread⟩ := quoted_of_quoted htext
    obtain ⟨-, rfl⟩ := List.cons.inj hunread
    exact hread rest

end Reader

end ApiClient.Json
