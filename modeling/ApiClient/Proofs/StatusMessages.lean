import ApiClient.Error.Client
import ApiClient.Proofs.StreamReading
import ApiClient.Proofs.Utf8Text

/-!
# ApiClient.Proofs.StatusMessages

What the message of a status error shows of a body that is a text.

The message shows the beginning of the body, cut after a number of bytes and read leniently. If the
cut falls between two characters, or behind the last one, what is shown is the characters in front
of it. If it falls within a character, the bytes of that character in front of the cut are an
unfinished one, and U+FFFD is shown in its place (`ShownOf`). So the message shows a front of the
body that fits exactly if no character of the body runs through the cut, and it shows the whole body
if that is short enough. The record of the error holds the body in full in any case.
-/

namespace ApiClient

/-! ### Unfinished characters -/

namespace Utf8

/-- A byte completes something or leaves something begun. -/
theorem advance_ne_nothing (state : Option Pending) (b : UInt8) (h : (advance state b).1 = []) :
    (advance state b).2 ≠ none := by
  have hbegin : (begin b).1 = [] → (begin b).2 ≠ none := by
    unfold begin
    cases lead b <;> simp
  cases state with
  | none => exact hbegin h
  | some p =>
      rw [advance] at h ⊢
      by_cases hbounds : (p.low ≤ b && b ≤ p.high) = true
      · rw [if_pos hbounds] at h ⊢
        by_cases hlast : p.missing ≤ 1
        · rw [if_pos hlast] at h
          cases h
        · rw [if_neg hlast]
          exact Option.some_ne_none _
      · rw [if_neg hbounds] at h
        cases h

/-- Where nothing was begun and nothing comes, there are no pieces, and nowhere else. -/
theorem piecesFrom_eq_nil_iff {state : Option Pending} {bytes : Bytes} :
    piecesFrom state bytes = [] ↔ state = none ∧ bytes = [] := by
  constructor
  · intro h
    induction bytes generalizing state with
    | nil =>
        cases state with
        | none => exact ⟨rfl, rfl⟩
        | some p => cases h
    | cons b rest ih =>
        rw [piecesFrom, List.append_eq_nil_iff] at h
        exact absurd (ih h.2).1 (advance_ne_nothing state b h.1)
  · rintro ⟨rfl, rfl⟩
    rfl

/-- Bytes emit pieces and leave a state from which everything behind them is read. -/
theorem exists_piecesFrom_append (state : Option Pending) (bytes : Bytes) : ∃ emitted next, ∀ rest,
    piecesFrom state (bytes ++ rest) = emitted ++ piecesFrom next rest := by
  induction bytes generalizing state with
  | nil => exact ⟨[], state, fun _ => rfl⟩
  | cons b bytes ih =>
      obtain ⟨emitted, next, h⟩ := ih (advance state b).2
      refine ⟨(advance state b).1 ++ emitted, next, fun rest => ?_⟩
      rw [List.cons_append, piecesFrom, h, List.append_assoc]

/-- A character without its last bytes is unfinished. -/
theorem pieces_of_front {c : Char} {front behind : Bytes}
    (h : String.utf8EncodeChar c = front ++ behind) (hfront : front ≠ []) (hbehind : behind ≠ []) :
    ∃ width, pieces front = [.cutOff width] := by
  obtain ⟨emitted, next, hread⟩ := exists_piecesFrom_append none front
  have hchar : emitted ++ piecesFrom next behind = [.char c] := by
    rw [← hread, ← h, ← List.append_nil (String.utf8EncodeChar c), piecesFrom_char]
    rfl
  have hrest : piecesFrom next behind ≠ [] := fun hnil => hbehind (piecesFrom_eq_nil_iff.1 hnil).2
  -- The character is one piece, and the bytes behind the cut give a piece.
  have hemitted : emitted = [] := by
    rcases List.append_eq_singleton_iff.1 hchar with ⟨hnil, -⟩ | ⟨-, hnil⟩
    · exact hnil
    · exact absurd hnil hrest
  have hpieces : pieces front = piecesFrom next [] := by
    rw [pieces, ← List.append_nil front, hread, hemitted, List.nil_append]
  cases next with
  | none => exact absurd (piecesFrom_eq_nil_iff.1 hpieces).2 hfront
  | some p => exact ⟨p.width, hpieces⟩

end Utf8

/-! ### The front of a text -/

/-- What is shown of characters of which the first `n` bytes are read. -/
inductive ShownOf (n : Nat) : List Char → List Char → Prop where
  /-- A front that fits, and it fills the bytes or there is nothing else. -/
  | fits (front behind : List Char) (hfits : (Bytes.ofChars front).length ≤ n)
      (hfull : behind = [] ∨ (Bytes.ofChars front).length = n) : ShownOf n (front ++ behind) front
  /-- A front with a sign for the character behind it, of which some bytes fit and some do not. -/
  | cut (front : List Char) (c : Char) (behind : List Char)
      (hbefore : (Bytes.ofChars front).length < n)
      (hbehind : n < (Bytes.ofChars (front ++ [c])).length) :
      ShownOf n (front ++ c :: behind) (front ++ ['\ufffd'])

/-- A character runs through the end of the first `n` bytes. -/
def Straddles (n : Nat) (chars : List Char) : Prop :=
  ∃ front c behind, chars = front ++ c :: behind
    ∧ (Bytes.ofChars front).length < n ∧ n < (Bytes.ofChars (front ++ [c])).length

theorem length_ofChars_cons (c : Char) (chars : List Char) : (Bytes.ofChars (c :: chars)).length =
    (String.utf8EncodeChar c).length + (Bytes.ofChars chars).length := by
  rw [Bytes.ofChars_cons, List.length_append]

namespace ShownOf

variable {n : Nat} {chars shown : List Char}

/-- A character that fits is shown in front of what is shown behind it. -/
theorem cons {c : Char} (hc : (String.utf8EncodeChar c).length ≤ n)
    (h : ShownOf (n - (String.utf8EncodeChar c).length) chars shown) :
    ShownOf n (c :: chars) (c :: shown) := by
  cases h with
  | fits front behind hfits hfull =>
      refine .fits (c :: shown) behind ?_ (hfull.imp_right fun h => ?_)
      · rw [length_ofChars_cons]
        omega
      · rw [length_ofChars_cons]
        omega
  | cut front d behind hbefore hbehind =>
      refine .cut (c :: front) d behind ?_ ?_
      · rw [length_ofChars_cons]
        omega
      · rw [List.cons_append, length_ofChars_cons]
        omega

/-- Characters whose bytes all fit are shown as they are. -/
theorem eq_of_length_le (h : ShownOf n chars shown) (hlength : (Bytes.ofChars chars).length ≤ n) :
    shown = chars := by
  cases h with
  | cut front c behind hbefore hbehind =>
      rw [← List.singleton_append, ← List.append_assoc, Bytes.ofChars_append, List.length_append]
        at hlength
      omega
  | fits front behind hfits hfull =>
      rw [Bytes.ofChars_append, List.length_append] at hlength
      rcases hfull with rfl | hfull
      · exact (List.append_nil _).symm
      · -- Behind bytes that are full there is no room for a character.
        cases behind with
        | nil => exact (List.append_nil _).symm
        | cons c behind =>
            have hpos := List.length_pos_iff.2 (String.utf8EncodeChar_ne_nil (c := c))
            rw [length_ofChars_cons] at hlength
            omega

/-- What is shown is a front of the characters that fits, unless one of them runs through the
end. -/
theorem isFront_iff (h : ShownOf n chars shown) :
    shown <+: chars ∧ (Bytes.ofChars shown).length ≤ n ↔ ¬ Straddles n chars := by
  cases h with
  | fits front behind hfits hfull =>
      refine ⟨fun _ => ?_, fun _ => ⟨List.prefix_append _ _, hfits⟩⟩
      rintro ⟨before, c, rest, heq, hbefore, hbehind⟩
      rcases List.append_eq_append_iff.1 heq with ⟨more, rfl, rfl⟩ | ⟨more, rfl, hrest⟩
      · -- The character would stand behind a front that is full.
        rw [Bytes.ofChars_append, List.length_append] at hbefore
        rcases hfull with hnil | hfull
        · simp at hnil
        · omega
      · cases more with
        | nil =>
            rw [List.append_nil] at hfull
            rcases hfull with rfl | hfull
            · cases hrest
            · omega
        | cons d more =>
            -- The character would belong to a front that fits.
            obtain ⟨rfl, -⟩ := List.cons.inj hrest
            rw [← List.singleton_append, ← List.append_assoc, Bytes.ofChars_append,
              List.length_append] at hfits
            omega
  | cut front c behind hbefore hbehind =>
      refine ⟨fun hfront => ?_, fun hnot => absurd ⟨front, c, behind, rfl, hbefore, hbehind⟩ hnot⟩
      rw [List.prefix_append_right_inj, List.cons_prefix_cons] at hfront
      obtain ⟨⟨rfl, -⟩, hlength⟩ := hfront
      omega

end ShownOf

/-- Read leniently, the first bytes of characters are shown in this way. -/
theorem shownOf_take (n : Nat) (chars : List Char) :
    ShownOf n chars ((Utf8.pieces ((Bytes.ofChars chars).take n)).map Utf8.Piece.shown) := by
  induction chars generalizing n with
  | nil =>
      rw [Bytes.ofChars_nil, List.take_nil]
      exact .fits [] [] (Nat.zero_le n) (.inl rfl)
  | cons c chars ih =>
      rw [Bytes.ofChars_cons]
      by_cases hc : (String.utf8EncodeChar c).length ≤ n
      · rw [List.take_append, List.take_of_length_le hc, Utf8.pieces, Utf8.piecesFrom_char,
          List.map_cons]
        exact .cons hc (ih _)
      · rw [List.take_append_of_le_length (by omega)]
        by_cases hn : n = 0
        · subst hn
          exact .fits [] (c :: chars) (Nat.le_refl 0) (.inr rfl)
        · obtain ⟨width, hwidth⟩ := Utf8.pieces_of_front
            (List.take_append_drop n (String.utf8EncodeChar c)).symm
            (fun hnil => (List.take_eq_nil_iff.1 hnil).elim hn String.utf8EncodeChar_ne_nil)
            (by rw [ne_eq, List.drop_eq_nil_iff]; omega)
          rw [hwidth]
          refine .cut [] c chars ?_ ?_
          · exact Nat.pos_of_ne_zero hn
          · rw [List.nil_append, length_ofChars_cons]
            omega

/-! ### Messages of status errors -/

namespace ClientError

theorem readStatus_eq (status : Status) (headers : HeaderMap) {bytes : Bytes} {body : Stream}
    (hfaultless : body.IsFaultless) (hcontent : body.content = bytes) :
    readStatus status headers body = .ok (ofStatus status headers bytes) := by
  rw [readStatus, hfaultless.readAll_eq, hcontent]
  rfl

theorem message_ofStatus (status : Status) (headers : HeaderMap) {s : String} (hne : s ≠ "") :
    let shown := Utf8.decodeLossy ((Bytes.ofText s).take shownBytes)
    (ofStatus status headers (Bytes.ofText s)).message =
      s!"{status.code} {status.text}: \"{shown}\"" := by
  rw [message, ofStatus, statusMessage, if_neg (by simpa using Bytes.ofText_ne_nil hne)]
  rfl

theorem shownOf_decodeLossy (n : Nat) (s : String) :
    ShownOf n s.toList (Utf8.decodeLossy ((Bytes.ofText s).take n)).toList := by
  rw [Utf8.decodeLossy, String.toList_ofList]
  exact shownOf_take n s.toList

/-- The error of an answer whose body is a text holds all of the text. Its message says so if the
text is empty, and shows the text otherwise. A text that is short enough is shown whole, and of a
longer one a front is shown that fits, unless a character runs through the end of the bytes that the
message has room for: then what is shown ends with a sign that is not of the text, or no longer
fits. -/
theorem status_error_shows_text (status : Status) (headers : HeaderMap) {s : String} {body : Stream}
    (hfaultless : body.IsFaultless) (hcontent : body.content = Bytes.ofText s) : ∃ e,
      readStatus status headers body = .ok e
      ∧ e.report = some ⟨status, headers, Bytes.ofText s⟩
      ∧ (s = "" → e.message = s!"{status.code} {status.text}: [no body]")
      ∧ (s ≠ "" → ∃ shown : String, e.message = s!"{status.code} {status.text}: \"{shown}\""
        ∧ ShownOf shownBytes s.toList shown.toList
        ∧ ((Bytes.ofText s).length ≤ shownBytes → shown = s)
        ∧ (shown.toList <+: s.toList ∧ (Bytes.ofText shown).length ≤ shownBytes ↔
          ¬ Straddles shownBytes s.toList)) := by
  refine ⟨_, readStatus_eq status headers hfaultless hcontent, rfl, ?_, fun hne => ?_⟩
  · rintro rfl
    rfl
  · have hshown := shownOf_decodeLossy shownBytes s
    exact ⟨_, message_ofStatus status headers hne, hshown,
      fun hlength => String.toList_inj.1 (hshown.eq_of_length_le hlength), hshown.isFront_iff⟩

/-- A word that comes from two sources, of which the first ends within a character. -/
def brokenWord : Stream :=
  [.ofBytes ((Bytes.ofText "größe").take 3), .ofBytes ((Bytes.ofText "größe").drop 3)]

theorem brokenWord_isFaultless : brokenWord.IsFaultless :=
  Stream.isFaultless_of_failure_eq_none (by simp [brokenWord, Source.ofBytes])

/-- A short word is shown whole. -/
theorem broken_word_shown_whole : brokenWord.IsFaultless ∧ brokenWord.content = Bytes.ofText "größe"
    ∧ ∃ e, readStatus ⟨555, by decide⟩ ∅ brokenWord = .ok e
      ∧ e.message = "555 Server Error: \"größe\"" := by
  have hcontent : brokenWord.content = Bytes.ofText "größe" := by decide
  obtain ⟨e, hread, -, -, hmessage⟩ :=
    status_error_shows_text ⟨555, by decide⟩ ∅ brokenWord_isFaultless hcontent
  obtain ⟨shown, hshown, -, hwhole, -⟩ := hmessage (by decide)
  refine ⟨brokenWord_isFaultless, hcontent, e, hread, ?_⟩
  rw [hshown, hwhole (by decide)]
  rfl

/-- A text whose last character has two bytes, behind `n` characters of one byte each. -/
def wideEnd (n : Nat) : String := String.ofList (List.replicate n 'x' ++ ['é'])

theorem straddles_wideEnd (n : Nat) : Straddles (n + 1) (wideEnd n).toList := by
  have hlength : (Bytes.ofChars (List.replicate n 'x')).length = n := by
    rw [Bytes.ofChars_of_ascii (fun c hc => by rw [List.eq_of_mem_replicate hc]; decide),
      List.length_map, List.length_replicate]
  refine ⟨List.replicate n 'x', 'é', [], String.toList_ofList, ?_, ?_⟩
  · rw [hlength]
    exact Nat.lt_succ_self n
  · rw [Bytes.ofChars_append, List.length_append, hlength]
    exact Nat.add_lt_add_left (by decide) n

theorem wideEnd_ne_empty (n : Nat) : wideEnd n ≠ "" := by
  intro h
  have hchars := congrArg String.toList h
  rw [wideEnd, String.toList_ofList] at hchars
  exact List.append_ne_nil_of_right_ne_nil _ (List.cons_ne_nil _ _) hchars

/-- Not every message shows a front of the text that fits. -/
theorem cut_character_shown :
    ¬ ∀ (status : Status) (headers : HeaderMap) (s : String) (body : Stream) (e : ClientError),
      body.IsFaultless → body.content = Bytes.ofText s → readStatus status headers body = .ok e →
      s ≠ "" → ∃ shown : String, e.message = s!"{status.code} {status.text}: \"{shown}\""
        ∧ shown.toList <+: s.toList ∧ (Bytes.ofText shown).length ≤ 1024 := by
  intro h
  have hfaultless := Stream.isFaultless_ofBytes (Bytes.ofText (wideEnd 1023))
  have hcontent := Stream.content_ofBytes (Bytes.ofText (wideEnd 1023))
  have hne := wideEnd_ne_empty 1023
  obtain ⟨shown, hmessage, hfront⟩ := h ⟨502, by decide⟩ ∅ _ _ _ hfaultless hcontent
    (readStatus_eq _ _ hfaultless hcontent) hne
  rw [message_ofStatus _ _ hne] at hmessage
  have hshown : toString shown =
      toString (Utf8.decodeLossy ((Bytes.ofText (wideEnd 1023)).take shownBytes)) := by
    simpa using hmessage.symm
  obtain rfl : shown = Utf8.decodeLossy ((Bytes.ofText (wideEnd 1023)).take shownBytes) := hshown
  exact (shownOf_decodeLossy shownBytes _).isFront_iff.1 hfront (straddles_wideEnd 1023)

end ClientError

end ApiClient
